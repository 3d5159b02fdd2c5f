import ProofEngine.Core.Limits
import ProofEngine.Lib.StableSort
import ProofEngine.Lib.Text

/-! # Deterministic CBOR

The encoder emits shortest heads and map entries in the order of their encoded keys.
The decoder walks the input once; what is left of it is threaded through as `buf`.
The nesting counter runs downwards: `room` is `max_depth + 1 - depth`, so a value at
`room = 0` is one whose depth exceeds the limit. -/

namespace ProofEngine

open StableSort Text

/-- CBOR values of the subset. -/
inductive CborValue where
  | uint (value : UInt64)
  | nint (value : Int64)
  | text (value : String)
  | bytes (value : Bytes)
  | array (items : List CborValue)
  | map (pairs : List (CborValue × CborValue))
  | bool (value : Bool)
  | null
  deriving Repr

/-! ## Encoder -/

def encodeHead (major : UInt8) (n : UInt64) : Bytes :=
  let lead := major <<< 5
  if n < 24 then [lead ||| n.toUInt8]
  else if n ≤ 0xff then [lead ||| 24, n.toUInt8]
  else if n ≤ 0xffff then (lead ||| 25) :: Bytes.bigEndian 2 n.toNat
  else if n ≤ 0xffffffff then (lead ||| 26) :: Bytes.bigEndian 4 n.toNat
  else (lead ||| 27) :: Bytes.bigEndian 8 n.toNat

/-- Concatenation of key and value encodings, entry by entry. -/
def joinPairs (pairs : List (Bytes × Bytes)) : Bytes := pairs.flatMap fun pair => pair.1 ++ pair.2

mutual

def encodeValue : CborValue → Bytes
  | .uint n => encodeHead 0 n
  | .nint n =>
    -- A non-negative `Nint` is a caller error; release builds write it as an unsigned integer.
    if 0 ≤ n.toInt then encodeHead 0 (UInt64.ofNat n.toInt.toNat)
    else encodeHead 1 (UInt64.ofNat (-1 - n.toInt).toNat)
  | .bytes b => encodeHead 2 (UInt64.ofNat b.length) ++ b
  | .text s => encodeHead 3 (UInt64.ofNat (len s)) ++ utf8 s
  | .array items => encodeHead 4 (UInt64.ofNat items.length) ++ encodeItems items
  | .map pairs =>
    -- The head counts the stored entries; entries with equal keys stay in stored order.
    encodeHead 5 (UInt64.ofNat pairs.length) ++ joinPairs (sortOn Prod.fst (encodePairs pairs))
  | .bool true => [0xf5]
  | .bool false => [0xf4]
  | .null => [0xf6]

def encodeItems : List CborValue → Bytes
  | [] => []
  | item :: items => encodeValue item ++ encodeItems items

def encodePairs : List (CborValue × CborValue) → List (Bytes × Bytes)
  | [] => []
  | (key, value) :: pairs => (encodeValue key, encodeValue value) :: encodePairs pairs

end

def encodeCanonical (value : CborValue) : Bytes := encodeValue value

mutual

/-- Put the entries of every map, also inside keys, in the order of their encoded keys. -/
def CborValue.sortMaps : CborValue → CborValue
  | .array items => .array (sortMapsItems items)
  | .map pairs => .map (sortOn (fun pair => encodeCanonical pair.1) (sortMapsPairs pairs))
  | .uint n => .uint n
  | .nint n => .nint n
  | .text s => .text s
  | .bytes b => .bytes b
  | .bool b => .bool b
  | .null => .null

def sortMapsItems : List CborValue → List CborValue
  | [] => []
  | item :: items => item.sortMaps :: sortMapsItems items

def sortMapsPairs : List (CborValue × CborValue) → List (CborValue × CborValue)
  | [] => []
  | (key, value) :: pairs => (key.sortMaps, value.sortMaps) :: sortMapsPairs pairs

end

/-! ## Decoder -/

/-- Split `n` bytes off the input. -/
def read (n : Nat) (buf : Bytes) : Result (Bytes × Bytes) :=
  if buf.length < n then .error (ErrorCode.malformed.err "truncated CBOR input")
  else .ok (buf.take n, buf.drop n)

/-- A `width`-byte argument that must exceed `bound`, the largest value of the next shorter form. -/
def readWord (width bound : Nat) (form : String) (buf : Bytes) : Result (UInt64 × Bytes) := do
  let (word, rest) ← read width buf
  let value := Bytes.wordValue word
  -- A shorter form exists, so this one is not canonical.
  if value ≤ bound then
    .error (ErrorCode.nonCanonical.err ("non-shortest int encoding (ai=" ++ form ++ ")"))
  else .ok (UInt64.ofNat value, rest)

/-- The argument of a head whose low five bits are `ai`. -/
def readArg (ai : UInt8) (buf : Bytes) : Result (UInt64 × Bytes) :=
  if ai ≤ 23 then .ok (ai.toUInt64, buf)
  else if ai = 24 then readWord 1 23 "24" buf
  else if ai = 25 then readWord 2 0xff "25" buf
  else if ai = 26 then readWord 4 0xffff "26" buf
  else if ai = 27 then readWord 8 0xffffffff "27" buf
  else if ai ≤ 30 then .error (ErrorCode.forbiddenCborConstruct.err "reserved additional info")
  else if ai = 31 then .error (ErrorCode.forbiddenCborConstruct.err "indefinite length forbidden")
  else .error (ErrorCode.malformed.err "additional info out of range")

/-- A length argument; every `u64` fits the 64-bit `usize`. -/
def readLen (ai : UInt8) (limit : UInt64) (what : String) (buf : Bytes) : Result (Nat × Bytes) := do
  let (arg, rest) ← readArg ai buf
  if limit < arg then .error (ErrorCode.limitExceeded.err (what ++ " too large"))
  else .ok (arg.toNat, rest)

/-- `for _ in 0..len` over array items. -/
def decodeItems (decode : Bytes → Result (CborValue × Bytes)) :
    Nat → Bytes → Result (List CborValue × Bytes)
  | 0, buf => .ok ([], buf)
  | n + 1, buf => do
    let (item, rest) ← decode buf
    let (items, rest) ← decodeItems decode n rest
    .ok (item :: items, rest)

/-- Keys must be strictly ascending by their encoding. -/
def checkKeyOrder (previous : Option Bytes) (key : Bytes) : Result Unit :=
  match previous with
  | none => .ok ()
  | some previous =>
    if key = previous then .error (ErrorCode.duplicateMapKey.err "duplicate map key")
    else if key < previous then
      .error (ErrorCode.nonCanonical.err "map keys not in lexicographic order")
    else .ok ()

/-- `for _ in 0..len` over map entries, with the encoding of the previous key. -/
def decodePairs (decode : Bytes → Result (CborValue × Bytes)) :
    Nat → Option Bytes → Bytes → Result (List (CborValue × CborValue) × Bytes)
  | 0, _, buf => .ok ([], buf)
  | n + 1, previous, buf => do
    let (key, rest) ← decode buf
    let (value, rest) ← decode rest
    let keyBytes := encodeCanonical key
    -- The key is compared by its re-encoding, after the value has been read.
    checkKeyOrder previous keyBytes
    let (pairs, rest) ← decodePairs decode n (some keyBytes) rest
    .ok ((key, value) :: pairs, rest)

def decodeNint (arg : UInt64) : Result CborValue :=
  -- The subtraction is done in `i128`, so it cannot overflow.
  let value : Int := -1 - arg.toNat
  if value < Int64.minValue.toInt then
    .error (ErrorCode.forbiddenCborConstruct.err
      "nint out of i64 range (bignum not supported in V1)")
  else .ok (.nint (Int64.ofInt value))

def decodeText (bytes : Bytes) : Result CborValue :=
  match fromUtf8 bytes with
  | some text => .ok (.text text)
  | none => .error (ErrorCode.malformed.err "invalid UTF-8 in text string")

def decodeSimple (ai : UInt8) : Result CborValue :=
  if ai = 20 then .ok (.bool false)
  else if ai = 21 then .ok (.bool true)
  else if ai = 22 then .ok .null
  else if ai = 24 then .error (ErrorCode.forbiddenCborConstruct.err "2-byte simple values forbidden")
  else if 25 ≤ ai ∧ ai ≤ 27 then .error (ErrorCode.forbiddenCborConstruct.err "floats forbidden in V1")
  else if ai = 31 then
    .error (ErrorCode.forbiddenCborConstruct.err "break stop code outside indefinite")
  else .error (ErrorCode.forbiddenCborConstruct.err "simple/undefined values forbidden")

/-- What follows an initial byte with major type `major` and low bits `ai`; `nested` decodes
    the values one level further in. -/
def decodeBody (limits : Limits) (nested : Bytes → Result (CborValue × Bytes))
    (major : Nat) (ai : UInt8) (buf : Bytes) : Result (CborValue × Bytes) :=
  match major with
  | 0 => do
    let (n, rest) ← readArg ai buf
    .ok (.uint n, rest)
  | 1 => do
    let (n, rest) ← readArg ai buf
    let value ← decodeNint n
    .ok (value, rest)
  | 2 => do
    let (len, rest) ← readLen ai limits.maxFieldSize "bytes field" buf
    let (bytes, rest) ← read len rest
    .ok (.bytes bytes, rest)
  | 3 => do
    let (len, rest) ← readLen ai limits.maxFieldSize "text field" buf
    let (bytes, rest) ← read len rest
    let value ← decodeText bytes
    .ok (value, rest)
  | 4 => do
    let (len, rest) ← readLen ai limits.maxArrayItems "array" buf
    let (items, rest) ← decodeItems nested len rest
    .ok (.array items, rest)
  | 5 => do
    let (len, rest) ← readLen ai limits.maxMapEntries "map" buf
    let (pairs, rest) ← decodePairs nested len none rest
    .ok (.map pairs, rest)
  -- Major types 6 and 7 take no argument, so nothing more is read for them.
  | 6 => .error (ErrorCode.forbiddenCborConstruct.err "tags forbidden in V1")
  | 7 => do
    let value ← decodeSimple ai
    .ok (value, buf)
  | _ => .error (ErrorCode.malformed.err "major type out of range")

def decodeValue (limits : Limits) : (room : Nat) → Bytes → Result (CborValue × Bytes)
  | 0, _ => .error (ErrorCode.limitExceeded.err "max CBOR depth exceeded")
  | _ + 1, [] => .error (ErrorCode.malformed.err "empty CBOR input")
  | room + 1, initial :: rest =>
    decodeBody limits (decodeValue limits room) (initial >>> 5).toNat (initial &&& 0x1f) rest

/-- Strict decode: the whole input is one value in canonical form within the limits. -/
def decodeStrict (bytes : Bytes) (limits : Limits) : Result CborValue :=
  if limits.maxProofSize.toNat < bytes.length then
    .error (ErrorCode.limitExceeded.err "proof bytes exceed max_proof_size")
  else do
    let (value, rest) ← decodeValue limits (limits.maxDepth.toNat + 1) bytes
    if rest ≠ [] then .error (ErrorCode.malformed.err "trailing bytes after CBOR item")
    else .ok value

/-- Whether `bytes` is the deterministic encoding of its decoded value. -/
def isCanonical (bytes : Bytes) (limits : Limits) : Result Bool := do
  let value ← decodeStrict bytes limits
  .ok (encodeCanonical value == bytes)

/-- Decode and compare with the re-encoding. -/
def decodeAndCheckCanonical (bytes : Bytes) (limits : Limits) : Result CborValue := do
  let value ← decodeStrict bytes limits
  if encodeCanonical value ≠ bytes then
    .error (ErrorCode.nonCanonical.err "bytes are not deterministic encoding")
  else .ok value

end ProofEngine
