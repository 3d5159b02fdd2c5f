import ProofEngine.Format.CborExact

/-! # The second codec

A codec of the same subset in a dynamically typed language.  Its decoder checks the shortest form of
integers only; heads of strings and containers are compared by encoding the value again.  The depth
counter runs downwards here, `room` is `MAX_DEPTH + 1 - depth`. -/

namespace ProofEngine.Interop

open StableSort Text

/-- What ends a run early: a failed check, or an exception that nothing catches. -/
inductive Raised where
  | cErr (message : String)
  | interopFail (message : String)
  | keyError
  | attributeError
  | typeError
  | overflowError
  deriving DecidableEq, Repr

abbrev Py := Except Raised

/-- Decoded values; `map` is the list of pairs that remembers it is a map. -/
inductive Value where
  | int (value : Int)
  | bytes (value : Bytes)
  | str (value : String)
  | list (items : List Value)
  | map (pairs : List (Value × Value))
  | bool (value : Bool)
  | none
  deriving Repr

def maxDepth : Nat := 16

/-! ## Encoder -/

/-- A head; `to_bytes` overflows beyond eight bytes. -/
def head (maj : UInt8) (n : Nat) : Py Bytes :=
  if n < 24 then .ok [maj <<< 5 ||| UInt8.ofNat n]
  else if n < 256 then .ok ((maj <<< 5 ||| 24) :: Bytes.bigEndian 1 n)
  else if n < 65536 then .ok ((maj <<< 5 ||| 25) :: Bytes.bigEndian 2 n)
  else if n < 2 ^ 32 then .ok ((maj <<< 5 ||| 26) :: Bytes.bigEndian 4 n)
  else if n < 2 ^ 64 then .ok ((maj <<< 5 ||| 27) :: Bytes.bigEndian 8 n)
  else .error .overflowError

def enc : Value → Py Bytes
  | .bool true => .ok [0xf5]
  | .bool false => .ok [0xf4]
  | .none => .ok [0xf6]
  | .int v =>
    if 0 ≤ v then head 0 v.toNat
    else if v < -2 ^ 63 then .error (.cErr "nint out of V1 range")
    else head 1 (-1 - v).toNat
  | .bytes b => (head 2 b.length).map (· ++ b)
  | .str s => (head 3 (len s)).map (· ++ utf8 s)
  -- lists have no `encode`
  | .list _ => .error .attributeError
  | .map _ => .error .attributeError

/-- Neighbours among sorted entries are in order and differ. -/
def checkSorted {α : Type} : Option Bytes → List (Bytes × α) → Py Unit
  | _, [] => .ok ()
  | previous, entry :: entries =>
    if previous = some entry.1 then .error (.cErr "dup key")
    else if previous.any fun key => entry.1 < key then .error (.cErr "order")
    else checkSorted (some entry.1) entries

def joinEntries : List (Bytes × Py Bytes) → Py Bytes
  | [] => .ok []
  | (key, value) :: entries => do
    let value ← value
    let rest ← joinEntries entries
    .ok (key ++ value ++ rest)

mutual

def encAny : Value → Py Bytes
  | .map pairs => do
    let entries ← encEntries pairs
    -- entries with one key would be compared further, but they do not pass the check after that
    checkSorted none (sortOn Prod.fst entries)
    let lead ← head 5 pairs.length
    let body ← joinEntries (sortOn Prod.fst entries)
    .ok (lead ++ body)
  | .list items => do
    let lead ← head 4 items.length
    let body ← encItems items
    .ok (lead ++ body)
  | .int v => enc (.int v)
  | .bytes b => enc (.bytes b)
  | .str s => enc (.str s)
  | .bool b => enc (.bool b)
  | .none => enc .none

def encItems : List Value → Py Bytes
  | [] => .ok []
  | item :: items => do
    let bytes ← encAny item
    let rest ← encItems items
    .ok (bytes ++ rest)

/-- Encoded keys, each with what encoding its value will give. -/
def encEntries : List (Value × Value) → Py (List (Bytes × Py Bytes))
  | [] => .ok []
  | (key, value) :: pairs => do
    let key ← enc key
    let entries ← encEntries pairs
    .ok ((key, encAny value) :: entries)

end

/-! ## Decoder -/

/-- The table of argument widths; `ai` over 27 is not in it. -/
def argWidth (ai : UInt8) : Py Nat :=
  if ai = 24 then .ok 1
  else if ai = 25 then .ok 2
  else if ai = 26 then .ok 4
  else if ai = 27 then .ok 8
  else .error .keyError

def arg (ai : UInt8) (buf : Bytes) : Py (Nat × Bytes) :=
  if ai ≤ 23 then .ok (ai.toNat, buf)
  else do
    let n ← argWidth ai
    if buf.length < n then .error (.cErr "truncated")
    else .ok (Bytes.wordValue (buf.take n), buf.drop n)

/-- The least argument that needs the form `ai`. -/
def leastArg (ai : UInt8) : Nat :=
  if ai ≤ 23 then 0
  else if ai = 24 then 24
  else if ai = 25 then 256
  else if ai = 26 then 65536
  else 2 ^ 32

def decInt (negative : Bool) (ai : UInt8) (buf : Bytes) : Py (Value × Bytes) := do
  let (v, rest) ← arg ai buf
  if v < leastArg ai then .error (.cErr "non-shortest int")
  else .ok (.int (if negative then -1 - v else v), rest)

def decString (isText : Bool) (ai : UInt8) (buf : Bytes) : Py (Value × Bytes) := do
  let (n, rest) ← arg ai buf
  if rest.length < n then .error (.cErr "truncated")
  else if isText then
    match fromUtf8 (rest.take n) with
    | some s => .ok (.str s, rest.drop n)
    | none => .error (.cErr "bad utf-8")
  else .ok (.bytes (rest.take n), rest.drop n)

def decItems (dec : Bytes → Py (Value × Bytes)) : Nat → Bytes → Py (List Value × Bytes)
  | 0, buf => .ok ([], buf)
  | n + 1, buf => do
    let (item, rest) ← dec buf
    let (items, rest) ← decItems dec n rest
    .ok (item :: items, rest)

def checkKey (previous : Option Bytes) (key : Bytes) : Py Unit :=
  match previous with
  | none => .ok ()
  | some previous =>
    if key = previous then .error (.cErr "dup key")
    else if key < previous then .error (.cErr "misordered key")
    else .ok ()

def decPairs (dec : Bytes → Py (Value × Bytes)) :
    Nat → Option Bytes → Bytes → Py (List (Value × Value) × Bytes)
  | 0, _, buf => .ok ([], buf)
  | n + 1, previous, buf => do
    let (key, rest) ← dec buf
    let (value, rest) ← dec rest
    let keyBytes ← enc key
    checkKey previous keyBytes
    let (pairs, rest) ← decPairs dec n (some keyBytes) rest
    .ok ((key, value) :: pairs, rest)

def forbidden {α : Type} (maj : Nat) (ai : UInt8) : Py α :=
  .error (.cErr ("forbidden major=" ++ toString maj ++ " ai=" ++ toString ai.toNat))

def decBody (nested : Bytes → Py (Value × Bytes)) (maj : Nat) (ai : UInt8) (buf : Bytes) : Py (Value × Bytes) :=
  match maj with
  | 0 => decInt false ai buf
  | 1 => decInt true ai buf
  | 2 => decString false ai buf
  | 3 => decString true ai buf
  | 4 => do
    let (n, rest) ← arg ai buf
    let (items, rest) ← decItems nested n rest
    .ok (.list items, rest)
  | 5 => do
    let (n, rest) ← arg ai buf
    let (pairs, rest) ← decPairs nested n none rest
    .ok (.map pairs, rest)
  | 7 =>
    if ai = 20 then .ok (.bool false, buf)
    else if ai = 21 then .ok (.bool true, buf)
    else if ai = 22 then .ok (.none, buf)
    else forbidden 7 ai
  | maj => forbidden maj ai

def dec : (room : Nat) → Bytes → Py (Value × Bytes)
  | 0, _ => .error (.cErr "depth")
  | _ + 1, [] => .error (.cErr "truncated")
  | room + 1, initial :: rest => decBody (dec room) (initial >>> 5).toNat (initial &&& 0x1f) rest

def decStrict (raw : Bytes) : Py Value := do
  let (v, rest) ← dec (maxDepth + 1) raw
  if rest ≠ [] then .error (.cErr "trailing bytes") else .ok v

/-- Only the codec's own errors are caught. -/
def parseStage {α : Type} : Py α → Py α
  | .ok v => .ok v
  | .error (.cErr e) => .error (.interopFail ("parse: " ++ e))
  | .error raised => .error raised

/-- Strict decoding and comparison with the re-encoding. -/
def checkCanonical (raw : Bytes) : Py Value := do
  let v ← parseStage (decStrict raw)
  let again ← encAny v
  if again ≠ raw then .error (.interopFail "non-canonical re-encoding") else .ok v

end ProofEngine.Interop
