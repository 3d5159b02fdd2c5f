import ProofEngine.Crypto.Id

/-! # COSE_Sign1

Key references, algorithm policy and the signed envelope: a four-element array of protected
header, empty unprotected header, payload and signature. -/

namespace ProofEngine

open Text

/-! ## Algorithms and keys -/

def coseEd25519 : Int64 := -19
def coseEsp256 : Int64 := -9
def deprecatedAlgs : List Int64 := [-8, -7, -35, -36]

structure AllowedAlgs where
  ed25519 : Bool
  esp256 : Bool
  allowDeprecated : Bool
  deriving DecidableEq, Repr

namespace AllowedAlgs

def strict : AllowedAlgs := { ed25519 := true, esp256 := false, allowDeprecated := false }

def isAllowed (allowed : AllowedAlgs) (alg : Int64) : Bool :=
  if alg = coseEd25519 then allowed.ed25519
  else if alg = coseEsp256 then allowed.esp256
  else false

def isDeprecated (alg : Int64) : Bool := deprecatedAlgs.contains alg

end AllowedAlgs

def keyrefLeads : List String := ["key:ed25519:", "key:p256:"]

/-- A supported key reference with a non-empty body. -/
def isSupportedKeyref (text : String) : Bool :=
  keyrefLeads.any fun lead => startsWith text lead && len lead < len text

section
variable (primitives : Primitives)

/-- The key bytes of a reference `lead` followed by canonical base64url of `size` bytes. -/
def parseKeyref (lead : String) (size : Nat) (wrongLead notCanonical wrongSize keyRef : String) :
    Result Bytes :=
  match strip keyRef lead with
  | none => schemaError wrongLead
  | some rest => do
    let raw ← b64uDecode primitives rest
    if b64uNopad raw ≠ rest then schemaError notCanonical
    else if raw.length ≠ size then schemaError wrongSize
    else .ok raw

def parseEd25519Keyref (keyRef : String) : Result Bytes :=
  parseKeyref primitives "key:ed25519:" 32 "issuer must be key:ed25519:<b64u>"
    "ed25519 keyref is not canonical base64url" "ed25519 pubkey must be 32 bytes" keyRef

def parseP256Keyref (keyRef : String) : Result Bytes :=
  parseKeyref primitives "key:p256:" 64 "issuer must be key:p256:<b64u>"
    "p256 keyref is not canonical base64url" "p256 pubkey must be 64 bytes X||Y" keyRef

end

/-! ## What is signed -/

/-- The default domain separation. -/
def externalAad : Bytes := utf8 "PE1"

def protectedBytes (alg : Int64) (kid : Bytes) : Bytes :=
  let algValue : CborValue := if 0 ≤ alg.toInt then .uint (UInt64.ofNat alg.toInt.toNat) else .nint alg
  encodeCanonical (.map [(.uint 1, algValue), (.uint 4, .bytes kid)])

def sigStructureWithAad (protectedRaw aad payload : Bytes) : Bytes :=
  encodeCanonical (.array [.text "Signature1", .bytes protectedRaw, .bytes aad, .bytes payload])

def sigStructure (protectedRaw payload : Bytes) : Bytes :=
  sigStructureWithAad protectedRaw externalAad payload

/-! ## Parsing -/

structure ParsedSign1 where
  alg : Int64
  kid : Bytes
  payload : Bytes
  signature : Bytes
  protectedRaw : Bytes
  deriving DecidableEq, Repr

def headerError {α : Type} (message : String) : Result α :=
  .error (ErrorCode.unexpectedHeaderParam.err message)

def malformedError {α : Type} (message : String) : Result α :=
  .error (ErrorCode.malformed.err message)

def algFromCbor : CborValue → Result Int64
  | .nint n => .ok n
  | .uint n =>
    if 2 ^ 63 - 1 < n.toNat then .error (ErrorCode.unknownAlgorithm.err "alg out of range")
    else .ok (Int64.ofNat n.toNat)
  | _ => headerError "alg must be int"

def kidFromCbor : CborValue → Result Bytes
  | .bytes b => .ok b
  | _ => headerError "kid must be bstr"

/-- The loop over protected header entries; a later entry replaces an earlier one. -/
def headerFromEntries : (alg : Option Int64) → (kid : Option Bytes) → Entries →
    Result (Option Int64 × Option Bytes)
  | alg, kid, [] => .ok (alg, kid)
  | alg, kid, (key, value) :: entries =>
    if key = .uint 1 then do
      let found ← algFromCbor value
      headerFromEntries (some found) kid entries
    else if key = .uint 4 then do
      let found ← kidFromCbor value
      headerFromEntries alg (some found) entries
    else headerError "only header labels 1 and 4 allowed"

def parseProtected (protectedRaw : Bytes) (limits : Limits) : Result (Int64 × Bytes) := do
  let inner ← decodeStrict protectedRaw limits
  if encodeCanonical inner ≠ protectedRaw then
    .error (ErrorCode.nonCanonical.err "protected header not deterministic")
  else
    match inner with
    | .map pairs =>
      if pairs.length ≠ 2 then headerError "protected must have exactly \x7b1,4\x7d"
      else
        let (alg, kid) ← headerFromEntries none none pairs
        match alg, kid with
        | none, _ => headerError "missing alg (1)"
        | some _, none => headerError "missing kid (4)"
        | some alg, some kid => .ok (alg, kid)
    | _ => malformedError "protected must be map"

def checkKidShape (alg : Int64) (kid : Bytes) : Result Unit :=
  if alg = coseEd25519 ∧ kid.length ≠ 32 then
    .error (ErrorCode.algorithmConfusion.err "Ed25519 kid must be 32 bytes")
  else if alg = coseEsp256 ∧ kid.length ≠ 64 then
    .error (ErrorCode.algorithmConfusion.err "P-256 kid must be 64 bytes X||Y")
  else .ok ()

def protectedFromCbor : CborValue → Result Bytes
  | .bytes b => .ok b
  | _ => malformedError "protected must be bstr"

def checkUnprotected : CborValue → Result Unit
  | .map [] => .ok ()
  | _ => headerError "unprotected header must be empty in V1"

def payloadFromCbor (limits : Limits) : CborValue → Result Bytes
  | .bytes b => if limits.maxProofSize.toNat < b.length then limitError "payload too large" else .ok b
  | _ => malformedError "detached payload (nil) not supported in V1"

def signatureFromCbor (limits : Limits) : CborValue → Result Bytes
  | .bytes b =>
    if limits.maxSigSize.toNat < b.length then limitError "signature exceeds max_sig_size" else .ok b
  | _ => malformedError "signature must be bstr"

/-- Shape of an envelope; no cryptography. -/
def parseSign1 (bytes : Bytes) (limits : Limits) : Result ParsedSign1 := do
  if limits.maxProofSize.toNat < bytes.length then limitError "sign1 exceeds max_proof_size"
  else
    let outer ← decodeStrict bytes limits
    if encodeCanonical outer ≠ bytes then
      .error (ErrorCode.nonCanonical.err "COSE_Sign1 not deterministic")
    else
      match outer with
      | .array [protectedItem, unprotectedItem, payloadItem, signatureItem] =>
        let protectedRaw ← protectedFromCbor protectedItem
        checkUnprotected unprotectedItem
        let payload ← payloadFromCbor limits payloadItem
        let signature ← signatureFromCbor limits signatureItem
        let (alg, kid) ← parseProtected protectedRaw limits
        checkKidShape alg kid
        .ok { alg, kid, payload, signature, protectedRaw }
      | .array _ => malformedError "COSE_Sign1 must have 4 elements"
      | _ => malformedError "COSE_Sign1 must be array"

/-! ## Verification -/

def signatureError {α : Type} (message : String) : Result α :=
  .error (ErrorCode.signatureInvalid.err message)

/-- The operation a deprecated algorithm is verified with, `none` for the others. -/
def historicalOp (allowed : AllowedAlgs) (parsed : ParsedSign1) : Result (Option Int64) :=
  if AllowedAlgs.isDeprecated parsed.alg then
    if !allowed.allowDeprecated then
      .error (ErrorCode.deprecatedAlgorithm.err
        ("deprecated COSE alg " ++ toString parsed.alg.toInt ++ " (use -19/-9)"))
    else if parsed.alg = -8 ∧ parsed.kid.length = 32 then .ok (some coseEd25519)
    else if parsed.alg = -7 ∧ parsed.kid.length = 64 ∧ allowed.esp256 then .ok (some coseEsp256)
    else if parsed.alg = -7 then
      headerError
        "historical ES256 (-7) needs P-256 enabled (with_esp256) plus historical policy"
    else
      .error (ErrorCode.deprecatedAlgorithm.err
        ("deprecated COSE alg " ++ toString parsed.alg.toInt ++
          " has no verifier support (decodable, not verifiable)"))
  else .ok none

def checkAllowed (allowed : AllowedAlgs) (historical : Option Int64) (alg : Int64) : Result Unit :=
  if historical.isNone && !allowed.isAllowed alg then
    if alg = coseEd25519 ∨ alg = coseEsp256 then
      headerError ("alg " ++ toString alg.toInt ++ " not allowed by verifier policy")
    else .error (ErrorCode.unknownAlgorithm.err ("unknown COSE alg " ++ toString alg.toInt))
  else .ok ()

section
variable (primitives : Primitives)

/-- An error whose text a library supplies. -/
def liftError (code : ErrorCode) (lead : String) : Option String → Result Unit
  | none => .ok ()
  | some text => .error (code.err (lead ++ text))

def verifyEd25519 (issuer : String) (parsed : ParsedSign1) (aad : Bytes) : Result Unit := do
  let expect ← parseEd25519Keyref primitives issuer
  if expect ≠ parsed.kid then signatureError "kid does not match issuer key"
  else
    liftError .malformed "bad ed25519 key: " (primitives.ed25519KeyError expect)
    if parsed.signature.length ≠ 64 then signatureError "bad ed25519 sig length"
    else if primitives.ed25519Verify expect
        (sigStructureWithAad parsed.protectedRaw aad parsed.payload) parsed.signature then .ok ()
    else signatureError "Ed25519 verification failed"

def p256VerifyKey (xy : Bytes) : Result Unit := do
  liftError .malformed "bad p256 point: " (primitives.p256PointError (0x04 :: xy))
  liftError .malformed "bad p256 key: " (primitives.p256KeyError (0x04 :: xy))

def verifyEsp256 (issuer : String) (parsed : ParsedSign1) (aad : Bytes) : Result Unit := do
  let expect ← parseP256Keyref primitives issuer
  if expect ≠ parsed.kid then signatureError "kid does not match issuer key"
  else
    p256VerifyKey primitives expect
    liftError .signatureInvalid "bad p256 signature: " (primitives.p256SignatureError parsed.signature)
    if primitives.p256Verify expect
        (sigStructureWithAad parsed.protectedRaw aad parsed.payload) parsed.signature then .ok ()
    else signatureError "ESP256 verification failed"

/-- Key binding and signature check with operation `op`. -/
def verifyOp (op : Int64) (issuer : String) (parsed : ParsedSign1) (aad : Bytes) : Result Unit :=
  if op = coseEd25519 then verifyEd25519 primitives issuer parsed aad
  else if op = coseEsp256 then verifyEsp256 primitives issuer parsed aad
  else .error (ErrorCode.unknownAlgorithm.err "unreachable")

def verifySign1WithAad (bytes : Bytes) (expectedIssuer : String) (allowed : AllowedAlgs)
    (limits : Limits) (aad : Bytes) : Result ParsedSign1 := do
  if 1024 < aad.length then limitError "external_aad exceeds 1KiB"
  else
    let parsed ← parseSign1 bytes limits
    let historical ← historicalOp allowed parsed
    checkAllowed allowed historical parsed.alg
    if parsed.signature.length ≠ 64 then signatureError "signature must be 64 bytes"
    else
      verifyOp primitives (historical.getD parsed.alg) expectedIssuer parsed aad
      .ok parsed

def verifySign1 (bytes : Bytes) (expectedIssuer : String) (allowed : AllowedAlgs) (limits : Limits) :
    Result ParsedSign1 :=
  verifySign1WithAad primitives bytes expectedIssuer allowed limits externalAad

end

end ProofEngine
