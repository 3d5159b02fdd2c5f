import ProofEngine.Crypto.Claim
import ProofEngine.Crypto.Cose
import ProofEngine.Lib.Hex

/-! # SCITT statements

A statement in its canonical JSON form, the digest of that form and the detached signature over it.  How the JSON
library quotes a text is a parameter; the layout around the texts is that of the record. -/

namespace ProofEngine

open Text

structure ScittStatement where
  v : UInt8
  feed : String
  cti : String
  payloadSha256 : String
  issuedAt : UInt64
  kid : String
  deriving DecidableEq, Repr

/-- A statement with a detached signature over its canonical JSON. -/
structure SignedStatement where
  statement : ScittStatement
  signatureB64u : String
  deriving DecidableEq, Repr

namespace Scitt

def isAsciiUppercase (byte : UInt8) : Bool := 65 ≤ byte && byte ≤ 90

/-- Hexadecimal text in lower case. -/
def hexDecode (text : String) : Option Bytes :=
  if len text % 2 ≠ 0 || !(utf8 text).all isAsciiHexdigit then none
  else if (utf8 text).any isAsciiUppercase then none
  else Hex.decode text

/-- The value of a base64url symbol. -/
def symbolValue (char : Char) : Option Nat :=
  if 'A' ≤ char ∧ char ≤ 'Z' then some (char.toNat - 'A'.toNat)
  else if 'a' ≤ char ∧ char ≤ 'z' then some (char.toNat - 'a'.toNat + 26)
  else if '0' ≤ char ∧ char ≤ '9' then some (char.toNat - '0'.toNat + 52)
  else if char = '-' then some 62
  else if char = '_' then some 63
  else none

/-- The bytes of symbols after `bits` pending bits with the value `buf`; what is left at the end must be zero. -/
def decodeSymbols : (buf bits : Nat) → List Char → Option Bytes
  | buf, bits, [] => if 0 < bits ∧ buf ≠ 0 then none else some []
  | buf, bits, char :: chars => do
    let value ← symbolValue char
    let filled := buf * 64 + value
    let count := bits + 6
    if 8 ≤ count then
      let left := count - 8
      let bytes ← decodeSymbols (filled % 2 ^ left) left chars
      some (UInt8.ofNat (filled / 2 ^ left) :: bytes)
    else decodeSymbols filled count chars

/-- Base64url without padding; a single left-over symbol passes where it is zero. -/
def b64uDecode (text : String) : Option Bytes := decodeSymbols 0 0 text.toList

end Scitt

/-! ## Canonical form -/

namespace ScittStatement

def validate (statement : ScittStatement) : Result Unit :=
  if statement.v ≠ 1 then .error (ErrorCode.unsupportedVersion.err "scitt statement v must be 1")
  else if statement.feed.isEmpty || 128 < len statement.feed then schemaError "scitt feed length out of bounds"
  else if statement.cti.isEmpty || 256 < len statement.cti then schemaError "scitt cti length out of bounds"
  else
    match Scitt.hexDecode statement.payloadSha256 with
    | none => schemaError "scitt payload_sha256 must be lowercase hex"
    | some raw =>
      if raw.length ≠ 32 then schemaError "scitt payload_sha256 must be 32 bytes"
      else if statement.kid.isEmpty then schemaError "scitt kid must not be empty"
      else .ok ()

def subject (statement : ScittStatement) : String := "scitt:" ++ statement.feed ++ ":" ++ statement.cti

section
-- a text as the JSON library writes it, with its quotes
variable (quoted : String → String)

/-- The members of the record in the order of its declaration, without white space. -/
def jsonParts (statement : ScittStatement) : List String :=
  ["\x7b\"v\":", toString statement.v.toNat, ",\"feed\":", quoted statement.feed, ",\"cti\":",
   quoted statement.cti, ",\"payload_sha256\":", quoted statement.payloadSha256, ",\"issued_at\":",
   toString statement.issuedAt.toNat, ",\"kid\":", quoted statement.kid, "\x7d"]

def toJson (statement : ScittStatement) : String :=
  String.ofList ((statement.jsonParts quoted).flatMap String.toList)

def canonicalJson (statement : ScittStatement) : Result Bytes := do
  statement.validate
  .ok (utf8 (statement.toJson quoted))

variable (primitives : Primitives)

/-- What survives the mapping: the hash of the canonical JSON. -/
def digest (statement : ScittStatement) : Result Bytes := do
  let bytes ← statement.canonicalJson quoted
  .ok (primitives.sha256 bytes).1

end

end ScittStatement

/-! ## Signatures -/

section
variable (quoted : String → String) (primitives : Primitives)

namespace Scitt

def verifyEd25519 (pubkey message signature : Bytes) : Result Unit := do
  liftError .malformed "scitt kid pubkey invalid: " (primitives.ed25519KeyError pubkey)
  if primitives.ed25519Verify pubkey message signature then .ok ()
  else signatureError "scitt statement signature invalid"

end Scitt

/-- The statement, if its key signed it. -/
def SignedStatement.verify (signed : SignedStatement) : Result ScittStatement := do
  let statement := signed.statement
  statement.validate
  if !isSupportedKeyref statement.kid then
    schemaError "scitt kid is not a verifiable key:* keyref (x5chain/did out of adapter scope)"
  else
    let bytes ← statement.canonicalJson quoted
    match Scitt.b64uDecode signed.signatureB64u with
    | none => schemaError "scitt signature must be base64url"
    | some signature =>
      if signature.length ≠ 64 then signatureError "scitt signature must be 64 bytes"
      else
        let raw ← parseEd25519Keyref primitives statement.kid
        Scitt.verifyEd25519 primitives raw bytes signature
        .ok statement

end

section
variable {quoted : String → String} {primitives : Primitives} {statement : ScittStatement}

theorem verify_eq_ok {signed : SignedStatement} (verified : signed.verify quoted primitives = .ok statement) :
    statement = signed.statement ∧ statement.validate = .ok () := by
  simp only [SignedStatement.verify, bind_eq_ok] at verified
  obtain ⟨_, valid, verified⟩ := verified
  split at verified
  · cases verified
  · simp only [bind_eq_ok] at verified
    obtain ⟨bytes, _, verified⟩ := verified
    split at verified
    · cases verified
    · split at verified
      · cases verified
      · simp only [bind_eq_ok] at verified
        obtain ⟨_, _, _, _, verified⟩ := verified
        cases verified
        exact ⟨rfl, valid⟩

theorem version_of_validate (valid : statement.validate = .ok ()) : statement.v = 1 := by
  rw [ScittStatement.validate] at valid
  split at valid
  · cases valid
  · rename_i version
    exact not_not.mp version

/-- The time of a statement does not count for its shape. -/
theorem validate_at (time : UInt64) : { statement with issuedAt := time }.validate = statement.validate := rfl

/-- Nothing but the time tells the JSON of two statements apart that differ only in it. -/
theorem toJson_at_inj {time : UInt64}
    (same : { statement with issuedAt := time }.toJson quoted = statement.toJson quoted) :
    time = statement.issuedAt := by
  have texts := String.ofList_injective same
  simp only [ScittStatement.jsonParts, List.flatMap_cons, List.append_cancel_left_eq, List.append_cancel_right_eq,
    Nat.toString_eq_repr, Nat.toList_repr] at texts
  have values := congrArg (Nat.ofDigitChars 10 · 0) texts
  simp only [Nat.ofDigitChars_toDigits (show 1 < 10 by decide) (le_refl 10)] at values
  exact UInt64.toNat_inj.mp values

end

end ProofEngine
