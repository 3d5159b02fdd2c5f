import ProofEngine.Crypto.Id
import ProofEngine.Lib.Lowercase

/-! # Status claims

`revoke`, `supersede`, `withdraw` and `compromise` are the claim types with lifecycle
semantics; every other type is a plain statement. -/

namespace ProofEngine

open Text

inductive ClaimKind where
  | statement
  | revoke
  | supersede
  | withdraw
  | compromise
  deriving DecidableEq, Repr

def ClaimKind.isStatus : ClaimKind → Bool
  | .statement => false
  | _ => true

namespace ClaimType

def revoke : String := "revoke"
def supersede : String := "supersede"
def withdraw : String := "withdraw"
def compromise : String := "compromise"
def delegate : String := "delegate"
def identityBind : String := "identity.bind"
def transparencyCheckpoint : String := "transparency.checkpoint"

end ClaimType

namespace ClaimField

def denies : String := "denies"
def evidenceDigest : String := "evidence_digest"

end ClaimField

def claimKind (content : AttestationContent) : ClaimKind :=
  if content.claim.claimType = ClaimType.revoke then .revoke
  else if content.claim.claimType = ClaimType.supersede then .supersede
  else if content.claim.claimType = ClaimType.withdraw then .withdraw
  else if content.claim.claimType = ClaimType.compromise then .compromise
  else .statement

/-- The first field `key` that is text; other values under that key are passed over. -/
def claimText (claim : Claim) (key : String) : Option String :=
  claim.fields.findSome? fun field =>
    if field.1 = key then
      match field.2 with
      | .text s => some s
      | _ => none
    else none

/-- The first field `key` that is an unsigned integer. -/
def claimUint (claim : Claim) (key : String) : Option UInt64 :=
  claim.fields.findSome? fun field =>
    if field.1 = key then
      match field.2 with
      | .uint n => some n
      | _ => none
    else none

def revocationTarget (content : AttestationContent) : Result String :=
  if claimKind content ≠ .revoke then schemaError "revoke claim expected (claim.type=\"revoke\")"
  else
    match claimText content.claim "target" with
    | none => schemaError "revoke claim missing text field target"
    | some target =>
      if target.isEmpty then schemaError "revoke claim target must not be empty"
      else if !startsWith target "att:v1:" then
        schemaError ("revoke target " ++ target ++ " must start with att:v1:")
      else .ok target

def withdrawalTarget (content : AttestationContent) : Result String :=
  if claimKind content ≠ .withdraw then schemaError "withdraw claim expected (claim.type=\"withdraw\")"
  else
    match claimText content.claim "target" with
    | none => schemaError "withdraw claim missing text field target"
    | some target =>
      if target.isEmpty then schemaError "withdraw claim target must not be empty"
      else
        let shaped := ["evt:v", "att:v", "evd:v", "rel:v", "prf:v"].any (startsWith target)
        if !shaped || !target.toList.contains ':' then
          schemaError ("withdraw target " ++ target ++
            " must be a shaped artifact id (evt:/att:/evd:/rel:/prf:)")
        else .ok target

/-- The marked identity or artifact and the instant of compromise. -/
def compromiseMark (content : AttestationContent) : Result (String × UInt64) :=
  if claimKind content ≠ .compromise then
    schemaError "compromise claim expected (claim.type=\"compromise\")"
  else
    match claimText content.claim "target" with
    | none => schemaError "compromise claim missing text field target"
    | some target =>
      if target.isEmpty then schemaError "compromise claim target must not be empty"
      else if !(["key:", "att:v", "evt:v", "evd:v", "rel:v", "did:"].any (startsWith target)) then
        schemaError ("compromise target " ++ target ++ " must be a keyref or shaped id")
      else
        match claimUint content.claim "at_time" with
        | none => schemaError "compromise claim missing uint field at_time"
        | some atTime => .ok (target, atTime)

def denialTarget (content : AttestationContent) : Option String :=
  claimText content.claim ClaimField.denies

/-- The superseded and the superseding id. -/
def supersessionPair (content : AttestationContent) : Result (String × String) :=
  if claimKind content ≠ .supersede then
    schemaError "supersede claim expected (claim.type=\"supersede\")"
  else
    match claimText content.claim "old" with
    | none => schemaError "supersede claim missing text field old"
    | some old =>
      match claimText content.claim "new" with
      | none => schemaError "supersede claim missing text field new"
      | some new =>
        if old.isEmpty || new.isEmpty then schemaError "supersede old/new must not be empty"
        else if old = new then schemaError "supersede old == new"
        else if !startsWith old "att:v1:" then
          schemaError ("supersede old " ++ old ++ " must start with att:v1:")
        else if !startsWith new "att:v1:" then
          schemaError ("supersede new " ++ new ++ " must start with att:v1:")
        else .ok (old, new)

/-! ## Asserted evidence digests -/

/-- Why an asserted `evidence_digest` is unusable. -/
inductive DigestClaimError where
  | nonText
  | malformed (len : Nat)
  deriving DecidableEq, Repr

def isAsciiHexdigit (byte : UInt8) : Bool :=
  (48 ≤ byte && byte ≤ 57) || (65 ≤ byte && byte ≤ 70) || (97 ≤ byte && byte ≤ 102)

def normalizeDigest (text : String) : String :=
  toLowercase (((strip text "0x").or (strip text "0X")).getD text)

/-- The digest of the first `evidence_digest` field, in lower case; `none` when there is none. -/
def evidenceDigestHex (claim : Claim) : Option (Except DigestClaimError String) :=
  match claim.fields.find? fun field => field.1 = ClaimField.evidenceDigest with
  | none => none
  | some (_, .text s) =>
    let normalized := normalizeDigest s
    if (len normalized = 64 ∨ len normalized = 96) ∧ (utf8 normalized).all isAsciiHexdigit then
      some (.ok normalized)
    else some (.error (.malformed (len normalized)))
  | some _ => some (.error .nonText)

end ProofEngine
