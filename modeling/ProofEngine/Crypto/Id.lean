import ProofEngine.Format.CborCanonical
import ProofEngine.Format.Schema

/-! # Primitives and object ids

The cryptographic libraries are parameters: a hash with 32-byte digests, the two signature
checks and the texts of their errors.  Ids are `kind:v1:` followed by the base64url digest of
canonical bytes. -/

namespace ProofEngine

open StableSort Text

/-- The third-party code the engine calls. -/
structure Primitives where
  sha256 : Bytes → { digest : Bytes // digest.length = 32 }
  /-- Why 32 bytes are no Ed25519 public key, if they are none. -/
  ed25519KeyError : (key : Bytes) → Option String
  ed25519Verify : (key message signature : Bytes) → Bool
  /-- Why 65 bytes are no encoded curve point, if they are none. -/
  p256PointError : (point : Bytes) → Option String
  p256KeyError : (point : Bytes) → Option String
  p256SignatureError : (signature : Bytes) → Option String
  p256Verify : (key message signature : Bytes) → Bool
  /-- The decoder's message for text that is not base64url. -/
  base64Error : String → String

def b64uNopad (data : Bytes) : String := Base64Url.encode data

section
variable (primitives : Primitives)

def b64uDecode (text : String) : Result Bytes :=
  match Base64Url.decode text with
  | some bytes => .ok bytes
  | none => .error (ErrorCode.invalidBase64Url.err ("bad base64url: " ++ primitives.base64Error text))

def idWith (kind : String) (canonical : Bytes) : String :=
  kind ++ ":v1:" ++ b64uNopad (primitives.sha256 canonical).1

def eventId (canonical : Bytes) : String := idWith primitives IdKind.event canonical

def attestationId (canonical : Bytes) : String := idWith primitives IdKind.attestation canonical

def evidenceId (canonical : Bytes) : String := idWith primitives IdKind.evidence canonical

def relationshipId (canonical : Bytes) : String := idWith primitives IdKind.rel canonical

/-- An id list in ascending order. -/
def sortedIds (ids : List String) : CborValue := .array ((sortOn utf8 ids).map .text)

/-- The terms a proof id binds; empty reference and vocabulary lists leave no trace. -/
def bindingFields (proposition : CborValue) (createdAt : UInt64)
    (eventIds attestationIds evidenceIds relationshipIds referencedProofs : List String)
    (vocabularies : List VocabularyDecl) : List (String × CborValue) :=
  [("attestations", sortedIds attestationIds),
   ("created_at", .uint createdAt),
   ("events", sortedIds eventIds),
   ("evidence", sortedIds evidenceIds),
   ("relationships", sortedIds relationshipIds),
   ("proposition", proposition),
   ("v", .uint 1)]
  ++ (if referencedProofs.isEmpty then [] else [("referenced_proofs", sortedIds referencedProofs)])
  ++ (if vocabularies.isEmpty then []
      else [("vocabularies",
        .array ((sortOn (fun declared => utf8 declared.ns) vocabularies).map vocabularyToCbor))])

/-- What a proof id is the hash of. -/
def proofBinding (proposition : CborValue) (createdAt : UInt64)
    (eventIds attestationIds evidenceIds relationshipIds referencedProofs : List String)
    (vocabularies : List VocabularyDecl) : CborValue :=
  record (bindingFields proposition createdAt eventIds attestationIds evidenceIds relationshipIds
    referencedProofs vocabularies)

def proofIdFull (proposition : CborValue) (createdAt : UInt64)
    (eventIds attestationIds evidenceIds relationshipIds referencedProofs : List String)
    (vocabularies : List VocabularyDecl) : String :=
  idWith primitives IdKind.proof (encodeCanonical (proofBinding proposition createdAt eventIds
    attestationIds evidenceIds relationshipIds referencedProofs vocabularies))

/-- The naming check of a composition reference with the crypto layer's decoder errors. -/
def checkProofRefShape (id : String) : Result Unit :=
  match strip id "prf:v1:" with
  | none => schemaError "referenced proof id must start with prf:v1:"
  | some rest => do
    let raw ← b64uDecode primitives rest
    if b64uNopad raw ≠ rest then schemaError "referenced proof id is not canonical base64url"
    else if raw.length ≠ 32 then schemaError "referenced proof id digest must be 32 bytes"
    else .ok ()

def verifyId (kind id : String) (canonical : Bytes) : Result Unit :=
  match strip id (kind ++ ":v1:") with
  | none => .error (ErrorCode.idMismatch.err ("id prefix mismatch for " ++ kind))
  | some rest => do
    let raw ← b64uDecode primitives rest
    if b64uNopad raw ≠ rest then
      .error (ErrorCode.idMismatch.err "id is not canonical base64url (pad bits?)")
    else if raw.length ≠ 32 then .error (ErrorCode.idMismatch.err "id digest must be 32 bytes (sha-256)")
    else if raw ≠ (primitives.sha256 canonical).1 then
      .error (ErrorCode.idMismatch.err "id digest mismatch (tamper?)")
    else .ok ()

end

/-! ## Ids bind bytes -/

section
variable {primitives : Primitives}

theorem string_append_right_inj {lead left right : String} (same : lead ++ left = lead ++ right) :
    left = right := by
  have := congrArg String.toList same
  simpa [String.toList_inj] using this

/-- Equal ids of one kind have equal digests. -/
theorem idWith_inj {kind : String} {left right : Bytes}
    (same : idWith primitives kind left = idWith primitives kind right) :
    primitives.sha256 left = primitives.sha256 right := by
  have texts := string_append_right_inj same
  exact Subtype.ext (Base64Url.encode_injective texts)

end

end ProofEngine
