import ProofEngine.Crypto.Envelope
import ProofEngine.Scitt.Statement

/-! # Mapping SCITT statements

A verified statement becomes the content of an attestation, and that content is turned back into the JSON of the
statement.  The time of the attestation is the caller's, the time of the statement is not carried apart from it:
the way back finds the statement exactly when the two are one. -/

namespace ProofEngine

open Text

def claimScittStatement : String := "scitt.statement"

section
variable (quoted : String → String) (primitives : Primitives)

/-! ## Inbound -/

/-- A statement under its digest, attested at the caller's time. -/
def mappedContent (statement : ScittStatement) (digest : Bytes) (issuedAt : UInt64) (expiresAt : Option UInt64) :
    AttestationContent where
  v := 1
  issuer := statement.kid
  subject := statement.subject
  claim :=
    { claimType := claimScittStatement
      -- in key order
      fields :=
        [("cti", .text statement.cti), ("feed", .text statement.feed),
         ("payload_sha256", .text statement.payloadSha256), ("statement_digest", .text (Hex.encode digest))] }
  issuedAt := issuedAt
  expiresAt := expiresAt
  evidenceRef := none

/-- The content of the statement attestation; limits do not count before it is signed. -/
def statementContent (signed : SignedStatement) (issuedAt : UInt64) (expiresAt : Option UInt64) (_limits : Limits) :
    Result AttestationContent := do
  let statement ← signed.verify quoted primitives
  let digest ← statement.digest quoted primitives
  .ok (mappedContent statement digest issuedAt expiresAt)

/-! ## Outbound -/

/-- The first field of that name, which must be text. -/
def scittField (content : AttestationContent) (name : String) : Result String :=
  match content.claim.fields.find? fun field => field.1 = name with
  | some (_, .text t) => .ok t
  | _ => schemaError ("scitt.statement lacks text field " ++ name)

/-- The JSON of a rebuilt statement, which must have the stated digest and the subject of the adapter. -/
def checkedJson (statement : ScittStatement) (stated subject : String) : Result Bytes := do
  let digest ← statement.digest quoted primitives
  if stated ≠ Hex.encode digest then
    schemaError "scitt.statement digest field does not match recomputed digest"
  else if subject ≠ statement.subject then schemaError "subject does not match scitt feed/cti convention"
  else statement.canonicalJson quoted

def statementJson (content : AttestationContent) : Result Bytes :=
  if content.claim.claimType ≠ claimScittStatement then
    schemaError "only scitt.statement claims map back to SCITT JSON"
  else do
    let feed ← scittField content "feed"
    let cti ← scittField content "cti"
    let payloadSha256 ← scittField content "payload_sha256"
    let stated ← scittField content "statement_digest"
    let statement : ScittStatement :=
      { v := 1, feed, cti, payloadSha256, issuedAt := content.issuedAt, kid := content.issuer }
    checkedJson quoted primitives statement stated content.subject

end

/-! ## There and back -/

section
variable {quoted : String → String} {primitives : Primitives} {statement : ScittStatement}

theorem canonicalJson_of_valid (valid : statement.validate = .ok ()) :
    statement.canonicalJson quoted = .ok (utf8 (statement.toJson quoted)) := by
  rw [ScittStatement.canonicalJson, valid, ok_bind]

theorem digest_of_valid (valid : statement.validate = .ok ()) :
    statement.digest quoted primitives = .ok (primitives.sha256 (utf8 (statement.toJson quoted))).1 := by
  rw [ScittStatement.digest, canonicalJson_of_valid valid, ok_bind]

/-- The way back reads the statement at the time of the attestation, under the digest it was mapped with. -/
theorem statementJson_mappedContent {digest : Bytes} {issuedAt : UInt64} {expiresAt : Option UInt64}
    (valid : statement.validate = .ok ()) :
    statementJson quoted primitives (mappedContent statement digest issuedAt expiresAt) =
      if Hex.encode digest ≠
          Hex.encode (primitives.sha256 (utf8 ({ statement with issuedAt }.toJson quoted))).1 then
        schemaError "scitt.statement digest field does not match recomputed digest"
      else .ok (utf8 ({ statement with issuedAt }.toJson quoted)) := by
  have again : ({ statement with issuedAt } : ScittStatement).validate = .ok () := (validate_at issuedAt).trans valid
  have rebuilt : statementJson quoted primitives (mappedContent statement digest issuedAt expiresAt) =
      checkedJson quoted primitives { statement with issuedAt } (Hex.encode digest) statement.subject := by
    rw [version_of_validate valid]
    rfl
  have about : statement.subject = ScittStatement.subject { statement with issuedAt } := rfl
  rw [rebuilt, checkedJson, digest_of_valid again, ok_bind]
  split
  · rfl
  · rw [if_neg (not_not.mpr about)]
    exact canonicalJson_of_valid again

end

/-- A verified statement is mapped at any time, and its canonical JSON comes back exactly when the attestation was
    given the statement's own time. -/
theorem statementJson_inverts_iff (quoted : String → String) (primitives : Primitives) (signed : SignedStatement)
    (statement : ScittStatement) (verified : signed.verify quoted primitives = .ok statement) (issuedAt : UInt64)
    (expiresAt : Option UInt64) (limits : Limits) :
    ∃ content bytes, statementContent quoted primitives signed issuedAt expiresAt limits = .ok content ∧
      statement.canonicalJson quoted = .ok bytes ∧
      (statementJson quoted primitives content = .ok bytes ↔ issuedAt = statement.issuedAt) := by
  obtain ⟨_, valid⟩ := verify_eq_ok verified
  refine ⟨mappedContent statement (primitives.sha256 (utf8 (statement.toJson quoted))).1 issuedAt expiresAt, _, ?_,
    canonicalJson_of_valid valid, ?_⟩
  · rw [statementContent, verified, ok_bind, digest_of_valid valid, ok_bind]
  · rw [statementJson_mappedContent valid]
    constructor
    · intro back
      split at back
      · cases back
      · -- with a colliding digest the bytes would still show the other time
        exact toJson_at_inj (utf8_injective (Except.ok.inj back))
    · rintro rfl
      rw [if_neg (not_not.mpr rfl)]

/-! ## A firmware release -/

/-- Texts without characters that need an escape. -/
def plainlyQuoted (text : String) : String := "\"" ++ text ++ "\""

def firmwareStatement (issuedAt : UInt64) : ScittStatement where
  v := 1
  feed := "firmware-releases"
  cti := "0123456789abcdef0123456789abcdef0123456789abcdef0123456789abcdef"
  payloadSha256 := "e3b0c44298fc1c149afbf4c8996fb92427ae41e4649b934ca495991b7852b855"
  issuedAt := issuedAt
  kid := testIssuer

def firmwareJson (issuedAt : UInt64) : Bytes := utf8 ((firmwareStatement issuedAt).toJson plainlyQuoted)

def firmwareDigest : Bytes :=
  [0xf0, 0x74, 0xa1, 0x57, 0xbb, 0xfd, 0x56, 0x7a, 0xeb, 0x7b, 0xaa, 0x33, 0xb6, 0x96, 0x65, 0x4d,
   0x15, 0xc2, 0x23, 0x16, 0xd0, 0xc1, 0x3d, 0x6c, 0xbc, 0xb8, 0x04, 0x64, 0x2a, 0xbe, 0x0d, 0x3a]

/-- The digest of the same statement a hundred seconds later. -/
def laterFirmwareDigest : Bytes :=
  [0xd8, 0x19, 0x5a, 0x87, 0xea, 0x08, 0xf4, 0x64, 0xf4, 0x76, 0xf3, 0x30, 0xee, 0x55, 0x0a, 0x42,
   0xb2, 0x94, 0xd7, 0x56, 0x8a, 0xe0, 0xb4, 0xb1, 0xda, 0x8a, 0x7e, 0x67, 0xda, 0xe5, 0x6d, 0x9b]

def firmwareSignature : Bytes :=
  [0x57, 0x72, 0x24, 0xca, 0x71, 0x18, 0x20, 0x8d, 0xe1, 0xb3, 0x98, 0x5e, 0x40, 0x90, 0xb0, 0xa3,
   0x0e, 0x39, 0x35, 0x20, 0x7b, 0xbf, 0xbc, 0xa5, 0x60, 0xba, 0xe7, 0x7f, 0x2f, 0x19, 0xf6, 0xba,
   0xef, 0x09, 0xae, 0xa4, 0xd0, 0x6a, 0x94, 0x55, 0x23, 0x2b, 0xb0, 0x5b, 0x9c, 0x5a, 0xef, 0xc1,
   0x9e, 0x10, 0xb3, 0x40, 0x09, 0x79, 0x99, 0xcc, 0x41, 0xf3, 0xcf, 0x22, 0xe5, 0x1b, 0x2f, 0x08]

def firmwarePrimitives : Primitives :=
  Primitives.ofTable
    [(firmwareJson 1700000000, firmwareDigest), (firmwareJson 1700000100, laterFirmwareDigest)]
    [(testKey, firmwareJson 1700000000, firmwareSignature)]

def signedFirmware : SignedStatement where
  statement := firmwareStatement 1700000000
  signatureB64u := "V3IkynEYII3hs5heQJCwow45NSB7v7ylYLrnfy8Z9rrvCa6k0GqUVSMrsFucWu_BnhCzQAl5mcxB888i5RsvCA"

theorem firmwareStatement_valid (issuedAt : UInt64) : (firmwareStatement issuedAt).validate = .ok () :=
  (validate_at issuedAt).trans (by decide +kernel : (firmwareStatement 0).validate = .ok ())

/-- The time of a release is in its JSON. -/
theorem firmwareJson_inj {issuedAt time : UInt64} (same : firmwareJson time = firmwareJson issuedAt) :
    time = issuedAt :=
  @toJson_at_inj plainlyQuoted (firmwareStatement issuedAt) time (utf8_injective same)

theorem firmwarePrimitives_digests :
    (firmwarePrimitives.sha256 (firmwareJson 1700000000)).1 = firmwareDigest ∧
      (firmwarePrimitives.sha256 (firmwareJson 1700000100)).1 = laterFirmwareDigest := by
  have other : (firmwareJson 1700000100 == firmwareJson 1700000000) = false :=
    beq_eq_false_iff_ne.mpr fun same => absurd (firmwareJson_inj same) (by decide)
  rw [firmwarePrimitives]
  constructor
  · refine Primitives.ofTable_sha256 ?_ rfl
    rw [List.lookup_cons_self]
  · refine Primitives.ofTable_sha256 ?_ rfl
    rw [List.lookup_cons, other, List.lookup_cons_self]

theorem signedFirmware_verifies :
    signedFirmware.verify plainlyQuoted firmwarePrimitives = .ok (firmwareStatement 1700000000) := by
  have supported : isSupportedKeyref testIssuer = true := by decide +kernel
  have decoded : Scitt.b64uDecode signedFirmware.signatureB64u = some firmwareSignature := by decide +kernel
  have size : firmwareSignature.length = 64 := rfl
  have genuine : firmwarePrimitives.ed25519Verify testKey (firmwareJson 1700000000) firmwareSignature = true := by
    simp [firmwarePrimitives, Primitives.ofTable]
  have signed : Scitt.verifyEd25519 firmwarePrimitives testKey (firmwareJson 1700000000) firmwareSignature =
      .ok () := by
    rw [Scitt.verifyEd25519, if_pos genuine]
    rfl
  have written : (firmwareStatement 1700000000).canonicalJson plainlyQuoted = .ok (firmwareJson 1700000000) :=
    canonicalJson_of_valid (firmwareStatement_valid 1700000000)
  have keyed : parseEd25519Keyref firmwarePrimitives (firmwareStatement 1700000000).kid = .ok testKey :=
    parseEd25519Keyref_testIssuer
  rw [SignedStatement.verify, decoded]
  simp only [signedFirmware, firmwareStatement_valid, ok_bind, written, keyed, signed, size]
  simp [firmwareStatement, supported]

/-- Attested at its own time, the release comes back. -/
theorem firmware_inverts :
    ∃ content bytes, statementContent plainlyQuoted firmwarePrimitives signedFirmware 1700000000 none Limits.default =
        .ok content ∧
      (firmwareStatement 1700000000).canonicalJson plainlyQuoted = .ok bytes ∧
      statementJson plainlyQuoted firmwarePrimitives content = .ok bytes := by
  obtain ⟨content, bytes, mapped, written, back⟩ := statementJson_inverts_iff plainlyQuoted firmwarePrimitives
    signedFirmware _ signedFirmware_verifies 1700000000 none Limits.default
  exact ⟨content, bytes, mapped, written, back.mpr rfl⟩

/-- Attested a hundred seconds later, it is refused on the way back. -/
theorem laterFirmware_refused :
    signedFirmware.verify plainlyQuoted firmwarePrimitives = .ok (firmwareStatement 1700000000) ∧
      ∃ content, statementContent plainlyQuoted firmwarePrimitives signedFirmware 1700000100 none Limits.default =
          .ok content ∧
        statementJson plainlyQuoted firmwarePrimitives content =
          schemaError "scitt.statement digest field does not match recomputed digest" := by
  obtain ⟨digest, laterDigest⟩ := firmwarePrimitives_digests
  have valid := firmwareStatement_valid 1700000000
  have json (issuedAt : UInt64) :
      utf8 ((firmwareStatement issuedAt).toJson plainlyQuoted) = firmwareJson issuedAt := rfl
  have later : ({ firmwareStatement 1700000000 with issuedAt := 1700000100 } : ScittStatement) =
      firmwareStatement 1700000100 := rfl
  refine ⟨signedFirmware_verifies, mappedContent (firmwareStatement 1700000000) firmwareDigest 1700000100 none, ?_, ?_⟩
  · rw [statementContent, signedFirmware_verifies, ok_bind, digest_of_valid valid, ok_bind, json, digest]
  · rw [statementJson_mappedContent valid, later, json, laterDigest]
    exact if_pos (by decide +kernel)

end ProofEngine
