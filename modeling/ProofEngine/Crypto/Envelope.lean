import ProofEngine.Crypto.Build
import ProofEngine.Lib.Hex

/-! # Artifact envelopes

The transport envelope carries canonical bytes as hex, an id and, for attestations and status
objects, a COSE_Sign1.  Id and signature are checked against the bytes; whether the signature is
over these bytes is a relation between two fields of the envelope. -/

namespace ProofEngine

open Text CborValue

inductive ArtifactKind where
  | event
  | attestation
  | evidence
  | relationship
  | proof
  | status
  deriving DecidableEq, Repr

def containerVersion : UInt32 := 1

structure ArtifactEnvelope where
  containerVersion : UInt32
  kind : ArtifactKind
  id : String
  cborHex : String
  sign1B64u : Option String
  deriving DecidableEq, Repr

def ArtifactEnvelope.new (kind : ArtifactKind) (id : String) (cbor : Bytes) (sign1B64u : Option String) :
    ArtifactEnvelope :=
  { containerVersion := ProofEngine.containerVersion, kind, id, cborHex := Hex.encode cbor, sign1B64u }

def ArtifactEnvelope.cborBytes (envelope : ArtifactEnvelope) (limits : Limits) : Result Bytes :=
  match Hex.decode (trim envelope.cborHex) with
  | none => malformedError "envelope cbor_hex is not hex"
  | some raw =>
    if limits.maxProofSize.toNat < raw.length then limitError "envelope cbor exceeds max_proof_size"
    else if raw.isEmpty then malformedError "envelope cbor is empty"
    else .ok raw

section
variable (primitives : Primitives)

/-! ## Member ids -/

def eventMemberId (event : EventContent) : Result String := do
  let encoded ← eventToCbor event
  .ok (eventId primitives (encodeCanonical encoded))

def attestationMemberId (content : AttestationContent) : String :=
  attestationId primitives (encodeCanonical (attestationToCbor content))

def evidenceMemberId (evidence : Evidence) : String :=
  evidenceId primitives (encodeCanonical (evidenceToCbor evidence))

def relationshipMemberId (relationship : Relationship) : String :=
  relationshipId primitives (encodeCanonical (relationshipToCbor relationship))

/-- Ids of events, attestations, evidence and relationships, in that order. -/
def memberIdSets (proof : Proof) : Result (List String × List String × List String × List String) := do
  let eventIds ← proof.events.mapM (eventMemberId primitives)
  .ok (eventIds, proof.attestations.map fun stored => attestationMemberId primitives stored.content,
    proof.evidence.map (evidenceMemberId primitives),
    proof.relationships.map (relationshipMemberId primitives))

/-- The id of an enveloped proof. -/
def envelopeProofId (proof : Proof) : Result String := do
  let (eventIds, attestationIds, evidenceIds, relationshipIds) ← memberIdSets primitives proof
  .ok (proofIdFull primitives (propositionToCbor proof.proposition) proof.createdAt eventIds
    attestationIds evidenceIds relationshipIds proof.referencedProofs proof.vocabularies)

/-! ## Verification -/

/-- The id recomputed from the envelope's value. -/
def recomputedId (kind : ArtifactKind) (value : CborValue) (limits : Limits) : Result String :=
  match kind with
  | .event => do
    let event ← cborToEvent limits value
    eventMemberId primitives event
  | .evidence => do
    let evidence ← cborToEvidence limits value
    .ok (evidenceMemberId primitives evidence)
  | .relationship => do
    let relationship ← cborToRelationship limits value
    .ok (relationshipMemberId primitives relationship)
  | .attestation | .status => do
    let content ← cborToAttestation limits value
    .ok (attestationMemberId primitives content)
  | .proof => do
    let proof ← cborToProof limits value
    envelopeProofId primitives proof

/-- Check of the signature that travels with the envelope: against the issuer and policy the caller
    names, or else against the issuer the content names. -/
def verifyEnvelopeSign1 (sign1 : String) (bytes : Bytes) (limits : Limits)
    (expectedIssuer : Option String) (allowed : Option AllowedAlgs) : Result Unit :=
  match Base64Url.decode sign1 with
  | none => malformedError "envelope sign1 is not base64url"
  | some signed => do
    let _ ← parseSign1 signed limits
    match expectedIssuer, allowed with
    | some issuer, some allowed => do
      let _ ← verifySign1 primitives signed issuer allowed limits
      .ok ()
    | _, _ => do
      let value ← decodeAndCheckCanonical bytes limits
      let content ← cborToAttestation limits value
      match verifySign1 primitives signed content.issuer (allowed.getD .strict) limits with
      | .ok _ => .ok ()
      | .error failure =>
        signatureError ("envelope signature invalid for content issuer " ++ content.issuer ++ ": " ++
          failure.display)

/-- The envelope's bytes, when its advisory fields check. -/
def verifyEnvelope (envelope : ArtifactEnvelope) (limits : Limits) (expectedIssuer : Option String)
    (allowed : Option AllowedAlgs) : Result Bytes := do
  if envelope.containerVersion ≠ containerVersion then
    .error (ErrorCode.unsupportedVersion.err "unsupported envelope container_version")
  else
    let bytes ← envelope.cborBytes limits
    let value ← decodeAndCheckCanonical bytes limits
    let recomputed ← recomputedId primitives envelope.kind value limits
    if recomputed ≠ envelope.id then
      .error (ErrorCode.idMismatch.err "envelope id does not match recomputed id")
    else
      match envelope.kind, envelope.sign1B64u with
      | .attestation, some sign1 | .status, some sign1 => do
        verifyEnvelopeSign1 primitives sign1 bytes limits expectedIssuer allowed
        .ok bytes
      | _, _ => .ok bytes

end

/-! ## What an accepted envelope authenticates -/

section
variable {primitives : Primitives}

theorem cborBytes_eq_ok {envelope : ArtifactEnvelope} {limits : Limits} {bytes : Bytes}
    (done : envelope.cborBytes limits = .ok bytes) :
    Hex.decode (trim envelope.cborHex) = some bytes ∧ bytes.length ≤ limits.maxProofSize.toNat := by
  simp only [ArtifactEnvelope.cborBytes] at done
  split at done
  · cases done
  · rename_i raw decoded
    split at done
    · cases done
    · split at done
      · cases done
      · cases done
        exact ⟨decoded, by omega⟩

/-- An envelope built around bytes gives them back. -/
theorem cborBytes_new {kind : ArtifactKind} {id : String} {cbor : Bytes} {sign1 : Option String}
    {limits : Limits} (nonempty : cbor ≠ []) (small : cbor.length ≤ limits.maxProofSize.toNat) :
    (ArtifactEnvelope.new kind id cbor sign1).cborBytes limits = .ok cbor := by
  -- trimming removes nothing from hexadecimal text
  have solid : (Hex.digits.all fun char => !isWhitespace char) = true := by decide +kernel
  have trimmed : trim (Hex.encode cbor) = Hex.encode cbor := trim_eq_self fun char member => by
    simpa using List.all_eq_true.mp solid char (Hex.mem_encode member)
  simp only [ArtifactEnvelope.cborBytes, ArtifactEnvelope.new, trimmed, Hex.decode_encode]
  rw [if_neg (by omega), if_neg (by simpa using nonempty)]

/-- The signature check covers the payload the signature carries, whatever the content is. -/
theorem verifyEnvelopeSign1_sound {sign1 : String} {bytes : Bytes} {limits : Limits}
    {expectedIssuer : Option String} {allowed : Option AllowedAlgs} {nothing : Unit}
    (done : verifyEnvelopeSign1 primitives sign1 bytes limits expectedIssuer allowed = .ok nothing) :
    ∃ signed issuer policy parsed, Base64Url.decode sign1 = some signed ∧
      verifySign1 primitives signed issuer policy limits = .ok parsed := by
  simp only [verifyEnvelopeSign1] at done
  split at done
  · cases done
  · rename_i signed decoded
    simp only [bind_eq_ok] at done
    obtain ⟨_, _, done⟩ := done
    split at done
    · rename_i issuer policy
      simp only [bind_eq_ok] at done
      obtain ⟨parsed, verified, _⟩ := done
      exact ⟨signed, issuer, policy, parsed, decoded, verified⟩
    · simp only [bind_eq_ok] at done
      obtain ⟨_, _, content, _, done⟩ := done
      split at done
      · rename_i parsed verified
        exact ⟨signed, content.issuer, _, parsed, decoded, verified⟩
      · cases done

theorem verifyEnvelope_sound {envelope : ArtifactEnvelope} {limits : Limits}
    {expectedIssuer : Option String} {allowed : Option AllowedAlgs} {bytes : Bytes} {sign1 : String}
    (kind : envelope.kind = .attestation ∨ envelope.kind = .status)
    (carried : envelope.sign1B64u = some sign1)
    (accepted : verifyEnvelope primitives envelope limits expectedIssuer allowed = .ok bytes) :
    Hex.decode (trim envelope.cborHex) = some bytes ∧ bytes.length ≤ limits.maxProofSize.toNat ∧
      ∃ signed issuer policy parsed, Base64Url.decode sign1 = some signed ∧
        verifySign1 primitives signed issuer policy limits = .ok parsed := by
  simp only [verifyEnvelope] at accepted
  split at accepted
  · cases accepted
  · simp only [bind_eq_ok] at accepted
    obtain ⟨raw, rawDone, _, _, _, _, accepted⟩ := accepted
    obtain ⟨spelled, small⟩ := cborBytes_eq_ok rawDone
    split at accepted
    · cases accepted
    · rw [carried] at accepted
      rcases kind with kind | kind <;> rw [kind] at accepted <;> simp only [bind_eq_ok] at accepted <;>
        obtain ⟨_, signDone, accepted⟩ := accepted <;> cases accepted <;>
        exact ⟨spelled, small, verifyEnvelopeSign1_sound signDone⟩

/-- Bytes under their own id, with any signature by the issuer they name, are accepted. -/
theorem verifyEnvelope_new {id sign1 : String} {bytes signed : Bytes} {limits : Limits}
    {content : AttestationContent} {parsed : ParsedSign1} (nonempty : bytes ≠ [])
    (small : bytes.length ≤ limits.maxProofSize.toNat)
    (read : (decodeStrict bytes limits >>= cborToAttestation limits) = .ok content)
    (named : attestationMemberId primitives content = id)
    (carried : Base64Url.decode sign1 = some signed)
    (verified : verifySign1 primitives signed content.issuer .strict limits = .ok parsed) :
    verifyEnvelope primitives (.new .attestation id bytes (some sign1)) limits none none = .ok bytes := by
  obtain ⟨value, decoded, parsedContent⟩ := bind_eq_ok.mp read
  have shape := (verifySign1WithAad_sound verified).1
  have signatureChecked : verifyEnvelopeSign1 primitives sign1 bytes limits none none = .ok () := by
    simp only [verifyEnvelopeSign1, carried, shape, decodeAndCheckCanonical_eq, decoded, parsedContent,
      ok_bind, Option.getD_none, verified]
  have recomputed : recomputedId primitives .attestation value limits = .ok id := by
    simp only [recomputedId, parsedContent, ok_bind, named]
  simp only [verifyEnvelope, cborBytes_new nonempty small, decodeAndCheckCanonical_eq, decoded, ok_bind]
  simp only [ArtifactEnvelope.new, recomputed, signatureChecked, ok_bind, ne_eq, not_true_eq_false,
    if_false]

end

/-- The signature of the envelope is over the bytes the envelope spells. -/
def SignsOwnBytes (envelope : ArtifactEnvelope) (sign1 : String) : Prop :=
  ∃ protectedRaw payload signature : Slice, Hex.decode (trim envelope.cborHex) = some payload.1 ∧
    sign1 = b64uNopad (sign1Bytes protectedRaw.1 payload.1 signature.1)

theorem signsOwnBytes_of_parse {envelope : ArtifactEnvelope} {signed : Bytes} {limits : Limits}
    {parsed : ParsedSign1} (shape : parseSign1 signed limits = .ok parsed)
    (spelled : Hex.decode (trim envelope.cborHex) = some parsed.payload) :
    SignsOwnBytes envelope (b64uNopad signed) := by
  obtain ⟨whole, protectedSmall, payloadSmall, signatureSmall⟩ := parseSign1_bytes shape
  exact ⟨⟨parsed.protectedRaw, protectedSmall⟩, ⟨parsed.payload, payloadSmall⟩,
    ⟨parsed.signature, signatureSmall⟩, spelled, congrArg b64uNopad whole⟩

/-- An accepted envelope authenticates the bytes it returns exactly when its `sign1` field is an
    envelope around the bytes of its `cbor` field; nothing in the code compares the two. -/
theorem verifyEnvelope_authenticates_iff (primitives : Primitives) (envelope : ArtifactEnvelope)
    (limits : Limits) (expectedIssuer : Option String) (allowed : Option AllowedAlgs) (bytes : Bytes)
    (sign1 : String) (kind : envelope.kind = .attestation ∨ envelope.kind = .status)
    (carried : envelope.sign1B64u = some sign1)
    (accepted : verifyEnvelope primitives envelope limits expectedIssuer allowed = .ok bytes) :
    (∃ signed issuer policy parsed, Base64Url.decode sign1 = some signed ∧
        verifySign1 primitives signed issuer policy limits = .ok parsed ∧ parsed.payload = bytes) ↔
      SignsOwnBytes envelope sign1 := by
  obtain ⟨spelled, small, signed, issuer, policy, parsed, decoded, verified⟩ :=
    verifyEnvelope_sound kind carried accepted
  -- base64url text has one byte string
  have written := Base64Url.decode_eq_some.mp decoded
  obtain ⟨whole, protectedSmall, payloadSmall, signatureSmall⟩ :=
    parseSign1_bytes (verifySign1WithAad_sound verified).1
  constructor
  · rintro ⟨otherSigned, otherIssuer, otherPolicy, otherParsed, otherDecoded, otherVerified, rfl⟩
    rw [← Base64Url.decode_eq_some.mp otherDecoded]
    exact signsOwnBytes_of_parse (verifySign1WithAad_sound otherVerified).1 spelled
  · rintro ⟨protectedRaw, payload, signature, payloadSpelled, rfl⟩
    -- an envelope that parses is its own three parts
    have sameBytes : signed = sign1Bytes protectedRaw.1 payload.1 signature.1 :=
      Base64Url.encode_injective written
    rw [whole] at sameBytes
    have parts := @sign1Bytes_inj ⟨_, protectedSmall⟩ ⟨_, payloadSmall⟩ ⟨_, signatureSmall⟩
      protectedRaw payload signature sameBytes
    refine ⟨signed, issuer, policy, parsed, decoded, verified, ?_⟩
    rw [spelled] at payloadSpelled
    exact (congrArg Subtype.val parts.2.1).trans (Option.some.inj payloadSpelled).symm

/-! ## A signature attached to other content -/

/-- Primitives that know the given digests and signatures. -/
def Primitives.ofTable (digests : List (Bytes × Bytes)) (signatures : List (Bytes × Bytes × Bytes)) :
    Primitives where
  sha256 data :=
    match digests.lookup data with
    | some digest => if size : digest.length = 32 then ⟨digest, size⟩ else ⟨List.replicate 32 0, by simp⟩
    | none => ⟨List.replicate 32 0, by simp⟩
  ed25519KeyError _ := none
  ed25519Verify key message signature := signatures.contains (key, message, signature)
  p256PointError _ := none
  p256KeyError _ := none
  p256SignatureError _ := none
  p256Verify _ _ _ := false
  base64Error _ := "Invalid symbol"

theorem Primitives.ofTable_sha256 {digests : List (Bytes × Bytes)} {signatures : List (Bytes × Bytes × Bytes)}
    {data digest : Bytes} (listed : digests.lookup data = some digest) (size : digest.length = 32) :
    ((Primitives.ofTable digests signatures).sha256 data).1 = digest := by
  simp only [Primitives.ofTable, listed, size, dif_pos]

/-- The public key of the test seed. -/
def testKey : Bytes :=
  [0xfd, 0x17, 0x24, 0x38, 0x5a, 0xa0, 0xc7, 0x5b, 0x64, 0xfb, 0x78, 0xcd, 0x60, 0x2f, 0xa1, 0xd9,
   0x91, 0xfd, 0xeb, 0xf7, 0x6b, 0x13, 0xc5, 0x8e, 0xd7, 0x02, 0xea, 0xc8, 0x35, 0xe9, 0xf6, 0x18]

def testIssuer : String := "key:ed25519:_RckOFqgx1tk-3jNYC-h2ZH96_drE8WO1wLqyDXp9hg"

theorem parseEd25519Keyref_testIssuer {primitives : Primitives} :
    parseEd25519Keyref primitives testIssuer = .ok testKey := by
  have lead : testIssuer = "key:ed25519:" ++ b64uNopad testKey := by decide +kernel
  have decoded : b64uDecode primitives (b64uNopad testKey) = .ok testKey := b64uDecode_eq_ok.mpr rfl
  have size : testKey.length = 32 := rfl
  rw [lead, parseEd25519Keyref, parseKeyref, strip_append]
  simp [decoded, size]

/-- A statement by the test key about `subject`. -/
def settledStatement (subject : String) : AttestationContent where
  v := 1
  issuer := testIssuer
  subject := subject
  claim := { claimType := "settled", fields := [] }
  issuedAt := 1700000000
  expiresAt := none
  evidenceRef := none

def statementBytes (subject : String) : Bytes :=
  encodeCanonical (attestationToCbor (settledStatement subject))

/-- The test key's signature over the statement about `acct:2`. -/
def secondSignature : Bytes :=
  [0x8e, 0x12, 0x17, 0xb0, 0xce, 0xd0, 0x1a, 0x36, 0x6f, 0x31, 0x4f, 0x9f, 0xf8, 0x64, 0x60, 0x90,
   0xcf, 0xf1, 0xa4, 0x85, 0x33, 0x2d, 0x14, 0x43, 0xeb, 0xd9, 0xe0, 0x4f, 0xd7, 0x1b, 0x3e, 0xe5,
   0x97, 0xd0, 0x26, 0x7e, 0xfb, 0x68, 0x45, 0x0e, 0x96, 0x13, 0x9b, 0x1f, 0x1b, 0x5d, 0x32, 0x3b,
   0x4f, 0x7c, 0x7c, 0xeb, 0xac, 0x66, 0xa2, 0x67, 0xc8, 0xdf, 0xc4, 0x38, 0x38, 0xc0, 0xcf, 0x0a]

def secondSign1 : Bytes :=
  sign1Bytes (protectedBytes coseEd25519 testKey) (statementBytes "acct:2") secondSignature

def firstDigest : Bytes :=
  [0x11, 0x00, 0x7a, 0x62, 0x5a, 0xfd, 0x2a, 0x1d, 0xf3, 0x51, 0x7f, 0xb9, 0x70, 0x9b, 0x2f, 0xea,
   0xf8, 0xd3, 0x61, 0xe3, 0x29, 0x70, 0x6a, 0xd3, 0x28, 0x9e, 0xb3, 0xf9, 0xcd, 0x79, 0xc2, 0xde]

def secondDigest : Bytes :=
  [0xee, 0x4a, 0xb5, 0x5b, 0x06, 0x62, 0x28, 0x77, 0xae, 0x0d, 0xd4, 0x76, 0xa5, 0x4f, 0xaf, 0x68,
   0x47, 0xe8, 0xd4, 0x58, 0x59, 0xfa, 0x95, 0x34, 0x38, 0x9a, 0x39, 0x8d, 0xcf, 0x3e, 0xf4, 0x20]

def statementPrimitives : Primitives :=
  Primitives.ofTable
    [(statementBytes "acct:1", firstDigest), (statementBytes "acct:2", secondDigest)]
    [(testKey, sigStructure (protectedBytes coseEd25519 testKey) (statementBytes "acct:2"), secondSignature)]

/-- The statement about `subject` under `id`, with the signature over the statement about `acct:2`. -/
def statementEnvelope (subject id : String) : ArtifactEnvelope :=
  .new .attestation id (statementBytes subject) (some (b64uNopad secondSign1))

def secondParsed : ParsedSign1 where
  alg := coseEd25519
  kid := testKey
  payload := statementBytes "acct:2"
  signature := secondSignature
  protectedRaw := protectedBytes coseEd25519 testKey

theorem secondSign1_verifies :
    verifySign1 statementPrimitives secondSign1 testIssuer .strict Limits.default =
      .ok secondParsed := by
  decide +kernel

theorem statementEnvelope_accepted {subject id : String} (nonempty : statementBytes subject ≠ [])
    (small : (statementBytes subject).length ≤ Limits.default.maxProofSize.toNat)
    (read : (decodeStrict (statementBytes subject) Limits.default >>= cborToAttestation Limits.default) =
      .ok (settledStatement subject))
    (named : attestationMemberId statementPrimitives (settledStatement subject) = id) :
    verifyEnvelope statementPrimitives (statementEnvelope subject id) Limits.default none none =
      .ok (statementBytes subject) :=
  verifyEnvelope_new nonempty small read named (Base64Url.decode_eq_some.mpr rfl) secondSign1_verifies

/-- A signature over the statement about `acct:2` is accepted with the statement about `acct:1`. -/
theorem verifyEnvelope_other_content :
    ∃ envelope bytes sign1 signed parsed,
      envelope.kind = .attestation ∧ envelope.sign1B64u = some sign1 ∧
      verifyEnvelope statementPrimitives envelope Limits.default none none = .ok bytes ∧
      Base64Url.decode sign1 = some signed ∧
      verifySign1 statementPrimitives signed testIssuer .strict Limits.default = .ok parsed ∧
      parsed.payload ≠ bytes := by
  have accepted := @statementEnvelope_accepted "acct:1"
    "att:v1:EQB6Ylr9Kh3zUX-5cJsv6vjTYeMpcGrTKJ6z-c15wt4" (by decide +kernel) (by decide +kernel)
    (by decide +kernel) (by decide +kernel)
  -- the signature covers the other statement
  have differs : secondParsed.payload ≠ statementBytes "acct:1" := by decide +kernel
  exact ⟨_, _, _, _, _, rfl, rfl, accepted, Base64Url.decode_eq_some.mpr rfl, secondSign1_verifies, differs⟩

/-- The statement about `acct:2` with its own signature is authenticated. -/
theorem verifyEnvelope_own_content :
    ∃ signed issuer policy parsed, Base64Url.decode (b64uNopad secondSign1) = some signed ∧
      verifySign1 statementPrimitives signed issuer policy Limits.default = .ok parsed ∧
      parsed.payload = statementBytes "acct:2" := by
  have accepted := @statementEnvelope_accepted "acct:2"
    "att:v1:7kq1WwZiKHeuDdR2pU-vaEfo1FhZ-pU0OJo5jc8-9CA" (by decide +kernel) (by decide +kernel)
    (by decide +kernel) (by decide +kernel)
  exact (verifyEnvelope_authenticates_iff statementPrimitives _ Limits.default none none _
    (b64uNopad secondSign1) (.inl rfl) rfl accepted).mpr
    (signsOwnBytes_of_parse (verifySign1WithAad_sound secondSign1_verifies).1
      (verifyEnvelope_sound (.inl rfl) rfl accepted).1)

end ProofEngine
