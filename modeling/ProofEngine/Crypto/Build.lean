import ProofEngine.Crypto.Claim
import ProofEngine.Crypto.CoseSound
import ProofEngine.Format.MemberCodec

/-! # Verified members

A member's raw bytes are decoded, parsed and named by the id of those bytes.  The schema round
trip makes that the id of the re-encoded member. -/

namespace ProofEngine

open Text

section
variable (primitives : Primitives)

/-- Canonical form, schema and id of raw member bytes. -/
def verifyMember {α : Type} (kind : String) (parse : Limits → CborValue → Result α) (canonical : Bytes)
    (expectedId : Option String) (limits : Limits) : Result (α × String) := do
  let value ← decodeAndCheckCanonical canonical limits
  let content ← parse limits value
  match expectedId with
  | some expect => verifyId primitives kind expect canonical
  | none => .ok ()
  .ok (content, idWith primitives kind canonical)

def verifyEvent (canonical : Bytes) (expectedId : Option String) (limits : Limits) :
    Result (EventContent × String) :=
  verifyMember primitives IdKind.event cborToEvent canonical expectedId limits

def verifyEvidence (canonical : Bytes) (expectedId : Option String) (limits : Limits) :
    Result (Evidence × String) :=
  verifyMember primitives IdKind.evidence cborToEvidence canonical expectedId limits

def verifyRelationship (canonical : Bytes) (expectedId : Option String) (limits : Limits) :
    Result (Relationship × String) :=
  verifyMember primitives IdKind.rel cborToRelationship canonical expectedId limits

/-- The authenticated content of a signed attestation and the id of its payload. -/
def verifyAttestation (sign1 : Bytes) (expectedIssuer : String) (allowed : AllowedAlgs) (limits : Limits) :
    Result (AttestationContent × String) := do
  let parsed ← verifySign1 primitives sign1 expectedIssuer allowed limits
  let value ← decodeAndCheckCanonical parsed.payload limits
  let content ← cborToAttestation limits value
  if content.issuer ≠ expectedIssuer then
    signatureError "payload issuer differs from expected issuer"
  else .ok (content, attestationId primitives parsed.payload)

/-- A caller-supplied status object, with the issuer it must have been signed by. -/
structure SignedStatus where
  content : AttestationContent
  sign1 : Bytes
  deriving DecidableEq, Repr

def verifyStatusObject (sign1 : Bytes) (expectedIssuer : String) (allowed : AllowedAlgs) (limits : Limits) :
    Result AttestationContent := do
  let (content, id) ← verifyAttestation primitives sign1 expectedIssuer allowed limits
  if !(claimKind content).isStatus then
    schemaError ("status object " ++ id ++
      " has claim.type not in revoke|supersede|withdraw|compromise")
  else .ok content

end

/-! ## Re-encoding is the identity on accepted bytes -/

theorem decodeAndCheckCanonical_eq (bytes : Bytes) (limits : Limits) :
    decodeAndCheckCanonical bytes limits = decodeStrict bytes limits := by
  simp only [decodeAndCheckCanonical]
  cases decoded : decodeStrict bytes limits with
  | error failure => rfl
  | ok value => simp [(decodeStrict_sound decoded).1]

section
variable {primitives : Primitives}

theorem verifyMember_eq_ok {α : Type} {kind : String} {parse : Limits → CborValue → Result α}
    {canonical : Bytes} {expectedId : Option String} {limits : Limits} {content : α} {id : String}
    (done : verifyMember primitives kind parse canonical expectedId limits = .ok (content, id)) :
    ∃ value, decodeStrict canonical limits = .ok value ∧ parse limits value = .ok content ∧
      id = idWith primitives kind canonical := by
  simp only [verifyMember, decodeAndCheckCanonical_eq, bind_eq_ok] at done
  obtain ⟨value, decoded, parsed, parseDone, done⟩ := done
  cases expectedId with
  | none =>
    simp only [ok_bind] at done
    cases done
    exact ⟨value, decoded, parseDone, rfl⟩
  | some expect =>
    simp only [bind_eq_ok] at done
    obtain ⟨_, _, done⟩ := done
    cases done
    exact ⟨value, decoded, parseDone, rfl⟩

/-- The id of accepted raw bytes is the id of the re-encoded member. -/
theorem MemberCodec.Reencodes.id_eq {α : Type} {codec : MemberCodec α} (reencodes : codec.Reencodes)
    {kind : String} {canonical : Bytes} {expectedId : Option String} {limits : Limits} {content : α}
    {id : String}
    (done : verifyMember primitives kind codec.fromCbor canonical expectedId limits = .ok (content, id)) :
    ∃ encoded, codec.toCbor content = .ok encoded ∧
      id = idWith primitives kind (encodeCanonical encoded) := by
  obtain ⟨value, decoded, parsed, rfl⟩ := verifyMember_eq_ok done
  obtain ⟨encoded, written, same⟩ := reencodes canonical limits value content decoded parsed
  exact ⟨encoded, written, by rw [same]⟩

/-- Everything an accepted signed attestation satisfies. -/
theorem verifyAttestation_sound {sign1 : Bytes} {issuer : String} {allowed : AllowedAlgs}
    {limits : Limits} {content : AttestationContent} {id : String}
    (done : verifyAttestation primitives sign1 issuer allowed limits = .ok (content, id)) :
    ∃ parsed scheme, parseSign1 sign1 limits = .ok parsed ∧
      SignedBy primitives allowed externalAad issuer parsed scheme ∧
      content.issuer = issuer ∧ parsed.payload = encodeCanonical (attestationToCbor content) ∧
      id = attestationId primitives parsed.payload ∧ content.Bounded := by
  simp only [verifyAttestation, verifySign1, bind_eq_ok, decodeAndCheckCanonical_eq] at done
  obtain ⟨parsed, signDone, value, decoded, found, parseDone, done⟩ := done
  obtain ⟨shape, scheme, signed⟩ := verifySign1WithAad_sound signDone
  split at done
  · contradiction
  · rename_i issuerSame
    cases done
    obtain ⟨_, written, same⟩ := attestationCodec_reencodes _ _ _ _ decoded parseDone
    cases written
    exact ⟨parsed, scheme, shape, signed, not_not.mp issuerSame, same.symm, rfl,
      cborToAttestation_bounded parseDone⟩

end

/-- Member schemas round trip, byte for byte and member for member, and the id of raw member bytes
    is the id recomputed from the parsed member. -/
theorem memberCodecs_round_trip :
    (eventCodec.Reencodes ∧ attestationCodec.Reencodes ∧ evidenceCodec.Reencodes ∧
      relationshipCodec.Reencodes ∧ propositionCodec.Reencodes) ∧
    (eventCodec.Recovers ∧ attestationCodec.Recovers ∧ evidenceCodec.Recovers ∧
      relationshipCodec.Recovers ∧ propositionCodec.Recovers) ∧
    ∀ primitives : Primitives,
      (∀ canonical expectedId limits content id,
        verifyEvent primitives canonical expectedId limits = .ok (content, id) →
          ∃ encoded, eventToCbor content = .ok encoded ∧
            id = eventId primitives (encodeCanonical encoded)) ∧
      (∀ canonical expectedId limits content id,
        verifyEvidence primitives canonical expectedId limits = .ok (content, id) →
          id = evidenceId primitives (encodeCanonical (evidenceToCbor content))) ∧
      (∀ canonical expectedId limits content id,
        verifyRelationship primitives canonical expectedId limits = .ok (content, id) →
          id = relationshipId primitives (encodeCanonical (relationshipToCbor content))) ∧
      (∀ sign1 issuer allowed limits content id,
        verifyAttestation primitives sign1 issuer allowed limits = .ok (content, id) →
          id = attestationId primitives (encodeCanonical (attestationToCbor content))) := by
  refine ⟨⟨eventCodec_reencodes, attestationCodec_reencodes, evidenceCodec_reencodes,
    relationshipCodec_reencodes, propositionCodec_reencodes⟩, ⟨eventCodec_recovers,
    attestationCodec_recovers, evidenceCodec_recovers, relationshipCodec_recovers,
    propositionCodec_recovers⟩, fun primitives => ⟨?_, ?_, ?_, ?_⟩⟩
  · intro canonical expectedId limits content id done
    exact eventCodec_reencodes.id_eq done
  · intro canonical expectedId limits content id done
    obtain ⟨_, written, idIs⟩ := evidenceCodec_reencodes.id_eq done
    cases written
    exact idIs
  · intro canonical expectedId limits content id done
    obtain ⟨_, written, idIs⟩ := relationshipCodec_reencodes.id_eq done
    cases written
    exact idIs
  · intro sign1 issuer allowed limits content id done
    obtain ⟨parsed, _, _, _, _, payloadIs, idIs, _⟩ := verifyAttestation_sound done
    rw [idIs, payloadIs]

end ProofEngine
