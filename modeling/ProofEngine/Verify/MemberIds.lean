import ProofEngine.Verify.GraphFacts

/-! # Repeated members

Without a collision among the members of a proof, an id names one member.  The verifier rejects a
repeated relationship, and no other repetition. -/

namespace ProofEngine

open Text

/-- Within a proof, members with one id are the same member. -/
structure IdsDetermine (primitives : Primitives) (proof : Proof) : Prop where
  events : ∀ event ∈ proof.events, ∀ other ∈ proof.events,
    eventId primitives (encodeCanonical (eventRecord event)) =
      eventId primitives (encodeCanonical (eventRecord other)) → event = other
  attestations : ∀ stored ∈ proof.attestations, ∀ other ∈ proof.attestations,
    attestationMemberId primitives stored.content = attestationMemberId primitives other.content →
      stored.content = other.content
  evidence : ∀ evidence ∈ proof.evidence, ∀ other ∈ proof.evidence,
    evidenceMemberId primitives evidence = evidenceMemberId primitives other → evidence = other
  relationships : ∀ relationship ∈ proof.relationships, ∀ other ∈ proof.relationships,
    relationshipMemberId primitives relationship = relationshipMemberId primitives other → relationship = other

section
variable {primitives : Primitives} {limits : Limits} {bytes : Bytes} {proof : Proof}

/-- Without a collision among the attestations alone, their ids name one content each. -/
theorem attestationIds_determine (read : (decodeStrict bytes limits >>= cborToProof limits) = .ok proof)
    (collisionFree : CollisionFree primitives
      (proof.attestations.map fun stored => encodeCanonical (attestationToCbor stored.content))) :
    ∀ stored ∈ proof.attestations, ∀ other ∈ proof.attestations,
      attestationMemberId primitives stored.content = attestationMemberId primitives other.content →
        stored.content = other.content := by
  obtain ⟨value, decoded, parsed⟩ := bind_eq_ok.mp read
  have canonical := (decodeStrict_sound decoded).2
  have bounded := cborToProof_bounded canonical.addressable parsed
  obtain ⟨_, _, attestationsOrdered⟩ := cborToProof_inKeyOrder canonical parsed
  have determined := bounded.encodingsDetermine bounded
  intro stored member other otherMember same
  -- bytes that were decoded hold the fields of a claim in key order
  have ordered := List.map_inj_left.mp attestationsOrdered
  have encodings := collisionFree _ (List.mem_map_of_mem member) _ (List.mem_map_of_mem otherMember) (idWith_inj same)
  rw [← ordered stored member, ← ordered other otherMember]
  exact determined.attestations stored member other otherMember encodings

theorem idsDetermine_of_read (read : (decodeStrict bytes limits >>= cborToProof limits) = .ok proof)
    (collisionFree : CollisionFree primitives (hashedInputs primitives proof)) :
    IdsDetermine primitives proof := by
  obtain ⟨value, decoded, parsed⟩ := bind_eq_ok.mp read
  have canonical := (decodeStrict_sound decoded).2
  have bounded := cborToProof_bounded canonical.addressable parsed
  have hashes := hashes_hashedInputs primitives proof
  obtain ⟨_, eventsOrdered, _⟩ := cborToProof_inKeyOrder canonical parsed
  have determined := bounded.encodingsDetermine bounded
  constructor
  case events =>
    intro event member other otherMember same
    -- bytes that were decoded hold their metadata in key order
    have ordered : ∀ event ∈ proof.events, event.inKeyOrder = event := by
      have all := eventsOrdered.trans (List.map_id _).symm
      exact List.map_inj_left.mp all
    have encodings := collisionFree _ (hashes.events event member) _ (hashes.events other otherMember)
      (idWith_inj same)
    rw [← ordered event member, ← ordered other otherMember]
    exact determined.events event member other otherMember encodings
  case attestations =>
    refine attestationIds_determine read fun left leftMember right rightMember => ?_
    obtain ⟨stored, member, rfl⟩ := List.mem_map.mp leftMember
    obtain ⟨other, otherMember, rfl⟩ := List.mem_map.mp rightMember
    exact collisionFree _ (hashes.attestations stored member) _ (hashes.attestations other otherMember)
  case evidence =>
    intro evidence member other otherMember same
    have encodings := collisionFree _ (hashes.evidence evidence member) _ (hashes.evidence other otherMember)
      (idWith_inj same)
    exact determined.evidence evidence member other otherMember encodings
  case relationships =>
    intro relationship member other otherMember same
    have encodings := collisionFree _ (hashes.relationships relationship member) _
      (hashes.relationships other otherMember) (idWith_inj same)
    exact determined.relationships relationship member other otherMember encodings

end

/-- The ids of all members are distinct, kind by kind. -/
structure DistinctIds (primitives : Primitives) (proof : Proof) : Prop where
  events : (eventMemberIds primitives proof).Nodup
  attestations : (proofAttestationIds primitives proof).Nodup
  evidence : (evidenceMemberIds primitives proof).Nodup
  relationships : (relationshipMemberIds primitives proof).Nodup

/-- On a proof with valid evidence the member ids are distinct exactly when no event, no attestation and no
    evidence item is listed twice. -/
theorem distinctIds_iff (primitives : Primitives) (order : HashOrder) (ctx : VerifyCtx) (bytes : Bytes)
    (proof : Proof) (report : VerifyReport)
    (read : (decodeStrict bytes ctx.limits >>= cborToProof ctx.limits) = .ok proof)
    (collisionFree : CollisionFree primitives (hashedInputs primitives proof))
    (done : verifyProof primitives order ctx bytes = .ok report) (valid : report.evidenceValidity = .valid) :
    DistinctIds primitives proof ↔
      proof.events.Nodup ∧ (proof.attestations.map StoredAttestation.content).Nodup ∧ proof.evidence.Nodup := by
  have determine := idsDetermine_of_read read collisionFree
  have facts := graphFacts_of_valid primitives order ctx bytes proof report read done valid
  have attestationIds : proofAttestationIds primitives proof =
      (proof.attestations.map StoredAttestation.content).map (attestationMemberId primitives) := by
    rw [List.map_map]
    rfl
  constructor
  · intro distinct
    have attestations := distinct.attestations
    rw [attestationIds] at attestations
    exact ⟨.of_map _ distinct.events, .of_map _ attestations, .of_map _ distinct.evidence⟩
  · rintro ⟨events, attestations, evidence⟩
    refine ⟨events.map_on determine.events, ?_, evidence.map_on determine.evidence, facts.distinct⟩
    rw [attestationIds]
    apply attestations.map_on
    intro content member other otherMember same
    obtain ⟨stored, storedMember, rfl⟩ := List.mem_map.mp member
    obtain ⟨another, anotherMember, rfl⟩ := List.mem_map.mp otherMember
    exact determine.attestations stored storedMember another anotherMember same

theorem supersedingProof_distinct : DistinctIds supersedingPrimitives supersedingProof := by
  have collisionFree : CollisionFree supersedingPrimitives
      (hashedInputs supersedingPrimitives supersedingProof) := by decide +kernel
  obtain ⟨report, done, valid⟩ := supersedingProof_valid
  apply (distinctIds_iff _ _ _ _ _ report supersedingProof_read collisionFree done valid).mpr
  decide +kernel

/-! ## One event, twice -/

def repeatedProof : Proof :=
  { bareProof with
    proofId := "prf:v1:CaCoM6fpMG7De3eSLyiDsVMZmi5I4YCNoGDIxlfA4ng"
    events := [settledEvent "acct:1", settledEvent "acct:1"] }

def repeatedDigest : Bytes :=
  [0x09, 0xa0, 0xa8, 0x33, 0xa7, 0xe9, 0x30, 0x6e, 0xc3, 0x7b, 0x77, 0x92, 0x2f, 0x28, 0x83, 0xb1,
   0x53, 0x19, 0x9a, 0x2e, 0x48, 0xe1, 0x80, 0x8d, 0xa0, 0x60, 0xc8, 0xc6, 0x57, 0xc0, 0xe2, 0x78]

def repeatedPrimitives : Primitives :=
  Primitives.ofTable
    [(eventBytes "acct:1", firstEventDigest),
     (encodeCanonical (bindingOf supersedingPrimitives repeatedProof), repeatedDigest)] []

def repeatedBytes : Bytes := ((proofToCbor repeatedProof).toOption.map encodeCanonical).getD []

/-- Both verdicts on a proof that lists one event twice are valid. -/
theorem repeatedEvent_valid :
    (decodeStrict repeatedBytes VerifyCtx.default.limits >>= cborToProof VerifyCtx.default.limits) =
        .ok repeatedProof ∧
      (∃ report, verifyProof repeatedPrimitives .inserted VerifyCtx.default repeatedBytes = .ok report ∧
        (report.cryptographicValidity, report.evidenceValidity) = (.valid, .valid)) ∧
      ¬ (eventMemberIds repeatedPrimitives repeatedProof).Nodup := by
  refine ⟨by decide +kernel, map_eq_ok.mp (by decide +kernel), ?_⟩
  simp [eventMemberIds, repeatedProof]

end ProofEngine
