import ProofEngine.Verify.Builder

/-! # Built proofs verify

The builder and the pipeline compute member ids, the proof id and limits in separate code, and artifact
envelopes compute the proof id a third time.  On members made by the creating functions all of them agree, so a
proof that was built is cryptographically valid. -/

namespace ProofEngine

open StableSort Text CborValue

/-! ## Created members -/

/-- The member of an addition is an unmodified result of the function that creates it, signed by a genuine key. -/
def BuilderCall.Created (primitives : Primitives) : BuilderCall → Prop
  | .addEvent event => ∃ content, createEvent primitives content Limits.default = .ok event
  | .addAttestation attestation => ∃ content key, Ed25519Key.Genuine primitives key ∧
      attest primitives content key Limits.default = .ok attestation
  | .addEvidence evidence => ∃ kind digest attestationRef hint,
      makeEvidence primitives kind digest attestationRef hint Limits.default = .ok evidence
  | .addRelationship relationship => ∃ content, makeRelationship primitives content Limits.default = .ok relationship
  | .addReferencedProof _ | .addVocabulary _ _ => True

/-- The ids a builder holds are those recomputed from content, and its attestations are signed. -/
structure ProofBuilder.Created (primitives : Primitives) (builder : ProofBuilder) : Prop where
  events : ∀ event ∈ builder.events, event.id = eventId primitives (encodeCanonical (eventRecord event.content))
  attestations : ∀ attestation ∈ builder.attestations, ∃ content key, Ed25519Key.Genuine primitives key ∧
    attest primitives content key Limits.default = .ok attestation
  evidence : ∀ evidence ∈ builder.evidence, evidence.id = evidenceMemberId primitives evidence.content
  relationships : ∀ relationship ∈ builder.relationships,
    relationship.id = relationshipMemberId primitives relationship.content

section
variable {primitives : Primitives} {proposition : Proposition} {createdAt : UInt64} {calls : List BuilderCall}

theorem builderOf_created (created : ∀ call ∈ calls, call.Created primitives) :
    (builderOf primitives proposition createdAt calls).Created primitives := by
  rw [builderOf_eq]
  constructor
  case events =>
    intro event member
    obtain ⟨call, callMember, isEvent⟩ := List.mem_filterMap.mp member
    cases call <;> cases isEvent
    obtain ⟨content, done⟩ := created _ callMember
    exact (createEvent_id done).2
  case attestations =>
    intro attestation member
    obtain ⟨call, callMember, isAttestation⟩ := List.mem_filterMap.mp member
    cases call <;> cases isAttestation
    exact created _ callMember
  case evidence =>
    intro evidence member
    obtain ⟨call, callMember, isEvidence⟩ := List.mem_filterMap.mp member
    cases call <;> cases isEvidence
    obtain ⟨_, _, _, _, done⟩ := created _ callMember
    exact makeEvidence_id done
  case relationships =>
    intro relationship member
    obtain ⟨call, callMember, isRelationship⟩ := List.mem_filterMap.mp member
    cases call <;> cases isRelationship
    obtain ⟨_, done⟩ := created _ callMember
    exact makeRelationship_id done

theorem ProofBuilder.Created.arrange {builder : ProofBuilder} (created : builder.Created primitives) :
    builder.arrange.Created primitives := by
  constructor
  · exact fun event member => created.events event (mem_sortOn.mp member)
  · exact fun attestation member => created.attestations attestation (mem_sortOn.mp member)
  · exact fun evidence member => created.evidence evidence (mem_sortOn.mp member)
  · exact fun relationship member => created.relationships relationship (mem_sortOn.mp member)

/-! ## One proof id -/

/-- The ids a builder holds are those recomputed from content. -/
structure ProofBuilder.Named (primitives : Primitives) (builder : ProofBuilder) : Prop where
  events : ∀ event ∈ builder.events, event.id = eventId primitives (encodeCanonical (eventRecord event.content))
  attestations : ∀ attestation ∈ builder.attestations,
    attestation.id = attestationMemberId primitives attestation.content
  evidence : ∀ evidence ∈ builder.evidence, evidence.id = evidenceMemberId primitives evidence.content
  relationships : ∀ relationship ∈ builder.relationships,
    relationship.id = relationshipMemberId primitives relationship.content

theorem ProofBuilder.Created.named {builder : ProofBuilder} (created : builder.Created primitives) :
    builder.Named primitives where
  events := created.events
  attestations := by
    intro attestation member
    obtain ⟨_, _, _, done⟩ := created.attestations attestation member
    exact (attest_eq_ok done).2.2.2.1
  evidence := created.evidence
  relationships := created.relationships

theorem ProofBuilder.Named.proofId {builder : ProofBuilder} (named : builder.Named primitives) :
    (builder.assemble primitives proposition).proofId =
      idWith primitives IdKind.proof
        (encodeCanonical (bindingOf primitives (builder.assemble primitives proposition))) := by
  have events : builder.events.map (·.id) =
      (builder.events.map (·.content)).map fun event => eventId primitives (encodeCanonical (eventRecord event)) := by
    rw [List.map_map]
    exact List.map_congr_left named.events
  have attestations : builder.attestations.map (·.id) =
      (builder.attestations.map fun attestation => StoredAttestation.mk attestation.content attestation.sign1).map
        fun stored => attestationMemberId primitives stored.content := by
    rw [List.map_map]
    exact List.map_congr_left named.attestations
  have evidence : builder.evidence.map (·.id) =
      (builder.evidence.map (·.content)).map (evidenceMemberId primitives) := by
    rw [List.map_map]
    exact List.map_congr_left named.evidence
  have relationships : builder.relationships.map (·.id) =
      (builder.relationships.map (·.content)).map (relationshipMemberId primitives) := by
    rw [List.map_map]
    exact List.map_congr_left named.relationships
  simp only [ProofBuilder.assemble, proofIdFull, bindingOf, events, attestations, evidence, relationships]

/-- The id the builder binds is the hash of the binding recomputed from the assembled proof. -/
theorem assemble_proofId {builder : ProofBuilder} (created : builder.Created primitives) :
    (builder.assemble primitives proposition).proofId =
      idWith primitives IdKind.proof
        (encodeCanonical (bindingOf primitives (builder.assemble primitives proposition))) :=
  created.named.proofId

theorem envelopeProofId_eq {proof : Proof} (versions : ∀ event ∈ proof.events, event.v = 1) :
    envelopeProofId primitives proof =
      .ok (idWith primitives IdKind.proof (encodeCanonical (bindingOf primitives proof))) := by
  have events : proof.events.mapM (eventMemberId primitives) =
      .ok (proof.events.map fun event => eventId primitives (encodeCanonical (eventRecord event))) := by
    rw [mapM_eq_ok, List.forall₂_map_right_iff, List.forall₂_same]
    intro event member
    rw [eventMemberId, eventToCbor_of_version (versions event member), ok_bind]
  rw [envelopeProofId, memberIdSets, events]
  rfl

/-- Decoded bytes are not empty and not over the limit. -/
theorem decodeStrict_size {bytes : Bytes} {limits : Limits} {value : CborValue}
    (decoded : decodeStrict bytes limits = .ok value) : bytes ≠ [] ∧ bytes.length ≤ limits.maxProofSize.toNat := by
  rw [decodeStrict] at decoded
  split at decoded
  · cases decoded
  · rename_i small
    refine ⟨?_, not_lt.mp small⟩
    rintro rfl
    cases decoded

/-- An envelope around the bytes of a proof is accepted under the recomputed id and no other. -/
theorem verifyEnvelope_proof {bytes : Bytes} {limits : Limits} {proof : Proof} {recomputed : String}
    (read : (decodeStrict bytes limits >>= cborToProof limits) = .ok proof)
    (named : envelopeProofId primitives proof = .ok recomputed) (id : String) (sign1 issuer : Option String)
    (allowed : Option AllowedAlgs) :
    verifyEnvelope primitives (ArtifactEnvelope.new .proof id bytes sign1) limits issuer allowed = .ok bytes ↔
      id = recomputed := by
  obtain ⟨value, decoded, parsed⟩ := bind_eq_ok.mp read
  obtain ⟨nonempty, small⟩ := decodeStrict_size decoded
  have found : recomputedId primitives .proof value limits = .ok recomputed := by
    rw [recomputedId, parsed, ok_bind, named]
  have current : (ArtifactEnvelope.new .proof id bytes sign1).containerVersion = containerVersion := rfl
  rw [verifyEnvelope, if_neg (not_not.mpr current), cborBytes_new nonempty small]
  simp only [decodeAndCheckCanonical_eq, decoded, ok_bind]
  change (recomputedId primitives .proof value limits >>= _) = _ ↔ _
  rw [found, ok_bind]
  by_cases same : recomputed = (ArtifactEnvelope.new .proof id bytes sign1).id
  · rw [if_neg (not_not.mpr same)]
    exact iff_of_true rfl same.symm
  · rw [if_pos same]
    exact iff_of_false (by simp) (Ne.symm same)

/-! ## Signatures -/

/-- A stored signature is a field of the proof it stands in. -/
theorem sign1_length_le {limits : Limits} {value : CborValue} {proof : Proof} (canonical : Canonical limits value)
    (parsed : cborToProof limits value = .ok proof) {stored : StoredAttestation}
    (member : stored ∈ proof.attestations) : stored.sign1.length ≤ limits.maxFieldSize.toNat := by
  obtain ⟨_, entries, rfl, parts⟩ := cborToProof_entries parsed
  obtain ⟨items, found, done⟩ := parts.attestations
  obtain ⟨item, itemMember, itemDone⟩ := exists_of_mem_mapM done member
  have itemCanonical := (everywhere_array.mp (canonical.findField found)).2 _ itemMember
  cases item with
  | map fields =>
    simp only [cborToAttestationEntry, bind_eq_ok, requireField_eq_ok] at itemDone
    obtain ⟨_, _, _, _, _, _, sign1Cbor, sign1Found, sign1, sign1Done, itemDone⟩ := itemDone
    cases itemDone
    have admitted := (Canonical.findField itemCanonical sign1Found).self.admitted
    cases sign1Cbor with
    | bytes b =>
      rw [sign1FromCbor] at sign1Done
      split at sign1Done
      · cases sign1Done
      · cases sign1Done
        exact admitted
    | _ => cases sign1Done
  | _ => cases itemDone

/-- An attestation that was made verifies as an entry of a proof, as long as its envelope fits into a field. -/
theorem verifyEntry_attest {ctx : VerifyCtx} {content : AttestationContent} {key : Ed25519Key}
    {created : CreatedAttestation} (limits : ctx.limits = Limits.default)
    (permitted : ctx.allowedAlgs.ed25519 = true) (genuine : key.Genuine primitives)
    (done : attest primitives content key Limits.default = .ok created)
    (fits : created.sign1.length ≤ Limits.default.maxFieldSize.toNat) :
    verifyEntry primitives ctx ⟨created.content, created.sign1⟩ (attestationMemberId primitives created.content) =
      .ok coseEd25519 := by
  obtain ⟨issuer, spelled, read, _, signed⟩ := attest_eq_ok done
  -- the verifier reads the issuer off the key id, where the signer put its own key
  have bound : selfBoundIssuer (signedParts created.canonical key) = key.keyRef := if_pos rfl
  refine @verifyEntry_of_signed _ _ _ _ (signedParts created.canonical key) ?_ ?_ ?_ ?_
  · rw [signed, signEd25519_eq] at fits
    have lengths := length_sign1Bytes_ge (signedParts created.canonical key).protectedRaw
      (signedParts created.canonical key).payload (signedParts created.canonical key).signature
    have payload : (signedParts created.canonical key).payload.length ≤ Limits.default.maxFieldSize.toNat := by omega
    rw [bound, limits, signed]
    exact verifySign1_signEd25519 genuine permitted payload
  · rw [limits]
    exact read
  · rw [bound]
    exact issuer
  · rw [attestationMemberId, ← spelled]
    rfl

theorem verifyEntries_ok {ctx : VerifyCtx} {entries : List (StoredAttestation × String)}
    (verified : ∀ entry ∈ entries, ∃ alg, verifyEntry primitives ctx entry.1 entry.2 = .ok alg) :
    ∀ check ∈ (verifyEntries primitives ctx entries).1, check.ok = true := by
  induction entries with
  | nil =>
    intro check member
    cases member
  | cons entry entries inductionHypothesis =>
    obtain ⟨⟨alg, here⟩, later⟩ := List.forall_mem_cons.mp verified
    simp only [verifyEntries, here, List.forall_mem_cons]
    exact ⟨rfl, rfl, inductionHypothesis later⟩

/-- Every signature check passes on a proof assembled from attestations that verify. -/
theorem signatureChecks_of_entries {ctx : VerifyCtx} {builder : ProofBuilder}
    (verified : ∀ attestation ∈ builder.attestations, ∃ alg, verifyEntry primitives ctx
      ⟨attestation.content, attestation.sign1⟩ (attestationMemberId primitives attestation.content) = .ok alg) :
    ∀ check ∈ signatureChecks primitives ctx (builder.assemble primitives proposition), check.ok = true := by
  rw [signatureChecks, List.forall_mem_append]
  constructor
  · refine verifyEntries_ok fun entry member => ?_
    rw [proofEntries_eq, List.mem_map] at member
    obtain ⟨stored, storedMember, rfl⟩ := member
    obtain ⟨attestation, attestationMember, rfl⟩ := List.mem_map.mp storedMember
    exact verified attestation attestationMember
  · intro check member
    split at member
    · rw [List.mem_singleton.mp member]
      rfl
    · cases member

/-- Every signature check passes on a proof assembled from created members. -/
theorem signatureChecks_assemble {ctx : VerifyCtx} {builder : ProofBuilder} {value : CborValue}
    (created : builder.Created primitives) (limits : ctx.limits = Limits.default)
    (permitted : ctx.allowedAlgs.ed25519 = true) (canonical : Canonical Limits.default value)
    (parsed : cborToProof Limits.default value = .ok (builder.assemble primitives proposition)) :
    ∀ check ∈ signatureChecks primitives ctx (builder.assemble primitives proposition), check.ok = true := by
  refine signatureChecks_of_entries fun attestation member => ?_
  have fits := sign1_length_le canonical parsed (List.mem_map_of_mem (f := fun attestation : CreatedAttestation =>
    StoredAttestation.mk attestation.content attestation.sign1) member)
  obtain ⟨content, key, genuine, done⟩ := created.attestations attestation member
  exact ⟨_, verifyEntry_attest limits permitted genuine done fits⟩

end

/-! ## The pipeline accepts what the builder emits -/

/-- Under the default limits, a proof built from created members is reported without a failed check from PARSE to
    KEYS, and the four proof ids agree: the one the builder returns, the one reported, the one the pipeline
    recomputes and the one an envelope around the bytes must name. -/
theorem build_verifies (primitives : Primitives) (order : HashOrder) (proposition : Proposition) (createdAt : UInt64)
    (calls : List BuilderCall) (created : ∀ call ∈ calls, call.Created primitives) (built : BuiltProof)
    (done : (builderOf primitives proposition createdAt calls).build primitives Limits.default = .ok built)
    (ctx : VerifyCtx) (limits : ctx.limits = Limits.default) (permitted : ctx.allowedAlgs.ed25519 = true)
    (proper : ¬ Misused ctx) :
    ∃ report proof, verifyProof primitives order ctx built.canonical = .ok report ∧
      NoFailure report.checks cryptoStages ∧
      (decodeStrict built.canonical Limits.default >>= cborToProof Limits.default) = .ok proof ∧
      report.proofId = some built.id ∧ recomputedProofId primitives proof = .ok built.id ∧
      ∀ id sign1 issuer allowed,
        verifyEnvelope primitives (ArtifactEnvelope.new .proof id built.canonical sign1) Limits.default issuer allowed =
          .ok built.canonical ↔ id = built.id := by
  obtain ⟨written, _, _, proofIs, idIs, read⟩ := build_eq_ok done
  have madeBy := (@builderOf_created _ proposition createdAt _ created).arrange
  obtain ⟨value, decoded, parsed⟩ := bind_eq_ok.mp read
  have versions := cborToProof_versions parsed
  have recomputed : built.id = idWith primitives IdKind.proof (encodeCanonical (bindingOf primitives built.proof)) := by
    rw [idIs, proofIs, assemble_proofId madeBy]
  obtain ⟨report, verified⟩ := verifyProof_of_inputs primitives order built.canonical
    ((checkInputs_cases ctx).resolve_right fun misused => proper misused.1).2
  rw [← limits] at read
  obtain ⟨_, _, _, _, stages⟩ := stagesRan_of_read read verified
  rw [limits] at read
  have reported : report.proofId = some built.id := by rw [stages.proofId_eq, idIs]
  -- the proof id binds what was assembled, and every signature was made by its issuer
  have named := Except.ok.inj (stages.named.symm.trans (recomputedProofId_eq primitives versions))
  have signatures : ∀ check ∈ signatureChecks primitives ctx built.proof, check.ok = true := by
    rw [proofIs] at parsed ⊢
    exact signatureChecks_assemble madeBy limits permitted (decodeStrict_sound decoded).2 parsed
  have valid := stages.cryptoValid_iff.mpr ⟨by rw [named, ← recomputed, idIs], signatures⟩
  rw [stages.cryptographicValidity_eq, stageValid_eq_valid] at valid
  refine ⟨report, built.proof, verified, valid, read, reported, ?_, ?_⟩
  · rw [recomputed]
    exact recomputedProofId_eq primitives versions
  · refine verifyEnvelope_proof read ?_
    rw [recomputed]
    exact envelopeProofId_eq versions

theorem testKey_length : testKey.length = 32 := rfl

theorem secondSignature_length : secondSignature.length = 64 := rfl

/-- The test key; its signature over the statement about `acct:2` is the library's. -/
def testSigner : Ed25519Key where
  pubkeyBytes := ⟨testKey, testKey_length⟩
  sign := fun _ => ⟨secondSignature, secondSignature_length⟩

def signingPrimitives : Primitives :=
  { signedPrimitives with ed25519Verify := fun _ _ signature => signature = secondSignature }

def signedAttestation : CreatedAttestation where
  content := settledStatement "acct:2"
  canonical := statementBytes "acct:2"
  id := attestationMemberId signingPrimitives (settledStatement "acct:2")
  sign1 := secondSign1

theorem signedAttestation_created : (BuilderCall.addAttestation signedAttestation).Created signingPrimitives := by
  have attested : attest signingPrimitives (settledStatement "acct:2") testSigner Limits.default =
      .ok signedAttestation := by decide +kernel
  have verifies : ∀ message, signingPrimitives.ed25519Verify testKey message (testSigner.sign message).1 = true :=
    fun _ => decide_eq_true (show secondSignature = secondSignature from rfl)
  exact ⟨settledStatement "acct:2", testSigner, ⟨rfl, verifies⟩, attested⟩

theorem signedProof_builds :
    (builderOf signingPrimitives signedProof.proposition 1700000000 [.addAttestation signedAttestation]).build
        signingPrimitives Limits.default =
      .ok { proof := signedProof, canonical := signedProofBytes, id := signedProof.proofId } ∧
    ∃ report, verifyProof signingPrimitives .inserted VerifyCtx.default signedProofBytes = .ok report ∧
      NoFailure report.checks cryptoStages ∧ report.proofId = some signedProof.proofId := by
  have done : (builderOf signingPrimitives signedProof.proposition 1700000000
      [.addAttestation signedAttestation]).build signingPrimitives Limits.default =
        .ok { proof := signedProof, canonical := signedProofBytes, id := signedProof.proofId } := by decide +kernel
  have created : ∀ call ∈ [BuilderCall.addAttestation signedAttestation], call.Created signingPrimitives := by
    intro call member
    rw [List.mem_singleton.mp member]
    exact signedAttestation_created
  have proper : ¬ Misused VerifyCtx.default := by
    rcases checkInputs_cases VerifyCtx.default with ⟨proper, _⟩ | ⟨_, failure, failed⟩
    · exact proper
    · cases failed
  obtain ⟨report, _, verified, clean, _, reported, _⟩ :=
    build_verifies signingPrimitives .inserted signedProof.proposition 1700000000 _ created _ done VerifyCtx.default
      rfl rfl proper
  exact ⟨done, report, verified, clean, reported⟩

end ProofEngine
