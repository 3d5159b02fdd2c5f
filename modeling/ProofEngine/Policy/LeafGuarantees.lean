import ProofEngine.Policy.EvidenceBindings

/-! # What a leaf guarantees when it passes

Two requirements say more in their documentation than their leaves test.  The screened issuers are those of the
projected statements, so an issuer of status attestations alone is not seen; and the age of a proof is a saturating
difference, so a creation time after the clock counts as new. -/

namespace ProofEngine

section
variable {primitives : Primitives} {ctx : VerifyCtx} {proof : Proof}

/-! ## Screened issuers -/

/-- A status attestation of the proof has this id. -/
def IsStatusId (primitives : Primitives) (proof : Proof) (id : String) : Prop :=
  ∃ stored ∈ proof.attestations, isStatement stored.content = false ∧
    attestationMemberId primitives stored.content = id

/-- The issuer has attestations in the proof, but only status attestations. -/
def SignsOnlyStatus (primitives : Primitives) (proof : Proof) (issuer : String) : Prop :=
  (∃ stored ∈ proof.attestations, stored.content.issuer = issuer) ∧
    ∀ stored ∈ proof.attestations, stored.content.issuer = issuer →
      IsStatusId primitives proof (attestationMemberId primitives stored.content)

theorem satisfies_issuerExcluded {state : VerifiedState} {inputs : EvalInputs} {issuer : String} :
    Satisfies state inputs (.issuerExcluded issuer) ↔ issuer ∉ state.verifiedIssuers := by
  simp [Satisfies, evalOne]

section
variable {order : HashOrder} {bytes : Bytes} {value : CborValue} {eventIds : List String} {recomputed : String}
  {graph : List CheckRecord} {report : VerifyReport}
  (stages : StagesRan primitives order ctx bytes value proof eventIds recomputed graph report)
  (crypto : report.cryptographicValidity = .valid)
include stages crypto

/-- Where the signatures are valid, every attestation of the proof is verified. -/
theorem StagesRan.attested_iff {id : String} {content : AttestationContent} :
    Attested primitives ctx proof id content ↔
      ∃ stored ∈ proof.attestations, stored.content = content ∧ attestationMemberId primitives content = id := by
  rw [← mem_verifiedSet, stages.verifiedSet_named crypto, mem_namedAttestations]

theorem StagesRan.mem_statusIds {id : String} : id ∈ report.statusObjects ↔ IsStatusId primitives proof id := by
  simp only [stages.mem_statusObjects, stages.attested_iff crypto, IsStatusId]
  constructor
  · rintro ⟨content, ⟨stored, member, rfl, named⟩, status⟩
    exact ⟨stored, member, status, named⟩
  · rintro ⟨stored, member, status, named⟩
    exact ⟨stored.content, ⟨stored, member, rfl, named⟩, status⟩

/-- The issuers that the leaf is told of. -/
theorem StagesRan.mem_verifiedIssuers {state : VerifiedState}
    (lists : ListsStatements state (stateStatements primitives report proof)) {issuer : String} :
    issuer ∈ state.verifiedIssuers ↔ ∃ stored ∈ proof.attestations, stored.content.issuer = issuer ∧
      ¬ IsStatusId primitives proof (attestationMemberId primitives stored.content) := by
  rw [lists.verifiedIssuers, List.mem_map]
  constructor
  · rintro ⟨⟨id, content⟩, member, rfl⟩
    obtain ⟨named, _, notStatus⟩ := mem_stateStatements.mp member
    obtain ⟨stored, inProof, rfl, rfl⟩ := mem_namedAttestations.mp named
    exact ⟨stored, inProof, rfl, mt (stages.mem_statusIds crypto).mpr notStatus⟩
  · rintro ⟨stored, inProof, rfl, notStatus⟩
    have attested : Attested primitives ctx proof (attestationMemberId primitives stored.content) stored.content :=
      (stages.attested_iff crypto).mpr ⟨stored, inProof, rfl, rfl⟩
    refine ⟨(attestationMemberId primitives stored.content, stored.content), mem_stateStatements.mpr ⟨?_, ?_, ?_⟩, rfl⟩
    · exact mem_namedAttestations.mpr ⟨stored, inProof, rfl, rfl⟩
    · exact stages.mem_reportVerified.mpr ⟨_, attested⟩
    · exact mt (stages.mem_statusIds crypto).mp notStatus

end

/-- On a report with valid signatures the leaf screens an issuer exactly unless all that the issuer has in the
    proof are status attestations. -/
theorem issuerExcluded_screens_iff (primitives : Primitives) (order : HashOrder) (ctx : VerifyCtx) (bytes : Bytes)
    (proof : Proof) (report : VerifyReport) (state : VerifiedState) (inputs : EvalInputs) (issuer : String)
    (read : (decodeStrict bytes ctx.limits >>= cborToProof ctx.limits) = .ok proof)
    (done : verifyProof primitives order ctx bytes = .ok report)
    (crypto : report.cryptographicValidity = .valid)
    (projected : stateFromReportAndProof primitives report proof = .ok state) :
    (Satisfies state inputs (.issuerExcluded issuer) →
        ∀ entry ∈ verifiedSet primitives ctx proof, entry.2.issuer ≠ issuer) ↔
      ¬ SignsOnlyStatus primitives proof issuer := by
  obtain ⟨value, eventIds, recomputed, graph, stages⟩ := stagesRan_of_read read done
  obtain ⟨state', projected', lists, _⟩ := stages.projectedState
  obtain rfl : state' = state := Except.ok.inj (projected'.symm.trans projected)
  have absent : (∀ entry ∈ verifiedSet primitives ctx proof, entry.2.issuer ≠ issuer) ↔
      ∀ stored ∈ proof.attestations, stored.content.issuer ≠ issuer := by
    constructor
    · intro screened stored inProof
      exact screened (attestationMemberId primitives stored.content, stored.content)
        (mem_verifiedSet.mpr ((stages.attested_iff crypto).mpr ⟨stored, inProof, rfl, rfl⟩))
    · rintro screened ⟨id, content⟩ member
      obtain ⟨stored, inProof, rfl, _⟩ := (stages.attested_iff crypto).mp (mem_verifiedSet.mp member)
      exact screened stored inProof
  rw [satisfies_issuerExcluded, stages.mem_verifiedIssuers crypto lists, absent, SignsOnlyStatus]
  push Not
  constructor
  · rintro screens ⟨stored, inProof, same⟩
    by_contra onlyStatus
    push Not at onlyStatus
    exact screens onlyStatus stored inProof same
  · intro otherwise onlyStatus stored inProof same
    obtain ⟨plain, plainIn, plainSame, notStatus⟩ := otherwise ⟨stored, inProof, same⟩
    exact notStatus (onlyStatus plain plainIn plainSame)

/-! ## Fresh proofs -/

theorem satisfies_proofFresh {state : VerifiedState} {inputs : EvalInputs} {maxAgeSeconds : UInt64} :
    Satisfies state inputs (.proofFresh maxAgeSeconds) ↔ inputs.verifiedAt ≠ 0 ∧
      inputs.verifiedAt.toNat ≤ state.proofCreatedAt.toNat + maxAgeSeconds.toNat := by
  have age : saturatingSub inputs.verifiedAt state.proofCreatedAt ≤ maxAgeSeconds ↔
      inputs.verifiedAt.toNat ≤ state.proofCreatedAt.toNat + maxAgeSeconds.toNat := by
    rw [UInt64.le_iff_toNat_le, toNat_saturatingSub]
    omega
  rw [← age]
  by_cases clock : inputs.verifiedAt = 0
  · simp [Satisfies, evalOne, clock, failWith]
  · simp [Satisfies, evalOne, clock]

/-- The time is at most `maxAge` before the clock and at most `ahead` after it. -/
structure NearClock (createdAt verifiedAt maxAge ahead : UInt64) : Prop where
  notOld : verifiedAt.toNat ≤ createdAt.toNat + maxAge.toNat
  notAhead : createdAt.toNat ≤ verifiedAt.toNat + ahead.toNat

/-- Whatever is allowed after the clock, only the time before it is tested. -/
theorem proofFresh_near_iff {state : VerifiedState} {inputs : EvalInputs} {maxAgeSeconds ahead : UInt64} :
    (Satisfies state inputs (.proofFresh maxAgeSeconds) → inputs.verifiedAt ≠ 0 ∧
        NearClock state.proofCreatedAt inputs.verifiedAt maxAgeSeconds ahead) ↔
      inputs.verifiedAt = 0 ∨ state.proofCreatedAt.toNat ≤ inputs.verifiedAt.toNat + ahead.toNat := by
  rw [satisfies_proofFresh]
  constructor
  · intro near
    by_cases clock : inputs.verifiedAt = 0
    · exact .inl clock
    · right
      by_contra later
      -- the age of a proof created after the clock is zero, so the leaf passes
      have young : inputs.verifiedAt.toNat ≤ state.proofCreatedAt.toNat + maxAgeSeconds.toNat := by omega
      exact later (near ⟨clock, young⟩).2.notAhead
  · rintro (zero | notAhead) ⟨clock, notOld⟩
    · exact absurd zero clock
    · exact ⟨clock, notOld, notAhead⟩

/-- The leaf bounds the distance to the clock on both sides exactly when the clock is zero, where it fails, or the
    creation time is one that the sibling `not_expired` accepts as the issue time of an attestation. -/
theorem proofFresh_bounds_iff (state : VerifiedState) (inputs : EvalInputs) (maxAgeSeconds : UInt64) :
    (Satisfies state inputs (.proofFresh maxAgeSeconds) → inputs.verifiedAt ≠ 0 ∧
        NearClock state.proofCreatedAt inputs.verifiedAt maxAgeSeconds inputs.skewLeeway) ↔
      inputs.verifiedAt = 0 ∨ ¬ saturatingAdd inputs.verifiedAt inputs.skewLeeway < state.proofCreatedAt := by
  have notAhead : ¬ saturatingAdd inputs.verifiedAt inputs.skewLeeway < state.proofCreatedAt ↔
      state.proofCreatedAt.toNat ≤ inputs.verifiedAt.toNat + inputs.skewLeeway.toNat := by
    have bounded := state.proofCreatedAt.toNat_lt
    rw [UInt64.lt_iff_toNat_lt, toNat_saturatingAdd]
    omega
  rw [proofFresh_near_iff, notAhead]

end

/-! ## A post-dated self-report -/

/-- Its one attestation reports the test key compromised; its creation time is decades after the clock. -/
def selfReportProof : Proof :=
  { bareProof with
    proofId := "prf:v1:CYW-Tz8eHvvO74vCJHCnHN27SPIGLMw9Nal_9ybhEQE"
    attestations := [{ content := selfReport, sign1 := signedBytes selfReport selfReportSignature }]
    createdAt := 4102444800 }

def selfReportProofDigest : Bytes :=
  [0x09, 0x85, 0xbe, 0x4f, 0x3f, 0x1e, 0x1e, 0xfb, 0xce, 0xef, 0x8b, 0xc2, 0x24, 0x70, 0xa7, 0x1c,
   0xdd, 0xbb, 0x48, 0xf2, 0x06, 0x2c, 0xcc, 0x3d, 0x35, 0xa9, 0x7f, 0xf7, 0x26, 0xe1, 0x11, 0x01]

def selfReportPrimitives : Primitives :=
  let member := (encodeCanonical (attestationToCbor selfReport), selfReportDigest)
  Primitives.ofTable
    [member, (encodeCanonical (bindingOf (Primitives.ofTable [member] []) selfReportProof), selfReportProofDigest)]
    [(testKey, sigStructure (protectedBytes coseEd25519 testKey) member.1, selfReportSignature)]

def selfReportBytes : Bytes := ((proofToCbor selfReportProof).toOption.map encodeCanonical).getD []

theorem selfReportProof_read :
    (decodeStrict selfReportBytes Limits.default >>= cborToProof Limits.default) = .ok selfReportProof := by
  decide +kernel

theorem selfReportProof_valid :
    ((verifyProof selfReportPrimitives .inserted signedContext.toVerifyCtx selfReportBytes).map
      fun report => (report.cryptographicValidity, report.evidenceValidity)) = .ok (.valid, .valid) := by
  decide +kernel

theorem selfReportProof_onlyStatus : SignsOnlyStatus selfReportPrimitives selfReportProof testIssuer := by
  have only : ∀ stored ∈ selfReportProof.attestations, stored.content = selfReport := by
    intro stored member
    rw [List.mem_singleton.mp member]
  constructor
  · exact ⟨_, List.mem_cons_self, rfl⟩
  · intro stored member _
    refine ⟨stored, member, ?_, rfl⟩
    rw [only stored member]
    decide

theorem selfReportProof_projected :
    ∃ report state, verifyProof selfReportPrimitives .inserted signedContext.toVerifyCtx selfReportBytes = .ok report ∧
      report.cryptographicValidity = .valid ∧ report.evidenceValidity = .valid ∧
      stateFromReportAndProof selfReportPrimitives report selfReportProof = .ok state ∧
      ListsStatements state (stateStatements selfReportPrimitives report selfReportProof) := by
  obtain ⟨report, done, valid⟩ := map_eq_ok.mp selfReportProof_valid
  obtain ⟨crypto, evidence⟩ := Prod.mk.inj valid
  obtain ⟨_, _, _, _, stages⟩ := @stagesRan_of_read _ _ signedContext.toVerifyCtx _ _ _ selfReportProof_read done
  obtain ⟨state, projected, lists, _⟩ := stages.projectedState
  exact ⟨report, state, done, crypto, evidence, projected, lists⟩

/-- The report is valid and screening the issuer passes, but the proof has a verified attestation by it. -/
theorem selfReportProof_unscreened :
    ∃ report state, verifyProof selfReportPrimitives .inserted signedContext.toVerifyCtx selfReportBytes = .ok report ∧
      (report.cryptographicValidity, report.evidenceValidity) = (.valid, .valid) ∧
      stateFromReportAndProof selfReportPrimitives report selfReportProof = .ok state ∧
      Satisfies state (EvalInputs.ofContext signedContext) (.issuerExcluded testIssuer) ∧
      ∃ entry ∈ verifiedSet selfReportPrimitives signedContext.toVerifyCtx selfReportProof,
        entry.2.issuer = testIssuer := by
  obtain ⟨report, state, done, crypto, evidence, projected, lists⟩ := selfReportProof_projected
  obtain ⟨_, _, _, _, stages⟩ := @stagesRan_of_read _ _ signedContext.toVerifyCtx _ _ _ selfReportProof_read done
  obtain ⟨⟨stored, member, same⟩, onlyStatus⟩ := selfReportProof_onlyStatus
  refine ⟨report, state, done, Prod.ext crypto evidence, projected, satisfies_issuerExcluded.mpr ?_, _,
    mem_verifiedSet.mpr ((stages.attested_iff crypto).mpr ⟨stored, member, rfl, rfl⟩), same⟩
  rw [stages.mem_verifiedIssuers crypto lists]
  rintro ⟨other, otherMember, otherSame, notStatus⟩
  exact notStatus (onlyStatus other otherMember otherSame)

/-- An issuer of whom the proof has nothing passes the screen, and so it should; the issuer of its statements is one
    that the screen sees. -/
theorem opposedProof_screens :
    ∃ report state, verifyProof opposedPrimitives .inserted signedContext.toVerifyCtx opposedProofBytes = .ok report ∧
      stateFromReportAndProof opposedPrimitives report opposedProof = .ok state ∧
      Satisfies state (EvalInputs.ofContext signedContext) (.issuerExcluded "key:ed25519:other") ∧
      (∀ entry ∈ verifiedSet opposedPrimitives signedContext.toVerifyCtx opposedProof,
        entry.2.issuer ≠ "key:ed25519:other") ∧
      (Satisfies state (EvalInputs.ofContext signedContext) (.issuerExcluded testIssuer) →
        ∀ entry ∈ verifiedSet opposedPrimitives signedContext.toVerifyCtx opposedProof,
          entry.2.issuer ≠ testIssuer) := by
  obtain ⟨report, done, crypto, _⟩ := opposedProof_valid
  obtain ⟨_, _, _, _, stages⟩ := @stagesRan_of_read _ _ signedContext.toVerifyCtx _ _ _ opposedProof_read done
  obtain ⟨state, projected, lists, _⟩ := stages.projectedState
  have screens : ∀ issuer, _ := fun issuer => issuerExcluded_screens_iff opposedPrimitives .inserted
    signedContext.toVerifyCtx opposedProofBytes opposedProof report state (EvalInputs.ofContext signedContext) issuer
    opposedProof_read done crypto projected
  have issuers : ∀ stored ∈ opposedProof.attestations, stored.content.issuer = testIssuer := by decide +kernel
  have statement : ∀ stored ∈ opposedProof.attestations, isStatement stored.content = true := by decide +kernel
  have absent : ∀ stored ∈ opposedProof.attestations, stored.content.issuer ≠ "key:ed25519:other" := by
    intro stored member same
    rw [issuers stored member] at same
    exact absurd same (by decide)
  have passes : Satisfies state (EvalInputs.ofContext signedContext) (.issuerExcluded "key:ed25519:other") := by
    rw [satisfies_issuerExcluded, stages.mem_verifiedIssuers crypto lists]
    rintro ⟨stored, member, same, _⟩
    exact absent stored member same
  refine ⟨report, state, done, projected, passes, (screens _).mpr ?_ passes, (screens testIssuer).mpr ?_⟩
  · rintro ⟨⟨stored, member, same⟩, _⟩
    exact absent stored member same
  · rintro ⟨⟨stored, member, same⟩, onlyStatus⟩
    obtain ⟨other, otherMember, status, _⟩ := onlyStatus stored member same
    rw [statement other otherMember] at status
    cases status

/-- Created decades after the clock, it passes as a proof of age zero. -/
theorem selfReportProof_postdated :
    ∃ report state, verifyProof selfReportPrimitives .inserted signedContext.toVerifyCtx selfReportBytes = .ok report ∧
      (report.cryptographicValidity, report.evidenceValidity) = (.valid, .valid) ∧
      stateFromReportAndProof selfReportPrimitives report selfReportProof = .ok state ∧
      Satisfies state (EvalInputs.ofContext signedContext) (.proofFresh 0) ∧
      ¬ NearClock state.proofCreatedAt signedContext.verifiedAt 0 signedContext.clockSkewLeeway := by
  obtain ⟨report, state, done, crypto, evidence, projected, _⟩ := selfReportProof_projected
  have created : state.proofCreatedAt = 4102444800 := (stateFromReportAndProof_copies projected).2.2
  refine ⟨report, state, done, Prod.ext crypto evidence, projected, satisfies_proofFresh.mpr ?_, ?_⟩
  · rw [created]
    decide
  · rintro ⟨_, notAhead⟩
    rw [created] at notAhead
    exact absurd notAhead (by decide)

end ProofEngine
