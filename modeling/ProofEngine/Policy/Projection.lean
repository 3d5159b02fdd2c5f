import ProofEngine.Policy.Combine
import ProofEngine.Policy.MemberOrder
import ProofEngine.Verify.FeedGate

/-! # The projected state agrees with the report

The projection finds the verified attestations by the texts of the report's checks and by encoding the members
again.  Without a collision among the attestations these are the statements that the run itself gave a
lifecycle record, and status attestations leave no trace in the state. -/

namespace ProofEngine

open Text

/-- The entries that a state lists, one by one, as its attestations. -/
structure ListsStatements (state : VerifiedState) (entries : List (String × AttestationContent)) : Prop where
  attestationIds : state.attestationIds = entries.map Prod.fst
  verifiedIssuers : state.verifiedIssuers = entries.map fun entry => entry.2.issuer
  attestationTimes : state.attestationTimes = entries.map fun entry => (entry.2.issuedAt, entry.2.expiresAt)
  claims : state.claims = entries.map claimSummary
  delegations : state.delegations = entries.filterMap delegationOf
  identityBindings : state.identityBindings = entries.filterMap identityBindingOf

/-- The state says something on the word of the attestation `id`. -/
def Contributes (state : VerifiedState) (id : String) : Prop :=
  id ∈ state.attestationIds ∨ (∃ claim ∈ state.claims, claim.attestationId = id) ∨
    (∃ delegation ∈ state.delegations, delegation.attestationId = id) ∨
    (∃ binding ∈ state.identityBindings, binding.attestationId = id) ∨
    ∃ binding ∈ state.evidenceBindings, binding.attestationId = id

/-- Agreement of a state with the report it was projected from. -/
structure AgreesWithReport (primitives : Primitives) (ctx : VerifyCtx) (proof : Proof) (report : VerifyReport)
    (state : VerifiedState) : Prop where
  ids : ∀ id, id ∈ state.attestationIds ↔ ∃ record ∈ report.lifecycle, record.object = "att:" ++ id
  sameList : report.cryptographicValidity = .valid →
    report.lifecycle.map LifecycleRecord.object = state.attestationIds.map ("att:" ++ ·)
  aligned : ∃ entries, ListsStatements state entries ∧
    ∀ entry ∈ entries, Attested primitives ctx proof entry.1 entry.2 ∧ isStatement entry.2 = true
  active : state.activeAttestationIds ⊆ state.attestationIds
  superseded : state.supersededIds ⊆ state.attestationIds
  noStatus : ∀ stored ∈ proof.attestations, isStatement stored.content = false →
    ¬ Contributes state (attestationMemberId primitives stored.content)

/-! ## Projected statements -/

theorem delegationOf_id {entry : String × AttestationContent} {delegation : Delegation}
    (found : delegationOf entry = some delegation) : delegation.attestationId = entry.1 := by
  simp only [delegationOf] at found
  split at found
  · cases found
    rfl
  · cases found

theorem identityBindingOf_id {entry : String × AttestationContent} {binding : IdentityBinding}
    (found : identityBindingOf entry = some binding) : binding.attestationId = entry.1 := by
  simp only [identityBindingOf] at found
  split at found
  · obtain ⟨_, _, rfl⟩ := Option.map_eq_some_iff.mp found
    rfl
  · cases found

theorem mem_reportLifecycle {report : VerifyReport} {status : LifecycleStatus} {id : String}
    (member : id ∈ reportLifecycle report status) : ∃ record ∈ report.lifecycle, record.object = "att:" ++ id := by
  rw [reportLifecycle, List.mem_filterMap] at member
  obtain ⟨record, filtered, stripped⟩ := member
  exact ⟨record, List.mem_of_mem_filter filtered, strip_eq_some stripped⟩

section
variable {primitives : Primitives} {report : VerifyReport} {proof : Proof}

theorem evidenceBindingOf_id {entry : String × AttestationContent} {binding : EvidenceBinding}
    (found : evidenceBindingOf primitives report proof entry = some binding) :
    binding.attestationId = entry.1 ∧ entry.1 ∈ reportLifecycle report .active := by
  simp only [evidenceBindingOf] at found
  split at found
  · cases found
  · rename_i active
    simp only [Bool.or_eq_true, Bool.not_eq_true', not_or, Bool.not_eq_false, List.contains_iff_mem] at active
    refine ⟨?_, active.2⟩
    repeat' split at found
    all_goals cases found
    rfl

/-- A report about a proof has a state, which lists the projected statements. -/
theorem stateFromReportAndProof_lists (named : report.proofId = some proof.proofId) :
    ∃ state, stateFromReportAndProof primitives report proof = .ok state ∧
      ListsStatements state (stateStatements primitives report proof) ∧
      state.activeAttestationIds = reportLifecycle report .active ∧
      state.supersededIds = reportLifecycle report .superseded ∧
      state.evidenceBindings = (namedAttestations primitives proof).filterMap
        (evidenceBindingOf primitives report proof) := by
  simp only [stateFromReportAndProof, named, ne_eq, not_true_eq_false, if_false]
  exact ⟨_, rfl, ⟨rfl, rfl, rfl, rfl, rfl, rfl⟩, rfl, rfl, rfl⟩

theorem mem_namedAttestations {id : String} {content : AttestationContent} :
    (id, content) ∈ namedAttestations primitives proof ↔
      ∃ stored ∈ proof.attestations, stored.content = content ∧ attestationMemberId primitives content = id := by
  simp only [namedAttestations, List.mem_map, Prod.mk.injEq]
  constructor
  · rintro ⟨stored, member, rfl, rfl⟩
    exact ⟨stored, member, rfl, rfl⟩
  · rintro ⟨stored, member, rfl, rfl⟩
    exact ⟨stored, member, rfl, rfl⟩

end

section
variable {primitives : Primitives} {order : HashOrder} {ctx : VerifyCtx} {bytes : Bytes} {value : CborValue}
  {proof : Proof} {eventIds : List String} {recomputed : String} {graph : List CheckRecord} {report : VerifyReport}

theorem StagesRan.projectedState
    (stages : StagesRan primitives order ctx bytes value proof eventIds recomputed graph report) :
    ∃ state, stateFromReportAndProof primitives report proof = .ok state ∧
      ListsStatements state (stateStatements primitives report proof) ∧
      state.activeAttestationIds = reportLifecycle report .active ∧
      state.supersededIds = reportLifecycle report .superseded ∧
      state.evidenceBindings = (namedAttestations primitives proof).filterMap
        (evidenceBindingOf primitives report proof) := by
  exact stateFromReportAndProof_lists stages.proofId_eq

theorem StagesRan.lifecycle_objects
    (stages : StagesRan primitives order ctx bytes value proof eventIds recomputed graph report) :
    report.lifecycle.map LifecycleRecord.object =
      (statements (verifiedSet primitives ctx proof)).map fun entry => "att:" ++ entry.1 := by
  rw [stages.lifecycle_eq, lifecycle, List.map_map]
  rfl

theorem StagesRan.mem_lifecycle
    (stages : StagesRan primitives order ctx bytes value proof eventIds recomputed graph report) {id : String} :
    (∃ record ∈ report.lifecycle, record.object = "att:" ++ id) ↔
      ∃ content, Attested primitives ctx proof id content ∧ isStatement content = true := by
  rw [← List.mem_map, stages.lifecycle_objects, List.mem_map]
  constructor
  · rintro ⟨⟨other, content⟩, member, named⟩
    obtain rfl : other = id := by simpa using named
    exact ⟨content, mem_statements.mp member⟩
  · rintro ⟨content, attested⟩
    exact ⟨(id, content), mem_statements.mpr attested, rfl⟩

theorem StagesRan.mem_statusObjects
    (stages : StagesRan primitives order ctx bytes value proof eventIds recomputed graph report) {id : String} :
    id ∈ report.statusObjects ↔ ∃ content, Attested primitives ctx proof id content ∧ isStatement content = false := by
  rw [stages.statusObjects_eq, List.mem_map]
  constructor
  · rintro ⟨⟨other, content⟩, member, rfl⟩
    rw [embeddedStatus, List.mem_filter, mem_verifiedSet, Bool.not_eq_true'] at member
    exact ⟨content, member⟩
  · rintro ⟨content, attested, status⟩
    refine ⟨(id, content), ?_, rfl⟩
    rw [embeddedStatus, List.mem_filter, mem_verifiedSet, Bool.not_eq_true']
    exact ⟨attested, status⟩

theorem StagesRan.verifiedSet_named
    (stages : StagesRan primitives order ctx bytes value proof eventIds recomputed graph report)
    (crypto : report.cryptographicValidity = .valid) :
    verifiedSet primitives ctx proof = namedAttestations primitives proof :=
  verifiedSet_all (noFailure_of_ok (stages.cryptoValid_iff.mp crypto).2)

theorem StagesRan.mem_reportVerified
    (stages : StagesRan primitives order ctx bytes value proof eventIds recomputed graph report) {id : String} :
    id ∈ reportVerified report ↔ ∃ content, Attested primitives ctx proof id content := by
  rw [stages.reportVerified_eq, List.mem_map]
  constructor
  · rintro ⟨⟨other, content⟩, member, rfl⟩
    exact ⟨content, mem_verifiedSet.mp member⟩
  · rintro ⟨content, attested⟩
    exact ⟨(id, content), mem_verifiedSet.mpr attested, rfl⟩

theorem mem_stateStatements {id : String} {content : AttestationContent} :
    (id, content) ∈ stateStatements primitives report proof ↔
      (id, content) ∈ namedAttestations primitives proof ∧ id ∈ reportVerified report ∧ id ∉ report.statusObjects := by
  simp [stateStatements]

section
variable (stages : StagesRan primitives order ctx bytes value proof eventIds recomputed graph report)
  (determined : ∀ stored ∈ proof.attestations, ∀ other ∈ proof.attestations,
    attestationMemberId primitives stored.content = attestationMemberId primitives other.content →
      stored.content = other.content)
include stages determined

/-- What is projected are the verified statements, though it is found by id only. -/
theorem StagesRan.mem_projected {id : String} {content : AttestationContent} :
    (id, content) ∈ stateStatements primitives report proof ↔
      Attested primitives ctx proof id content ∧ isStatement content = true := by
  rw [mem_stateStatements, stages.mem_reportVerified, stages.mem_statusObjects, mem_namedAttestations]
  constructor
  · rintro ⟨⟨stored, member, rfl, rfl⟩, ⟨other, attested⟩, notStatus⟩
    obtain ⟨stored', member', rfl, named, done⟩ := attested
    have same := determined stored' member' stored member named
    have attested : Attested primitives ctx proof (attestationMemberId primitives stored.content) stored.content :=
      ⟨stored', member', same, rfl, done⟩
    refine ⟨attested, ?_⟩
    by_contra status
    exact notStatus ⟨_, attested, Bool.eq_false_iff.mpr status⟩
  · rintro ⟨attested, plain⟩
    obtain ⟨stored, member, rfl, rfl, done⟩ := attested
    refine ⟨⟨stored, member, rfl, rfl⟩, ⟨_, stored, member, rfl, rfl, done⟩, ?_⟩
    rintro ⟨other, ⟨stored', member', rfl, named, _⟩, status⟩
    rw [determined stored' member' stored member named, plain] at status
    cases status

theorem StagesRan.mem_projectedIds {id : String} :
    id ∈ (stateStatements primitives report proof).map Prod.fst ↔
      ∃ record ∈ report.lifecycle, record.object = "att:" ++ id := by
  rw [stages.mem_lifecycle, List.mem_map]
  constructor
  · rintro ⟨⟨other, content⟩, member, rfl⟩
    exact ⟨content, (stages.mem_projected determined).mp member⟩
  · rintro ⟨content, attested⟩
    exact ⟨(id, content), (stages.mem_projected determined).mpr attested, rfl⟩

/-- Where all attestations are verified, the projection keeps their order. -/
theorem StagesRan.projected_eq (crypto : report.cryptographicValidity = .valid) :
    stateStatements primitives report proof = statements (verifiedSet primitives ctx proof) := by
  have all := stages.verifiedSet_named crypto
  rw [statements, all, stateStatements]
  apply List.filter_congr
  rintro ⟨id, content⟩ member
  have attested : Attested primitives ctx proof id content := mem_verifiedSet.mp (all ▸ member)
  have projected := @StagesRan.mem_projected _ _ _ _ _ _ _ _ _ _ stages determined id content
  rw [stateStatements, List.mem_filter, and_iff_right member, and_iff_right attested] at projected
  exact Bool.eq_iff_iff.mpr projected

/-- No status attestation is behind anything the state says. -/
theorem StagesRan.notContributes {state : VerifiedState}
    (lists : ListsStatements state (stateStatements primitives report proof))
    (bindings : state.evidenceBindings = (namedAttestations primitives proof).filterMap
      (evidenceBindingOf primitives report proof))
    {stored : StoredAttestation} (member : stored ∈ proof.attestations) (status : isStatement stored.content = false) :
    ¬ Contributes state (attestationMemberId primitives stored.content) := by
  -- every contribution comes from a projected statement
  have absent : attestationMemberId primitives stored.content ∉
      (stateStatements primitives report proof).map Prod.fst := by
    intro listed
    obtain ⟨⟨id, content⟩, projected, named⟩ := List.mem_map.mp listed
    obtain ⟨⟨stored', member', rfl, named', _⟩, plain⟩ := (stages.mem_projected determined).mp projected
    rw [determined stored' member' stored member (named'.trans named), status] at plain
    cases plain
  rintro (listed | ⟨claim, claimMember, named⟩ | ⟨delegation, delegationMember, named⟩ |
    ⟨binding, bindingMember, named⟩ | ⟨binding, bindingMember, named⟩)
  · rw [lists.attestationIds] at listed
    exact absent listed
  · rw [lists.claims, List.mem_map] at claimMember
    obtain ⟨entry, projected, rfl⟩ := claimMember
    exact absent (named ▸ List.mem_map_of_mem projected)
  · rw [lists.delegations, List.mem_filterMap] at delegationMember
    obtain ⟨entry, projected, found⟩ := delegationMember
    rw [delegationOf_id found] at named
    exact absent (named ▸ List.mem_map_of_mem projected)
  · rw [lists.identityBindings, List.mem_filterMap] at bindingMember
    obtain ⟨entry, projected, found⟩ := bindingMember
    rw [identityBindingOf_id found] at named
    exact absent (named ▸ List.mem_map_of_mem projected)
  · rw [bindings, List.mem_filterMap] at bindingMember
    obtain ⟨entry, _, found⟩ := bindingMember
    obtain ⟨bound, active⟩ := evidenceBindingOf_id found
    rw [bound] at named
    exact absent (named ▸ (stages.mem_projectedIds determined).mpr (mem_reportLifecycle active))

theorem StagesRan.agreesWithReport :
    ∃ state, stateFromReportAndProof primitives report proof = .ok state ∧
      AgreesWithReport primitives ctx proof report state := by
  obtain ⟨state, projected, lists, active, superseded, bindings⟩ := stages.projectedState
  refine ⟨state, projected, ?_⟩
  constructor
  case ids =>
    intro id
    rw [lists.attestationIds, stages.mem_projectedIds determined]
  case sameList =>
    intro crypto
    rw [stages.lifecycle_objects, lists.attestationIds, stages.projected_eq determined crypto, List.map_map]
    rfl
  case aligned => exact ⟨_, lists, fun entry member => (stages.mem_projected determined).mp member⟩
  case active =>
    intro id member
    rw [lists.attestationIds, stages.mem_projectedIds determined]
    exact mem_reportLifecycle (active ▸ member)
  case superseded =>
    intro id member
    rw [lists.attestationIds, stages.mem_projectedIds determined]
    exact mem_reportLifecycle (superseded ▸ member)
  case noStatus =>
    intro stored member status
    exact stages.notContributes determined lists bindings member status

end

/-! ## TIME and the not-expired leaf -/

/-- An attestation that passes TIME is inside the window that policies test. -/
theorem window_of_isTimely {content : AttestationContent} (timely : isTimely ctx content = true) :
    ¬ saturatingAdd ctx.verifiedAt ctx.clockSkewLeeway < content.issuedAt ∧
      ¬ (content.expiresAt.any fun expiry => saturatingAdd expiry ctx.clockSkewLeeway < ctx.verifiedAt) = true := by
  simp only [isTimely, timeValidity] at timely
  split at timely
  · cases timely
  · split at timely
    · cases timely
    · rename_i present
      refine ⟨present, ?_⟩
      split at timely
      · rename_i unbounded
        simp [unbounded]
      · rename_i expiry bounded
        split at timely
        · cases timely
        · rename_i running
          simpa [bounded] using running

/-- With both verdicts valid every projected attestation has passed TIME; here ids need not be unique. -/
theorem StagesRan.projected_timely
    (stages : StagesRan primitives order ctx bytes value proof eventIds recomputed graph report)
    (crypto : report.cryptographicValidity = .valid) (evidence : report.evidenceValidity = .valid)
    {id : String} {content : AttestationContent} (member : (id, content) ∈ stateStatements primitives report proof) :
    isTimely ctx content = true := by
  obtain ⟨named, _, notStatus⟩ := mem_stateStatements.mp member
  have all := stages.verifiedSet_named crypto
  have attested : Attested primitives ctx proof id content := mem_verifiedSet.mp (all ▸ named)
  have plain : isStatement content = true := by
    by_contra status
    exact notStatus (stages.mem_statusObjects.mpr ⟨content, attested, Bool.eq_false_iff.mpr status⟩)
  exact (stages.evidenceValid_iff.mp evidence).times (id, content) (mem_statements.mpr ⟨attested, plain⟩)

end

theorem satisfies_notExpired {state : VerifiedState} {inputs : EvalInputs}
    {entries : List (String × AttestationContent)} (lists : ListsStatements state entries)
    (windows : ∀ entry ∈ entries, ¬ saturatingAdd inputs.verifiedAt inputs.skewLeeway < entry.2.issuedAt ∧
      ¬ (entry.2.expiresAt.any fun expiry => saturatingAdd expiry inputs.skewLeeway < inputs.verifiedAt) = true) :
    Satisfies state inputs .notExpired := by
  have timely : firstUntimely inputs (state.attestationIds.zip state.attestationTimes) = none := by
    rw [firstUntimely_eq_none, lists.attestationIds, lists.attestationTimes, List.zip_map']
    intro window member
    obtain ⟨entry, entryMember, rfl⟩ := List.mem_map.mp member
    exact windows entry entryMember
  refine ⟨_, rfl, ?_⟩
  rw [evalNotExpired, timely]
  rfl

/-- Only valid proofs are evaluated. -/
theorem evaluatePolicy_decided {state : VerifiedState} {policy : Policy} {inputs : EvalInputs} {outcome : PolicyOutcome}
    (done : evaluatePolicy state policy inputs = .ok outcome) (decided : outcome.decision ≠ .indeterminate) :
    state.cryptoValid = true ∧ state.evidenceValid = true := by
  rw [evaluatePolicy] at done
  split at done
  · cases done
    exact absurd rfl decided
  · rename_i valid
    simpa using valid

theorem verifyAndEvaluate_decided {primitives : Primitives} {order : HashOrder} {bytes : Bytes}
    {ctx : VerificationContext} {policy : Policy} {revocations : RevocationSet} {decision : VerifiedDecision}
    (done : verifyAndEvaluate primitives order bytes ctx policy revocations = .ok decision)
    (decided : decision.outcome.decision ≠ .indeterminate) :
    NoFailure decision.report.checks [.time] ∧
      Satisfies decision.state { EvalInputs.ofContext ctx with revocations } .notExpired := by
  simp only [verifyAndEvaluate, bind_eq_ok, Result.lift_eq_ok] at done
  obtain ⟨_, _, report, verified, value, decoded, proof, parsed, state, projected, outcome, evaluated, done⟩ := done
  cases done
  obtain ⟨cryptoValid, evidenceValid⟩ := evaluatePolicy_decided evaluated decided
  obtain ⟨crypto, evidence, _⟩ := stateFromReportAndProof_copies projected
  rw [crypto, decide_eq_true_eq] at cryptoValid
  rw [evidence, decide_eq_true_eq] at evidenceValid
  have read : (decodeStrict bytes ctx.toVerifyCtx.limits >>= cborToProof ctx.toVerifyCtx.limits) = .ok proof :=
    bind_eq_ok.mpr ⟨value, decoded, parsed⟩
  obtain ⟨_, eventIds, recomputed, graph, stages⟩ := stagesRan_of_read read verified
  refine ⟨?_, ?_⟩
  · intro check member inside
    refine stages.noFailure cryptoValid evidenceValid check member ?_
    exact (show [Stage.time] ⊆ cryptoStages ++ evidenceStages by decide) inside
  · obtain ⟨state', projected', lists, _⟩ := stages.projectedState
    obtain rfl : state' = state := Except.ok.inj (projected'.symm.trans projected)
    -- the clock and the leeway of both sides come from one context
    exact satisfies_notExpired lists fun entry member =>
      window_of_isTimely (stages.projected_timely cryptoValid evidenceValid member)

/-! ## Agreement -/

/-- The state projected from a run's report and proof lists exactly the verified statements, each with its own
    issuer, window and claim, and nothing of a status attestation; and wherever a policy is decided, TIME passed
    and the not-expired requirement is met. -/
theorem projection_agrees (primitives : Primitives) (order : HashOrder) (bytes : Bytes) :
    (∀ ctx proof report, (decodeStrict bytes ctx.limits >>= cborToProof ctx.limits) = .ok proof →
      verifyProof primitives order ctx bytes = .ok report →
      CollisionFree primitives
        (proof.attestations.map fun stored => encodeCanonical (attestationToCbor stored.content)) →
      ∃ state, stateFromReportAndProof primitives report proof = .ok state ∧
        AgreesWithReport primitives ctx proof report state) ∧
    ∀ ctx policy revocations decision,
      verifyAndEvaluate primitives order bytes ctx policy revocations = .ok decision →
      decision.outcome.decision ≠ .indeterminate →
        NoFailure decision.report.checks [.time] ∧
          Satisfies decision.state { EvalInputs.ofContext ctx with revocations } .notExpired := by
  constructor
  · intro ctx proof report read done collisionFree
    obtain ⟨_, _, _, _, stages⟩ := stagesRan_of_read read done
    exact stages.agreesWithReport (attestationIds_determine read collisionFree)
  · intro ctx policy revocations decision done decided
    exact verifyAndEvaluate_decided done decided

end ProofEngine
