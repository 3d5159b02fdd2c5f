import ProofEngine.Policy.Projection
import ProofEngine.Policy.Combine
import ProofEngine.Verify.ResolveSearch

/-! # Decisions without a clock

A verifier without a clock passes zero.  TIME then fails for every verified statement, and
`proof_fresh` fails by itself; `not_expired` only looks at the statements, so it is satisfied
by a proof that has none. -/

namespace ProofEngine

/-- The requirements that depend on the clock. -/
def Requirement.isTimed : Requirement → Bool
  | .notExpired => true
  | .proofFresh _ => true
  | _ => false

/-- The expression is a conjunction, possibly of conjunctions, with the requirement among its terms. -/
inductive PolicyExpr.Conjoins (requirement : Requirement) : PolicyExpr → Prop where
  | leaf : Conjoins requirement (.leaf requirement)
  | all {children : List PolicyExpr} {child : PolicyExpr} (member : child ∈ children)
      (inside : Conjoins requirement child) : Conjoins requirement (.all children)

/-- The policy cannot hold unless the requirement does. -/
def Policy.Demands (policy : Policy) (requirement : Requirement) : Prop :=
  (policy.version = 1 ∧ requirement ∈ policy.requirements) ∨
    policy.version = 2 ∧ ∃ expression, policy.expression = some expression ∧ expression.Conjoins requirement

def Policy.TimeBound (policy : Policy) : Prop :=
  ∃ requirement, requirement.isTimed = true ∧ policy.Demands requirement

theorem PolicyExpr.Conjoins.holds {requirement : Requirement} {expression : PolicyExpr}
    {leafHolds : Requirement → Prop} (inside : expression.Conjoins requirement)
    (holds : expression.Holds leafHolds) : leafHolds requirement := by
  induction inside with
  | leaf => simpa only [PolicyExpr.Holds] using holds
  | all member _ inductionHypothesis =>
    simp only [PolicyExpr.Holds] at holds
    exact inductionHypothesis (holds _ member)

theorem Policy.Demands.satisfies {policy : Policy} {requirement : Requirement} {state : VerifiedState}
    {inputs : EvalInputs} (demands : policy.Demands requirement) (holds : policy.Holds state inputs) :
    Satisfies state inputs requirement := by
  rw [Policy.Holds] at holds
  rcases demands with ⟨first, member⟩ | ⟨second, expression, found, inside⟩
  · rw [if_neg (by rw [first]; decide)] at holds
    exact holds requirement member
  · rw [if_pos second] at holds
    obtain ⟨other, otherFound, otherHolds⟩ := holds
    cases found.symm.trans otherFound
    exact inside.holds otherHolds

/-! ## The gate at clock zero -/

section
variable (primitives : Primitives) (order : HashOrder) (bytes : Bytes) (ctx : VerificationContext)
  (revocations : RevocationSet)

/-- The gate does not answer PASS. -/
def NeverPasses (policy : Policy) : Prop :=
  ∀ decision, verifyAndEvaluate primitives order bytes ctx policy revocations = .ok decision →
    decision.outcome.decision ≠ .pass

/-- The gate takes its inputs and the proof, which verifies but has no statement. -/
structure ValidWithoutStatements : Prop where
  gate : checkGateInputs ctx revocations = .ok ()
  silent : ∃ proof, (decodeStrict bytes ctx.limits >>= cborToProof ctx.limits) = .ok proof ∧
    ∀ stored ∈ proof.attestations, isStatement stored.content = false
  valid : ∃ report, verifyProof primitives order ctx.toVerifyCtx bytes = .ok report ∧
    report.cryptographicValidity = .valid ∧ report.evidenceValidity = .valid

end

section
variable {primitives : Primitives} {order : HashOrder} {bytes : Bytes} {ctx : VerificationContext}
  {revocations : RevocationSet} {policy : Policy} {value : CborValue} {proof : Proof} {eventIds : List String}
  {recomputed : String} {graph : List CheckRecord} {report : VerifyReport}

/-- Without a clock no statement is timely, so a report without failures is about a proof that has none. -/
theorem StagesRan.noStatements
    (stages : StagesRan primitives order ctx.toVerifyCtx bytes value proof eventIds recomputed graph report)
    (clock : ctx.verifiedAt = 0) (clean : NoFailure report.checks (cryptoStages ++ evidenceStages)) :
    ∀ stored ∈ proof.attestations, isStatement stored.content = false := by
  intro stored member
  by_contra statement
  rw [Bool.not_eq_false] at statement
  have verified := stages.all_verified clean member
  have untimely : timeValidity ctx.toVerifyCtx stored.content =
      .error "no trustworthy clock: verified_at=0 (timeliness cannot be established)" := if_pos clock
  have checked : timeCheck ctx.toVerifyCtx (attestationMemberId primitives stored.content, stored.content) ∈
      memberChecks primitives ctx.toVerifyCtx proof eventIds recomputed graph := by
    have listed : (attestationMemberId primitives stored.content, stored.content) ∈
        statements (verifiedSet primitives ctx.toVerifyCtx proof) := List.mem_filter.mpr ⟨verified, statement⟩
    have inTime := List.mem_map_of_mem (f := timeCheck ctx.toVerifyCtx) listed
    simp only [memberChecks, List.mem_append]
    exact .inl (.inl (.inl (.inl (.inl (.inl (.inr inTime))))))
  have passed := clean _ (stages.memberCheck_mem checked)
  simp only [timeCheck, untimely, CheckRecord.fail] at passed
  cases passed (by decide)

/-- Nothing is projected from a proof without statements. -/
theorem StagesRan.stateStatements_nil
    (stages : StagesRan primitives order ctx.toVerifyCtx bytes value proof eventIds recomputed graph report)
    (clean : NoFailure report.checks (cryptoStages ++ evidenceStages))
    (silent : ∀ stored ∈ proof.attestations, isStatement stored.content = false) :
    stateStatements primitives report proof = [] := by
  rw [stateStatements, List.filter_eq_nil_iff]
  rintro ⟨id, content⟩ member
  obtain ⟨stored, storedMember, rfl, rfl⟩ := mem_namedAttestations.mp member
  have listed : attestationMemberId primitives stored.content ∈ report.statusObjects :=
    stages.mem_statusObjects.mpr ⟨stored.content, mem_verifiedSet.mp (stages.all_verified clean storedMember),
      silent stored storedMember⟩
  simp [listed]

/-- Whoever demands a requirement about time gets a PASS at clock zero only from a proof without statements. -/
theorem validWithoutStatements_of_pass {decision : VerifiedDecision} (clock : ctx.verifiedAt = 0)
    (done : verifyAndEvaluate primitives order bytes ctx policy revocations = .ok decision)
    (passed : decision.outcome.decision = .pass) :
    ValidWithoutStatements primitives order bytes ctx revocations ∧
      policy.Holds decision.state { EvalInputs.ofContext ctx with revocations } := by
  obtain ⟨gate, verified, crypto, evidence, _, proof, _, _, _, stages, _, holds⟩ :=
    verifyAndEvaluate_passed done passed
  have silent := stages.noStatements clock (stages.noFailure crypto evidence)
  have read : (decodeStrict bytes ctx.limits >>= cborToProof ctx.limits) = .ok proof :=
    bind_eq_ok.mpr ⟨_, stages.decoded, stages.parsed⟩
  exact ⟨⟨gate, ⟨proof, read, silent⟩, ⟨decision.report, verified, crypto, evidence⟩⟩, holds⟩

/-- Freshness is never established without a clock. -/
theorem not_satisfies_proofFresh {state : VerifiedState} {inputs : EvalInputs} (clock : inputs.verifiedAt = 0)
    (maxAgeSeconds : UInt64) : ¬ Satisfies state inputs (.proofFresh maxAgeSeconds) := by
  rintro ⟨result, done, passed⟩
  simp only [evalOne, clock, if_true] at done
  cases done
  cases passed

/-- Satisfied as soon as there is nothing to look at. -/
theorem evalOne_notExpired_nil {state : VerifiedState} {inputs : EvalInputs} (empty : state.attestationIds = []) :
    ∃ result, evalOne state inputs .notExpired = .ok result ∧ result.passed = true := by
  refine ⟨_, rfl, ?_⟩
  rw [evalNotExpired, empty]
  rfl

/-- `not_expired` alone, as a policy of either version. -/
def timelyPolicy (version : UInt8) : Policy where
  version
  id := "timely"
  requirements := if version = 2 then [] else [.notExpired]
  expression := if version = 2 then some (.all [.leaf .notExpired]) else none

theorem timelyPolicy_timeBound : (timelyPolicy 1).TimeBound ∧ (timelyPolicy 2).TimeBound :=
  ⟨⟨.notExpired, rfl, .inl ⟨rfl, List.mem_cons_self⟩⟩,
    ⟨.notExpired, rfl, .inr ⟨rfl, _, rfl, .all List.mem_cons_self .leaf⟩⟩⟩

theorem ValidWithoutStatements.passes (accepted : ValidWithoutStatements primitives order bytes ctx revocations) :
    ∃ decision, verifyAndEvaluate primitives order bytes ctx (timelyPolicy 1) revocations = .ok decision ∧
      decision.outcome.decision = .pass := by
  obtain ⟨proof, read, silent⟩ := accepted.silent
  obtain ⟨report, verified, crypto, evidence⟩ := accepted.valid
  obtain ⟨value, decoded, parsed⟩ := bind_eq_ok.mp read
  obtain ⟨_, _, _, _, stages⟩ := stagesRan_of_read read verified
  obtain ⟨state, projected, lists, _⟩ := stages.projectedState
  obtain ⟨cryptoValid, evidenceValid, _⟩ := stateFromReportAndProof_copies projected
  simp only [crypto, decide_true] at cryptoValid
  simp only [evidence, decide_true] at evidenceValid
  -- every attestation is a status object, so the state has no validity window to look at
  have empty : state.attestationIds = [] := by
    rw [lists.attestationIds, stages.stateStatements_nil (stages.noFailure crypto evidence) silent]
    rfl
  obtain ⟨result, resultDone, passed⟩ := @evalOne_notExpired_nil state
    { EvalInputs.ofContext ctx with revocations } empty
  have evaluated : evaluatePolicy state (timelyPolicy 1) { EvalInputs.ofContext ctx with revocations } =
      .ok { policyId := "timely", decision := .pass, note := none, results := [result] } := by
    simp [evaluatePolicy, timelyPolicy, cryptoValid, evidenceValid, resultDone, passed]
  have done : verifyAndEvaluate primitives order bytes ctx (timelyPolicy 1) revocations = .ok
      ⟨report, state, { policyId := "timely", decision := .pass, note := none, results := [result] }⟩ := by
    simp only [verifyAndEvaluate, accepted.gate, verified, decoded, parsed, projected, evaluated, Result.lift,
      ok_bind]
  exact ⟨_, done, rfl⟩

end

/-- Without a clock a demand on time keeps the gate from PASS exactly where the proof has a statement or
    is turned down for another reason; a demand for freshness always does. -/
theorem zeroClock_exact (primitives : Primitives) (order : HashOrder) (bytes : Bytes)
    (ctx : VerificationContext) (revocations : RevocationSet) (clock : ctx.verifiedAt = 0) :
    ((∀ policy : Policy, policy.TimeBound → NeverPasses primitives order bytes ctx revocations policy) ↔
      ¬ ValidWithoutStatements primitives order bytes ctx revocations) ∧
    ∀ (policy : Policy) maxAgeSeconds, policy.Demands (.proofFresh maxAgeSeconds) →
      NeverPasses primitives order bytes ctx revocations policy := by
  refine ⟨⟨?_, ?_⟩, ?_⟩
  · intro never accepted
    obtain ⟨decision, done, passed⟩ := accepted.passes
    exact never _ timelyPolicy_timeBound.1 decision done passed
  · intro refused policy _ decision done passed
    exact refused (validWithoutStatements_of_pass clock done passed).1
  · intro policy maxAgeSeconds demands decision done passed
    have holds := (validWithoutStatements_of_pass clock done passed).2
    exact not_satisfies_proofFresh clock maxAgeSeconds (demands.satisfies holds)

theorem leafProof_timely : ∀ version ∈ [1, 2],
    ((verifyAndEvaluate linkedPrimitives .inserted (bytesOf leafProof) VerificationContext.default
      (timelyPolicy version) .empty).map fun decision => decision.outcome.decision) = .ok .pass := by
  decide +kernel

/-- The default clock is zero, and a proof without attestations satisfies `not_expired` there. -/
theorem zeroClock_passes :
    VerificationContext.default.verifiedAt = 0 ∧ (timelyPolicy 1).TimeBound ∧ (timelyPolicy 2).TimeBound ∧
      ¬ NeverPasses linkedPrimitives .inserted (bytesOf leafProof) VerificationContext.default .empty
        (timelyPolicy 1) ∧
      ¬ NeverPasses linkedPrimitives .inserted (bytesOf leafProof) VerificationContext.default .empty
        (timelyPolicy 2) := by
  have passes : ∀ version ∈ [1, 2], ¬ NeverPasses linkedPrimitives .inserted (bytesOf leafProof)
      VerificationContext.default .empty (timelyPolicy version) := by
    intro version member never
    obtain ⟨decision, done, passed⟩ := map_eq_ok.mp (leafProof_timely version member)
    exact never decision done passed
  exact ⟨rfl, timelyPolicy_timeBound.1, timelyPolicy_timeBound.2, passes 1 (by decide), passes 2 (by decide)⟩

/-- A proof with a statement is not passed without a clock. -/
theorem signedProof_zeroClock :
    NeverPasses signedPrimitives .inserted signedProofBytes { signedContext with verifiedAt := 0 } .empty
        (timelyPolicy 1) ∧
      NeverPasses signedPrimitives .inserted signedProofBytes { signedContext with verifiedAt := 0 } .empty
        (timelyPolicy 2) := by
  have never := (zeroClock_exact signedPrimitives .inserted signedProofBytes { signedContext with verifiedAt := 0 }
    .empty rfl).1.mpr (by
      rintro ⟨_, ⟨proof, read, silent⟩, _⟩
      cases signedProof_read.symm.trans read
      exact absurd (silent _ List.mem_cons_self) (by decide))
  exact ⟨never _ timelyPolicy_timeBound.1, never _ timelyPolicy_timeBound.2⟩

end ProofEngine
