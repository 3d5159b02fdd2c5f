import ProofEngine.Policy.Eval
import ProofEngine.Verify.PipelineSound

/-! # Verify and decide in one call

One context feeds the pipeline and the policy, so that they cannot be run on different proofs, clocks
or trust lists. -/

namespace ProofEngine

structure VerifiedDecision where
  report : VerifyReport
  state : VerifiedState
  outcome : PolicyOutcome
  deriving DecidableEq, Repr

/-- The bounds of the one-call gate. -/
def checkGateInputs (ctx : VerificationContext) (revocations : RevocationSet) : Result Unit :=
  if ctx.limits.maxTrustedIssuers.toNat < ctx.trustedIssuers.length then
    tooManyInputsError "trusted_issuers" ctx.trustedIssuers.length ctx.limits.maxTrustedIssuers
  else if ctx.limits.maxStatusObjects.toNat < revocations.revoked.length then
    .error (ErrorCode.limitExceeded.err
      ("revocations count " ++ toString revocations.revoked.length ++ " exceeds max_status_objects " ++
        toString ctx.limits.maxStatusObjects))
  else .ok ()

section
variable (primitives : Primitives) (order : HashOrder)

def verifyAndEvaluate (bytes : Bytes) (ctx : VerificationContext) (policy : Policy)
    (revocations : RevocationSet) : Outcome VerifiedDecision := do
  Result.lift (checkGateInputs ctx revocations)
  let report ← verifyProof primitives order ctx.toVerifyCtx bytes
  let value ← Result.lift (decodeStrict bytes ctx.limits)
  let proof ← Result.lift (cborToProof ctx.limits value)
  let state ← Result.lift (stateFromReportAndProof primitives report proof)
  let outcome ← evaluatePolicy state policy { EvalInputs.ofContext ctx with revocations }
  .ok { report, state, outcome }

end

/-! ## PASS is sound -/

theorem stateFromReportAndProof_copies {primitives : Primitives} {report : VerifyReport} {proof : Proof}
    {state : VerifiedState} (projected : stateFromReportAndProof primitives report proof = .ok state) :
    state.cryptoValid = decide (report.cryptographicValidity = .valid) ∧
      state.evidenceValid = decide (report.evidenceValidity = .valid) ∧ state.proofCreatedAt = proof.createdAt := by
  simp only [stateFromReportAndProof] at projected
  split at projected
  · cases projected
  · split at projected
    · cases projected
    · cases projected
      exact ⟨rfl, rfl, rfl⟩

/-- A stored id that passes IDENTIFIERS is the recomputed one. -/
theorem identifierCheck_ok {proof : Proof} {recomputed : String}
    (passed : (identifierCheck proof recomputed).ok = true) : recomputed = proof.proofId := by
  by_contra other
  rw [identifierCheck, if_pos other] at passed
  cases passed

section
variable {primitives : Primitives} {order : HashOrder} {ctx : VerifyCtx} {bytes : Bytes} {value : CborValue}
  {proof : Proof} {eventIds : List String} {recomputed : String} {graph : List CheckRecord}
  {report : VerifyReport}

theorem StagesRan.noFailure
    (stages : StagesRan primitives order ctx bytes value proof eventIds recomputed graph report)
    (crypto : report.cryptographicValidity = .valid) (evidence : report.evidenceValidity = .valid) :
    NoFailure report.checks (cryptoStages ++ evidenceStages) := by
  rw [stages.reported] at crypto evidence ⊢
  simp only [finalize, if_true, stageValid_eq_valid] at crypto evidence
  intro check member inside
  rcases List.mem_append.mp inside with inside | inside
  · exact crypto check member inside
  · exact evidence check member inside

theorem StagesRan.memberCheck_mem
    (stages : StagesRan primitives order ctx bytes value proof eventIds recomputed graph report)
    {check : CheckRecord} (member : check ∈ memberChecks primitives ctx proof eventIds recomputed graph) :
    check ∈ report.checks := by
  rw [stages.reported]
  exact List.mem_append_left _ (List.mem_append_right _ member)

/-- In a report without failures the stored id is the recomputed one. -/
theorem StagesRan.proofId_recomputed
    (stages : StagesRan primitives order ctx bytes value proof eventIds recomputed graph report)
    (clean : NoFailure report.checks (cryptoStages ++ evidenceStages)) :
    report.proofId = some recomputed := by
  have member : identifierCheck proof recomputed ∈
      memberChecks primitives ctx proof eventIds recomputed graph := by
    simp only [memberChecks, List.mem_append, List.mem_singleton, true_or]
  have passed := clean _ (stages.memberCheck_mem member) (by rw [identifierCheck_stage]; decide)
  rw [identifierCheck_ok passed, stages.proofId_eq]

/-- In a report without failures every attestation is verified. -/
theorem StagesRan.all_verified
    (stages : StagesRan primitives order ctx bytes value proof eventIds recomputed graph report)
    (clean : NoFailure report.checks (cryptoStages ++ evidenceStages)) {stored : StoredAttestation}
    (member : stored ∈ proof.attestations) :
    (attestationMemberId primitives stored.content, stored.content) ∈ verifiedSet primitives ctx proof := by
  have signaturesClean : NoFailure (signatureChecks primitives ctx proof) [.signatures, .keys] := by
    intro check checkMember inside
    refine clean check (stages.memberCheck_mem ?_) ?_
    · simp only [memberChecks, List.mem_append, checkMember, true_or, or_true]
    · exact (show [Stage.signatures, .keys] ⊆ cryptoStages ++ evidenceStages by decide) inside
  rw [verifiedSet_all signaturesClean]
  exact List.mem_map_of_mem member

/-- The parts of a PASS of the one-call gate. -/
theorem verifyAndEvaluate_passed {ctx : VerificationContext} {policy : Policy} {revocations : RevocationSet}
    {decision : VerifiedDecision}
    (done : verifyAndEvaluate primitives order bytes ctx policy revocations = .ok decision)
    (passed : decision.outcome.decision = .pass) :
    checkGateInputs ctx revocations = .ok () ∧
    verifyProof primitives order ctx.toVerifyCtx bytes = .ok decision.report ∧
    decision.report.cryptographicValidity = .valid ∧ decision.report.evidenceValidity = .valid ∧
    ∃ value proof eventIds recomputed graph,
      StagesRan primitives order ctx.toVerifyCtx bytes value proof eventIds recomputed graph
        decision.report ∧
      stateFromReportAndProof primitives decision.report proof = .ok decision.state ∧
      policy.Holds decision.state { EvalInputs.ofContext ctx with revocations } := by
  simp only [verifyAndEvaluate, bind_eq_ok, Result.lift_eq_ok] at done
  obtain ⟨_, gate, report, verified, value, decoded, proof, parsed, state, projected, outcome, evaluated, done⟩ :=
    done
  cases done
  obtain ⟨cryptoValid, evidenceValid, holds⟩ := evaluatePolicy_pass evaluated passed
  obtain ⟨crypto, evidence, _⟩ := stateFromReportAndProof_copies projected
  rw [crypto, decide_eq_true_eq] at cryptoValid
  rw [evidence, decide_eq_true_eq] at evidenceValid
  have read : (decodeStrict bytes ctx.toVerifyCtx.limits >>= cborToProof ctx.toVerifyCtx.limits) = .ok proof :=
    bind_eq_ok.mpr ⟨value, decoded, parsed⟩
  obtain ⟨_, eventIds, recomputed, graph, stages⟩ := stagesRan_of_read read verified
  exact ⟨gate, verified, cryptoValid, evidenceValid, _, proof, eventIds, recomputed, graph, stages, projected, holds⟩

end

/-- A PASS of the one-call gate: the report is valid, all stages ran without a failure on the proof
    that the bytes spell, its id is the one recomputed from its content, all its attestations are
    verified, and the policy holds on the state projected from this report and this proof. -/
theorem verifyAndEvaluate_pass (primitives : Primitives) (order : HashOrder) (bytes : Bytes)
    (ctx : VerificationContext) (policy : Policy) (revocations : RevocationSet) (decision : VerifiedDecision)
    (done : verifyAndEvaluate primitives order bytes ctx policy revocations = .ok decision)
    (passed : decision.outcome.decision = .pass) :
    decision.report.cryptographicValidity = .valid ∧ decision.report.evidenceValidity = .valid ∧
    NoFailure decision.report.checks (cryptoStages ++ evidenceStages) ∧
    ∃ value proof eventIds recomputed graph,
      StagesRan primitives order ctx.toVerifyCtx bytes value proof eventIds recomputed graph
        decision.report ∧
      decision.report.proofId = some recomputed ∧
      (∀ stored ∈ proof.attestations, (attestationMemberId primitives stored.content, stored.content) ∈
        verifiedSet primitives ctx.toVerifyCtx proof) ∧
      stateFromReportAndProof primitives decision.report proof = .ok decision.state ∧
      policy.Holds decision.state { EvalInputs.ofContext ctx with revocations } := by
  obtain ⟨_, _, crypto, evidence, value, proof, eventIds, recomputed, graph, stages, projected, holds⟩ :=
    verifyAndEvaluate_passed done passed
  have clean := stages.noFailure crypto evidence
  exact ⟨crypto, evidence, clean, value, proof, eventIds, recomputed, graph, stages, stages.proofId_recomputed clean,
    fun _ => stages.all_verified clean, projected, holds⟩

/-- The issuer of the signed statement is trusted and the statement is timely. -/
def signedPolicy : Policy where
  version := 1
  id := "settled"
  requirements := [.signatureValid, .issuerTrusted testIssuer, .notExpired]
  expression := none

theorem signedProof_decided :
    ((verifyAndEvaluate signedPrimitives .inserted signedProofBytes signedContext signedPolicy .empty).map
      fun decision => decision.outcome.decision) = .ok .pass := by
  decide +kernel

theorem signedProof_passes :
    ∃ decision, verifyAndEvaluate signedPrimitives .inserted signedProofBytes signedContext signedPolicy
        .empty = .ok decision ∧
      decision.report.cryptographicValidity = .valid ∧ decision.report.evidenceValidity = .valid ∧
      signedPolicy.Holds decision.state (EvalInputs.ofContext signedContext) := by
  obtain ⟨decision, done, passed⟩ := map_eq_ok.mp signedProof_decided
  obtain ⟨crypto, evidence, _, _, _, _, _, _, _, _, _, _, holds⟩ :=
    verifyAndEvaluate_pass _ _ _ _ _ _ decision done passed
  exact ⟨decision, done, crypto, evidence, holds⟩

end ProofEngine
