import ProofEngine.Verify.GraphVerdict

/-! # Verification always ends in a report

Misuse is rejected before any byte is read.  After that no stage can fail: a parsed proof can be encoded
again, and every walk over its graph ends in a verdict. -/

namespace ProofEngine

/-- Remote access was asked for, or an input list is over its limit. -/
def Misused (ctx : VerifyCtx) : Prop :=
  ctx.allowRemote = true ∨ ctx.limits.maxStatusObjects.toNat < ctx.statusObjects.length ∨
    ctx.limits.maxTrustedIssuers.toNat < ctx.trustedIssuers.length ∨
    ctx.limits.maxRevocationAuthorities.toNat < ctx.revocationAuthorities.length

theorem checkInputs_cases (ctx : VerifyCtx) :
    (¬ Misused ctx ∧ checkInputs ctx = .ok ()) ∨ (Misused ctx ∧ ∃ failure, checkInputs ctx = .error failure) := by
  unfold checkInputs
  split
  · rename_i remote
    exact Or.inr ⟨Or.inl remote, _, rfl⟩
  · rename_i noRemote
    split
    · rename_i status
      exact Or.inr ⟨Or.inr (Or.inl status), _, rfl⟩
    · rename_i noStatus
      split
      · rename_i issuers
        exact Or.inr ⟨Or.inr (Or.inr (Or.inl issuers)), _, rfl⟩
      · rename_i noIssuers
        split
        · rename_i authorities
          exact Or.inr ⟨Or.inr (Or.inr (Or.inr authorities)), _, rfl⟩
        · rename_i noAuthorities
          exact Or.inl ⟨by simp only [Misused, not_or]; exact ⟨noRemote, noStatus, noIssuers, noAuthorities⟩, rfl⟩

section
variable (primitives : Primitives) (order : HashOrder) (ctx : VerifyCtx) (bytes : Bytes)

variable {primitives order ctx bytes} in
theorem checkInputs_of_done {report : VerifyReport} (done : verifyProof primitives order ctx bytes = .ok report) :
    checkInputs ctx = .ok () := by
  rw [verifyProof, bind_eq_ok] at done
  obtain ⟨_, checked, _⟩ := done
  exact Result.lift_eq_ok.mp checked

/-- The members of a parsed proof can be encoded again. -/
theorem recompute_of_parsed {limits : Limits} {value : CborValue} {proof : Proof}
    (parsed : cborToProof limits value = .ok proof) :
    (∃ eventIds, proof.events.mapM (memberEventId primitives) = .ok eventIds) ∧
      ∃ recomputed, recomputedProofId primitives proof = .ok recomputed := by
  have versions := cborToProof_versions parsed
  exact ⟨⟨_, mapM_memberEventId primitives versions⟩, ⟨_, recomputedProofId_eq primitives versions⟩⟩

variable {ctx} in
theorem verifyProof_of_inputs (inputs : checkInputs ctx = .ok ()) :
    ∃ report, verifyProof primitives order ctx bytes = .ok report := by
  cases decoded : decodeStrict bytes ctx.limits with
  | error failure =>
    simp only [verifyProof, inputs, Result.lift, ok_bind, decoded]
    exact ⟨_, rfl⟩
  | ok value =>
    cases parsed : cborToProof ctx.limits value with
    | error failure =>
      simp only [verifyProof, inputs, Result.lift, ok_bind, decoded, parsed]
      exact ⟨_, rfl⟩
    | ok proof =>
      -- re-encoding can only fail on a version, and parsing accepted version 1 alone
      obtain ⟨⟨eventIds, events⟩, recomputed, named⟩ := recompute_of_parsed primitives parsed
      obtain ⟨graph, graphDone⟩ := graphChecks_total primitives order ctx proof
        (memberNodes primitives proof eventIds)
      exact ⟨_, verifyProof_of_stages inputs decoded parsed events named graphDone⟩

theorem verifyProof_cases :
    (¬ Misused ctx ∧ ∃ report, verifyProof primitives order ctx bytes = .ok report) ∨
      (Misused ctx ∧ ∃ failure, verifyProof primitives order ctx bytes = .error (.error failure)) := by
  obtain ⟨proper, inputs⟩ | ⟨misused, failure, inputs⟩ := checkInputs_cases ctx
  · exact Or.inl ⟨proper, verifyProof_of_inputs primitives order bytes inputs⟩
  · refine Or.inr ⟨misused, failure, ?_⟩
    simp only [verifyProof, inputs, Result.lift, error_bind]

end

/-- The missing-entry errors of the supersession walk are never raised. -/
theorem checkSupersedes_ne_invariantError (order : HashOrder) (edges : List EdgeRecord) (limits : Limits)
    (what : String) : checkSupersedes order edges limits ≠ graphInvariantError what := by
  obtain ⟨_, passes⟩ | ⟨node, _, reported⟩ | ⟨_, _, verdict⟩ := checkSupersedes_cases order edges limits
  · intro raised
    rw [passes] at raised
    cases raised
  · rw [reported]
    simp [branchError, graphInvariantError, Result.lift, ErrorCode.err]
  · generalize checkSupersedes order edges limits = outcome at verdict
    cases verdict with
    -- the verdicts carry codes and messages of their own
    | cyclic _ => simp [supersedesCycleError, graphInvariantError, ErrorCode.err]
    | tooLong _ _ _ => simp [chainTooLongError, graphInvariantError, ErrorCode.err]
    | fits _ _ _ =>
      intro raised
      cases raised

/-- Verification fails exactly on misuse, with an error of its own, and otherwise returns a report; on the
    way no walk over the graph panics, runs on or misses an entry of its tables, and every parsed proof can
    be encoded again. -/
theorem verifyProof_total (primitives : Primitives) (order : HashOrder) (ctx : VerifyCtx) (bytes : Bytes) :
    ((∃ failure, verifyProof primitives order ctx bytes = .error failure) ↔ Misused ctx) ∧
    (∀ failure, verifyProof primitives order ctx bytes = .error failure → ∃ error, failure = .error error) ∧
    (¬ Misused ctx → ∃ report, verifyProof primitives order ctx bytes = .ok report) ∧
    (∀ edges nodes, Settles (checkDerivationAcyclic order edges nodes) ∧
      Settles (checkAcyclicProvenance order edges nodes) ∧ Settles (checkSupersedes order edges ctx.limits) ∧
      ∀ what, checkSupersedes order edges ctx.limits ≠ graphInvariantError what) ∧
    ∀ value proof, decodeStrict bytes ctx.limits = .ok value → cborToProof ctx.limits value = .ok proof →
      (∃ eventIds, proof.events.mapM (memberEventId primitives) = .ok eventIds) ∧
        ∃ recomputed, recomputedProofId primitives proof = .ok recomputed := by
  refine ⟨?_, ?_, ?_, ?_, fun value proof _ parsed => recompute_of_parsed primitives parsed⟩
  · obtain ⟨proper, report, done⟩ | ⟨misused, failure, done⟩ := verifyProof_cases primitives order ctx bytes
    · refine ⟨fun ⟨failure, failed⟩ => ?_, fun misused => absurd misused proper⟩
      rw [done] at failed
      cases failed
    · exact ⟨fun _ => misused, fun _ => ⟨_, done⟩⟩
  · intro failure failed
    obtain ⟨_, report, done⟩ | ⟨_, error, done⟩ := verifyProof_cases primitives order ctx bytes
    · rw [done] at failed
      cases failed
    · rw [done] at failed
      cases failed
      exact ⟨error, rfl⟩
  · intro proper
    -- misuse is excluded, so the run is of the first kind
    obtain ⟨_, returns⟩ | ⟨misused, _⟩ := verifyProof_cases primitives order ctx bytes
    · exact returns
    · exact absurd misused proper
  · intro edges nodes
    exact ⟨checkAcyclic_settles _ _ _ _, checkAcyclic_settles _ _ _ _, checkSupersedes_settles _ _ _,
      checkSupersedes_ne_invariantError order edges ctx.limits⟩

end ProofEngine
