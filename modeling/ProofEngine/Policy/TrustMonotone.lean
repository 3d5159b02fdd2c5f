import ProofEngine.Policy.Authority
import ProofEngine.Policy.Combine
import ProofEngine.Policy.MemberOrder

/-! # More trust passes no less

No requirement reads the trust list negatively, so without negation a policy that passes goes on passing when
the caller trusts more issuers. -/

namespace ProofEngine

/-- The expression contains no `not`. -/
inductive PolicyExpr.NotFree : PolicyExpr → Prop where
  | leaf (requirement : Requirement) : NotFree (.leaf requirement)
  | all {children : List PolicyExpr} (each : ∀ child ∈ children, child.NotFree) : NotFree (.all children)
  | any {children : List PolicyExpr} (each : ∀ child ∈ children, child.NotFree) : NotFree (.any children)
  | threshold (k : Nat) {options : List PolicyExpr} (each : ∀ child ∈ options, child.NotFree) :
      NotFree (.threshold k options)

theorem PolicyExpr.Holds.mono {leafHolds moreHold : Requirement → Prop}
    (imp : ∀ requirement, leafHolds requirement → moreHold requirement) {expression : PolicyExpr}
    (notFree : expression.NotFree) (holds : expression.Holds leafHolds) : expression.Holds moreHold := by
  induction notFree with
  | leaf requirement =>
    rw [PolicyExpr.Holds] at holds ⊢
    exact imp requirement holds
  | all _ inductionHypothesis =>
    rw [PolicyExpr.Holds] at holds ⊢
    intro child member
    exact inductionHypothesis child member (holds child member)
  | any _ inductionHypothesis =>
    rw [PolicyExpr.Holds] at holds ⊢
    obtain ⟨child, member, childHolds⟩ := holds
    exact ⟨child, member, inductionHypothesis child member childHolds⟩
  | threshold k _ inductionHypothesis =>
    rw [PolicyExpr.Holds] at holds ⊢
    -- the same selection still holds
    obtain ⟨selected, sub, enough, each⟩ := holds
    exact ⟨selected, sub, enough, fun child member =>
      inductionHypothesis child (sub.subset member) (each child member)⟩

section
variable {state : VerifiedState} {inputs : EvalInputs} {more : List String}
  (wider : inputs.trustedIssuers ⊆ more)
include wider

theorem contains_wider {issuer : String} (listed : inputs.trustedIssuers.contains issuer = true) :
    more.contains issuer = true :=
  List.contains_iff_mem.mpr (wider (List.contains_iff_mem.mp listed))

theorem satisfies_issuerTrusted {issuer : String} (holds : Satisfies state inputs (.issuerTrusted issuer)) :
    Satisfies state { inputs with trustedIssuers := more } (.issuerTrusted issuer) := by
  obtain ⟨result, done, passed⟩ := holds
  simp only [evalOne] at done
  by_cases listed : inputs.trustedIssuers.contains issuer = true
  · simp only [listed, Bool.not_true, Bool.false_eq_true, if_false] at done
    refine ⟨result, ?_, passed⟩
    simp only [evalOne, contains_wider wider listed, Bool.not_true, Bool.false_eq_true, if_false]
    exact done
  · simp only [listed, Bool.not_false, if_true] at done
    cases done
    cases passed

/-- The chain itself does not depend on the trust list, only its root does. -/
theorem satisfies_delegatedAuthority {root issuer : String} {scope : Option String}
    (holds : Satisfies state inputs (.delegatedAuthority root issuer scope)) :
    Satisfies state { inputs with trustedIssuers := more } (.delegatedAuthority root issuer scope) := by
  obtain ⟨result, done, passed⟩ := holds
  simp only [evalOne, evalDelegated] at done
  by_cases listed : inputs.trustedIssuers.contains root = true
  · simp only [listed, Bool.not_true, Bool.false_eq_true, if_false] at done
    refine ⟨result, ?_, passed⟩
    simp only [evalOne, evalDelegated, contains_wider wider listed, Bool.not_true, Bool.false_eq_true, if_false]
    exact done
  · simp only [listed, Bool.not_false, if_true] at done
    cases done
    cases passed

/-- The results may name different paths, but both pass. -/
theorem satisfies_identityBound {a b : String} (holds : Satisfies state inputs (.identityBound a b)) :
    Satisfies state { inputs with trustedIssuers := more } (.identityBound a b) := by
  obtain ⟨result, done, passed⟩ := holds
  simp only [evalOne, bind_eq_ok] at done
  obtain ⟨path, found, done⟩ := done
  cases path with
  | none =>
    cases done
    cases passed
  | some nodes =>
    obtain ⟨others, foundMore⟩ : SameIdentity state { inputs with trustedIssuers := more } a b :=
      SameIdentity.mono wider ⟨nodes, found⟩
    have doneMore : evalOne state { inputs with trustedIssuers := more } (.identityBound a b)
        = .ok (passWith (Requirement.identityBound a b).describe
            (a ++ " ≡ " ++ b ++ " via " ++ toString (others.length - 1) ++ " trusted binding(s)")) := by
      simp only [evalOne, foundMore, ok_bind]
    exact ⟨_, doneMore, rfl⟩

theorem satisfies_wider {requirement : Requirement} (holds : Satisfies state inputs requirement) :
    Satisfies state { inputs with trustedIssuers := more } requirement := by
  cases requirement with
  | issuerTrusted issuer => exact satisfies_issuerTrusted wider holds
  | delegatedAuthority root issuer scope => exact satisfies_delegatedAuthority wider holds
  | identityBound a b => exact satisfies_identityBound wider holds
  | notExpired =>
    -- the windows are tested against the clock, which is the same
    obtain ⟨result, done, passed⟩ := holds
    cases done
    refine ⟨_, rfl, ?_⟩
    have sameWindows : ∀ windows,
        firstUntimely { inputs with trustedIssuers := more } windows = none ↔ firstUntimely inputs windows = none := by
      intro windows
      rw [firstUntimely_eq_none, firstUntimely_eq_none]
    rw [evalNotExpired] at passed ⊢
    cases untimely : firstUntimely inputs (state.attestationIds.zip state.attestationTimes) with
    | some message =>
      rw [untimely] at passed
      cases passed
    | none =>
      rw [(sameWindows _).mpr untimely]
      rfl
  | _ => exact holds

theorem holds_wider {policy : Policy}
    (notFree : policy.version = 2 → ∀ expression, policy.expression = some expression → expression.NotFree)
    (holds : policy.Holds state inputs) : policy.Holds state { inputs with trustedIssuers := more } := by
  rw [Policy.Holds] at holds ⊢
  by_cases second : policy.version = 2
  · rw [if_pos second] at holds ⊢
    obtain ⟨expression, found, expressionHolds⟩ := holds
    exact ⟨expression, found,
      expressionHolds.mono (fun _ => satisfies_wider wider) (notFree second expression found)⟩
  · rw [if_neg second] at holds ⊢
    intro requirement member
    exact satisfies_wider wider (holds requirement member)

end

/-- A policy without negation that passes under one trust list passes under every longer one. -/
theorem trust_monotone (state : VerifiedState) (policy : Policy) (inputs : EvalInputs) (more : List String)
    (wider : inputs.trustedIssuers ⊆ more)
    (notFree : policy.version = 2 → ∀ expression, policy.expression = some expression → expression.NotFree)
    (outcome : PolicyOutcome) (done : evaluatePolicy state policy inputs = .ok outcome)
    (passed : outcome.decision = .pass) :
    ∃ outcome', evaluatePolicy state policy { inputs with trustedIssuers := more } = .ok outcome' ∧
      outcome'.decision = .pass := by
  obtain ⟨crypto, evidence, holds⟩ := evaluatePolicy_pass done passed
  obtain ⟨outcome', done', decided⟩ := evaluatePolicy_decision state { inputs with trustedIssuers := more } policy
  refine ⟨outcome', done', ?_⟩
  have expressed : ¬ (policy.version = 2 ∧ policy.expression = none) := by
    rintro ⟨second, bare⟩
    rw [Policy.Holds, if_pos second] at holds
    obtain ⟨expression, found, _⟩ := holds
    cases bare.symm.trans found
  rw [decided, crypto, evidence, if_neg expressed, if_pos (holds_wider wider notFree holds)]
  rfl

/-- Either of two issuers, in version 2. -/
def eitherIssuer (other : String) : Policy where
  version := 2
  id := "either"
  requirements := []
  expression := some (.threshold 1 [.leaf (.issuerTrusted testIssuer), .leaf (.issuerTrusted other)])

theorem eitherIssuer_passes :
    ((verifyAndEvaluate signedPrimitives .inserted signedProofBytes signedContext (eitherIssuer "key:other")
      .empty).map fun decision => decision.outcome.decision) = .ok .pass := by
  decide +kernel

theorem eitherIssuer_monotone :
    ∃ decision outcome, verifyAndEvaluate signedPrimitives .inserted signedProofBytes signedContext
        (eitherIssuer "key:other") .empty = .ok decision ∧
      evaluatePolicy decision.state (eitherIssuer "key:other")
        { EvalInputs.ofContext signedContext with trustedIssuers := ["key:other", testIssuer] } = .ok outcome ∧
      outcome.decision = .pass := by
  obtain ⟨decision, done, passed⟩ := map_eq_ok.mp eitherIssuer_passes
  have parts := done
  simp only [verifyAndEvaluate, bind_eq_ok, Result.lift_eq_ok] at parts
  obtain ⟨_, _, _, _, _, _, _, _, state, _, outcome, evaluated, parts⟩ := parts
  cases parts
  obtain ⟨outcome', done', passed'⟩ := trust_monotone state (eitherIssuer "key:other")
    (EvalInputs.ofContext signedContext) ["key:other", testIssuer] (by simp [EvalInputs.ofContext, signedContext])
    (by
      rintro _ expression found
      cases found
      refine .threshold 1 fun child member => ?_
      simp only [List.mem_cons, List.not_mem_nil, or_false] at member
      rcases member with rfl | rfl <;> exact .leaf _)
    outcome evaluated passed
  exact ⟨_, outcome', done, done', passed'⟩

end ProofEngine
