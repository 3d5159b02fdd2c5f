import ProofEngine.Policy.Canonical

/-! # The shape of accepted expressions

The parser of expressions pays one node for every node it returns, and lets no connective through that would
hold, or fail, whatever its operands say. -/

namespace ProofEngine

mutual

def PolicyExpr.nodeCount : PolicyExpr → Nat
  | .leaf _ => 1
  | .all children => 1 + nodeCounts children
  | .any children => 1 + nodeCounts children
  | .not child => 1 + child.nodeCount
  | .threshold _ options => 1 + nodeCounts options

def PolicyExpr.nodeCounts : List PolicyExpr → Nat
  | [] => 0
  | child :: children => child.nodeCount + nodeCounts children

end

/-- Every `all`, `any` and `threshold` of the expression has operands, and every threshold asks for some of them
    but for no more than there are. -/
inductive PolicyExpr.NonVacuous : PolicyExpr → Prop where
  | leaf (requirement : Requirement) : NonVacuous (.leaf requirement)
  | all {children : List PolicyExpr} (nonempty : children ≠ []) (each : ∀ child ∈ children, NonVacuous child) :
      NonVacuous (.all children)
  | any {children : List PolicyExpr} (nonempty : children ≠ []) (each : ∀ child ∈ children, NonVacuous child) :
      NonVacuous (.any children)
  | not {child : PolicyExpr} (below : NonVacuous child) : NonVacuous (.not child)
  | threshold {k : Nat} {options : List PolicyExpr} (nonempty : options ≠ []) (positive : 1 ≤ k)
      (reachable : k ≤ options.length) (each : ∀ child ∈ options, NonVacuous child) :
      NonVacuous (.threshold k options)

/-- A parser that pays for the nodes it returns and returns no vacuous one. -/
def ExpressionParser.Exact (parse : ExpressionParser) : Prop :=
  ∀ json what budget expression rest, parse json what budget = .ok (expression, rest) →
    rest + expression.nodeCount = budget ∧ expression.NonVacuous

section
variable {primitives : Primitives} {parse : ExpressionParser} {budget rest : Nat} {expression : PolicyExpr}

/-- The budget goes from one operand to the next, so that together they cost the sum of their nodes. -/
theorem parseOperands_exact (exact : parse.Exact) {place : String} {items : List Json} :
    ∀ {index budget rest : Nat} {operands : List PolicyExpr},
      parseOperands parse place index items budget = .ok (operands, rest) →
        rest + PolicyExpr.nodeCounts operands = budget ∧ operands.length = items.length ∧
          ∀ operand ∈ operands, operand.NonVacuous := by
  induction items with
  | nil =>
    intro index budget rest operands done
    cases done
    simp [PolicyExpr.nodeCounts]
  | cons item items inductionHypothesis =>
    intro index budget rest operands done
    simp only [parseOperands, bind_eq_ok] at done
    obtain ⟨⟨operand, left⟩, first, ⟨others, _⟩, parsed, done⟩ := done
    cases done
    obtain ⟨paid, shape⟩ := exact _ _ _ _ _ first
    obtain ⟨othersPaid, length, shapes⟩ := inductionHypothesis parsed
    refine ⟨?_, by simp [length], List.forall_mem_cons.mpr ⟨shape, shapes⟩⟩
    simp only [PolicyExpr.nodeCounts]
    omega

theorem NodeParse.exact (exact : parse.Exact) (node : NodeParse parse budget expression rest) :
    rest + expression.nodeCount = budget + 1 ∧ expression.NonVacuous := by
  have operandsOf : ∀ {place : String} {items : List Json} {operands : List PolicyExpr}, items ≠ [] →
      parseOperands parse place 0 items budget = .ok (operands, rest) → operands ≠ [] := by
    intro place items operands nonempty parsed empty
    have length := (parseOperands_exact exact parsed).2.1
    rw [empty] at length
    exact nonempty (List.length_eq_zero_iff.mp length.symm)
  cases node with
  | leaf requirement => exact ⟨rfl, .leaf requirement⟩
  | all nonempty parsed =>
    obtain ⟨paid, _, shapes⟩ := parseOperands_exact exact parsed
    refine ⟨?_, .all (operandsOf nonempty parsed) shapes⟩
    simp only [PolicyExpr.nodeCount]
    omega
  | any nonempty parsed =>
    obtain ⟨paid, _, shapes⟩ := parseOperands_exact exact parsed
    refine ⟨?_, .any (operandsOf nonempty parsed) shapes⟩
    simp only [PolicyExpr.nodeCount]
    omega
  | not parsed =>
    obtain ⟨paid, shape⟩ := exact _ _ _ _ _ parsed
    refine ⟨?_, .not shape⟩
    simp only [PolicyExpr.nodeCount]
    omega
  | @threshold _ _ operands _ k positive reachable parsed =>
    obtain ⟨paid, length, shapes⟩ := parseOperands_exact exact parsed
    have demanding : 1 ≤ k.toNat := Nat.one_le_iff_ne_zero.mpr fun zero => positive (UInt64.toNat_inj.mp zero)
    have nonempty : operands ≠ [] := by
      intro empty
      rw [empty] at length
      simp only [List.length_nil] at length
      omega
    refine ⟨?_, .threshold nonempty demanding (length.symm ▸ reachable) shapes⟩
    simp only [PolicyExpr.nodeCount]
    omega

theorem parseExpressionWithin_exact (levels : Nat) : (parseExpressionWithin primitives levels).Exact := by
  induction levels with
  | zero =>
    intro json what budget expression rest done
    cases done
  | succ levels inductionHypothesis =>
    intro json what budget expression rest done
    cases budget with
    | zero => cases done
    | succ budget =>
      cases json with
      | object entries => exact (parseNode_cases done).exact inductionHypothesis
      | _ => cases done

end

/-- What an accepted expression cost, and its shape; an accepted policy of version 2 stays within the limit. -/
theorem parseExpression_exact (primitives : Primitives) :
    (∀ json what budget expression rest, parseExpression primitives json what budget = .ok (expression, rest) →
      expression.nodeCount ≤ budget ∧ rest = budget - expression.nodeCount ∧ expression.NonVacuous) ∧
    ∀ limits json policy, parsePolicy primitives limits json = .ok policy → policy.version = 2 →
      ∃ expression, policy.expression = some expression ∧
        expression.nodeCount ≤ limits.maxPolicyRequirements.toNat ∧ expression.NonVacuous := by
  have parsedExactly : ∀ json what budget expression rest,
      parseExpression primitives json what budget = .ok (expression, rest) →
        expression.nodeCount ≤ budget ∧ rest = budget - expression.nodeCount ∧ expression.NonVacuous := by
    intro json what budget expression rest done
    obtain ⟨paid, shape⟩ := parseExpressionWithin_exact budget json what budget expression rest done
    refine ⟨?_, ?_, shape⟩ <;> omega
  refine ⟨parsedExactly, fun limits json policy accepted second => ?_⟩
  obtain ⟨_, _, rfl⟩ | ⟨_, json, expression, rest, rfl, parsed⟩ := parsePolicy_cases accepted
  · cases second
  · obtain ⟨within, _, shape⟩ := parsedExactly _ _ _ _ _ parsed
    exact ⟨expression, rfl, within, shape⟩

def unexpiredExpression : Json := .object [("any", .array [.object [("type", .string "not_expired")]])]

/-- An expression of two nodes, and a policy. -/
theorem unexpiredExpression_exact :
    (parseExpression (Primitives.ofTable [] []) unexpiredExpression "expression" 5 =
        .ok (.any [.leaf .notExpired], 3) ∧
      3 = 5 - (PolicyExpr.any [.leaf .notExpired]).nodeCount) ∧
    parsePolicy (Primitives.ofTable [] []) Limits.default (scopedPolicy []) = .ok (scopedMachinePolicy none) ∧
    ∃ expression, (scopedMachinePolicy none).expression = some expression ∧
      expression.nodeCount ≤ Limits.default.maxPolicyRequirements.toNat ∧ expression.NonVacuous := by
  have parsed : parseExpression (Primitives.ofTable [] []) unexpiredExpression "expression" 5 =
      .ok (.any [.leaf .notExpired], 3) := rfl
  have accepted : parsePolicy (Primitives.ofTable [] []) Limits.default (scopedPolicy []) =
      .ok (scopedMachinePolicy none) := rfl
  exact ⟨⟨parsed, ((parseExpression_exact _).1 _ _ _ _ _ parsed).2.1⟩,
    accepted, (parseExpression_exact _).2 _ _ _ accepted rfl⟩

end ProofEngine
