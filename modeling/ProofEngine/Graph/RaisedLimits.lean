import ProofEngine.Format.RaisedLimits
import ProofEngine.Graph.Chains

/-! # Accepted input under raised limits -/

namespace ProofEngine

open ResultOrder

/-- The length of the longest chain does not depend on the hash order. -/
theorem checkSupersedes_ok_order {order : HashOrder} (order' : HashOrder) {edges : List EdgeRecord}
    {limits : Limits} {longest : Nat} (done : checkSupersedes order edges limits = .ok longest) :
    checkSupersedes order' edges limits = .ok longest := by
  obtain ⟨empty, passes⟩ | ⟨node, branches, reported⟩ | ⟨linked, linear, verdict⟩ :=
    checkSupersedes_cases order edges limits
  · rw [← done, passes]
    simp [checkSupersedes, empty]
  · rw [reported] at done
    cases done
  · obtain ⟨empty, _⟩ | ⟨node, branches, _⟩ | ⟨_, _, other⟩ := checkSupersedes_cases order' edges limits
    · exact absurd empty linked
    · exact absurd branches (linear_iff_not_branches.mp linear node)
    · rw [← done]
      exact other.unique verdict

section
variable {lower upper : Limits}

theorem checkSupersedes_extends (below : lower.Below upper) (order order' : HashOrder) (edges : List EdgeRecord) :
    Extends (checkSupersedes order edges lower) (checkSupersedes order' edges upper) := by
  have sameOrder : Extends (checkSupersedes order edges lower) (checkSupersedes order edges upper) := by
    refine Extends.ite (.refl _) ?_
    refine (Extends.refl _).bind fun _ => (Extends.refl _).bind fun state => Extends.ite (.refl _) ?_
    exact Extends.guard (toNat_lt_of_le below.maxDepth) (.refl _)
  intro longest done
  exact checkSupersedes_ok_order order' (sameOrder longest done)

theorem validateGraphWithGrounding_extends (below : lower.Below upper) (order order' : HashOrder)
    (edges : List EdgeRecord) (nodes : NodeSet) (extraGrounded : Option (List String)) :
    Extends (validateGraphWithGrounding order edges nodes lower extraGrounded)
      (validateGraphWithGrounding order' edges nodes upper extraGrounded) := by
  refine Extends.guard (toNat_lt_of_le below.maxEdges) ?_
  refine Extends.guard (toNat_lt_of_le below.maxNodes) ?_
  refine (Extends.refl _).bind fun endpoints => ?_
  refine Extends.guard (toNat_lt_of_le below.maxNodes) ?_
  exact (checkSupersedes_extends below order order' edges).bind fun _ => .refl _

end

/-- Raising limits keeps every result of the decoder, the proof parser and the graph checks, whatever the
    hash orders of the two runs. -/
theorem raisedLimits_keep (lower upper : Limits) (below : lower.Below upper) :
    (∀ bytes value, decodeStrict bytes lower = .ok value → decodeStrict bytes upper = .ok value) ∧
    (∀ value proof, cborToProof lower value = .ok proof → cborToProof upper value = .ok proof) ∧
    ∀ order order' edges nodes extraGrounded graph,
      validateGraphWithGrounding order edges nodes lower extraGrounded = .ok graph →
        validateGraphWithGrounding order' edges nodes upper extraGrounded = .ok graph := by
  refine ⟨decodeStrict_extends below, cborToProof_extends below, ?_⟩
  intro order order' edges nodes extraGrounded
  exact validateGraphWithGrounding_extends below order order' edges nodes extraGrounded

/-- One more level of nesting than by default. -/
theorem raisedDepth_keeps :
    Limits.default.Below { Limits.default with maxDepth := 17 } ∧
      decodeStrict [0x81, 0x01] { Limits.default with maxDepth := 17 } = .ok (.array [.uint 1]) := by
  have below : Limits.default.Below { Limits.default with maxDepth := 17 } := by
    constructor <;> decide
  exact ⟨below, (raisedLimits_keep _ _ below).1 _ _ rfl⟩

end ProofEngine
