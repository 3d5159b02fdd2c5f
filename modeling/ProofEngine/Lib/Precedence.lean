import Mathlib.Data.List.Basic

/-! # Orders of precedence

The first choice in a list that applies. -/

namespace Precedence

variable {α : Type} {applies : α → Prop} {choice head : α} {order : List α}

/-- `choice` applies and nothing before it in the order does. -/
def IsFirst (order : List α) (applies : α → Prop) (choice : α) : Prop :=
  ∃ earlier later, order = earlier ++ choice :: later ∧ applies choice ∧ ∀ other ∈ earlier, ¬ applies other

theorem not_isFirst_nil : ¬ IsFirst [] applies choice := by
  rintro ⟨earlier, later, split, _⟩
  simp at split

theorem isFirst_cons :
    IsFirst (head :: order) applies choice ↔
      (choice = head ∧ applies head) ∨ ¬ applies head ∧ IsFirst order applies choice := by
  constructor
  · rintro ⟨earlier, later, split, holds, first⟩
    cases earlier with
    | nil =>
      obtain ⟨rfl, _⟩ := List.cons.inj split
      exact .inl ⟨rfl, holds⟩
    | cons other earlier =>
      obtain ⟨rfl, rest⟩ := List.cons.inj split
      obtain ⟨notHead, first⟩ := List.forall_mem_cons.mp first
      exact .inr ⟨notHead, earlier, later, rest, holds, first⟩
  · rintro (⟨rfl, holds⟩ | ⟨notHead, earlier, later, rfl, holds, first⟩)
    · exact ⟨[], order, rfl, holds, by simp⟩
    · exact ⟨head :: earlier, later, rfl, holds, List.forall_mem_cons.mpr ⟨notHead, first⟩⟩

/-- At most one choice is first. -/
theorem IsFirst.unique {other : α} (first : IsFirst order applies choice) (second : IsFirst order applies other) :
    choice = other := by
  induction order with
  | nil => exact absurd first not_isFirst_nil
  | cons head order inductionHypothesis =>
    rw [isFirst_cons] at first second
    by_cases holds : applies head
    · obtain ⟨rfl, _⟩ := first.resolve_right fun later => later.1 holds
      obtain ⟨rfl, _⟩ := second.resolve_right fun later => later.1 holds
      rfl
    · exact inductionHypothesis (first.resolve_left fun here => holds here.2).2
        (second.resolve_left fun here => holds here.2).2

end Precedence
