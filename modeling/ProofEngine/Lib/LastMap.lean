import Mathlib.Data.List.Basic

/-! # Maps collected from pairs

Collecting pairs into a map keeps the last value of each key.  Where the pairs name one value per
key, the map says the same as membership. -/

namespace LastMap

variable {κ α : Type}

def lastValue [DecidableEq κ] (pairs : List (κ × α)) (key : κ) : Option α := pairs.reverse.lookup key

/-- One value for each key. -/
def Functional (pairs : List (κ × α)) : Prop :=
  ∀ key left right, (key, left) ∈ pairs → (key, right) ∈ pairs → left = right

theorem Functional.filter {pairs : List (κ × α)} (functional : Functional pairs) (keep : κ × α → Bool) :
    Functional (pairs.filter keep) :=
  fun key left right leftMember rightMember =>
    functional key left right (List.mem_of_mem_filter leftMember) (List.mem_of_mem_filter rightMember)

theorem lastValue_eq_none [DecidableEq κ] {pairs : List (κ × α)} {key : κ} :
    lastValue pairs key = none ↔ ∀ value, (key, value) ∉ pairs := by
  simp only [lastValue, List.lookup_eq_none_iff, List.mem_reverse, bne_iff_ne, ne_eq, Prod.forall]
  exact ⟨fun fresh value member => fresh key value member rfl,
    fun fresh other value member same => fresh value (same ▸ member)⟩

theorem mem_of_lastValue [DecidableEq κ] {pairs : List (κ × α)} {key : κ} {value : α}
    (found : lastValue pairs key = some value) : (key, value) ∈ pairs := by
  obtain ⟨before, after, split, _⟩ := List.lookup_eq_some_iff.mp found
  rw [← List.mem_reverse, split]
  exact List.mem_append_right _ List.mem_cons_self

theorem lastValue_eq_some [DecidableEq κ] {pairs : List (κ × α)} (functional : Functional pairs) {key : κ}
    {value : α} :
    lastValue pairs key = some value ↔ (key, value) ∈ pairs := by
  refine ⟨mem_of_lastValue, fun member => ?_⟩
  cases found : lastValue pairs key with
  | none => exact absurd member (lastValue_eq_none.mp found value)
  | some other => rw [functional key other value (mem_of_lastValue found) member]

theorem Functional.perm {pairs others : List (κ × α)} (functional : Functional pairs) (perm : others.Perm pairs) :
    Functional others :=
  fun key left right leftMember rightMember =>
    functional key left right (perm.subset leftMember) (perm.subset rightMember)

/-- Where each key has one value, the order of the pairs does not matter. -/
theorem lastValue_perm [DecidableEq κ] {pairs others : List (κ × α)} (functional : Functional pairs)
    (perm : others.Perm pairs) : lastValue others = lastValue pairs := by
  funext key
  apply Option.ext
  intro value
  rw [lastValue_eq_some functional, lastValue_eq_some (functional.perm perm)]
  exact perm.mem_iff

/-- Values computed from their entries are computed from the last entry. -/
theorem lastValue_map [DecidableEq κ] {β : Type} (compute : κ × α → β) (pairs : List (κ × α)) (key : κ) :
    lastValue (pairs.map fun pair => (pair.1, compute pair)) key =
      (lastValue pairs key).map fun value => compute (key, value) := by
  rw [lastValue, lastValue, ← List.map_reverse]
  induction pairs.reverse with
  | nil => rfl
  | cons pair rest inductionHypothesis =>
    obtain ⟨other, value⟩ := pair
    simp only [List.map_cons, List.lookup_cons]
    by_cases same : key = other
    · subst same
      simp
    · simp only [beq_false_of_ne same, inductionHypothesis]

end LastMap
