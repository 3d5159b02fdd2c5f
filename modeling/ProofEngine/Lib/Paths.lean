import Mathlib.Data.List.Chain
import Mathlib.Data.List.Nodup
import Mathlib.Logic.Relation

/-! # Paths of a relation

A path is the list of its nodes.  Levels that rise by one along a path and by at most one along any step
show that the path is a shortest one. -/

namespace ProofEngine.Paths

open Relation

variable {α : Type*} {step other : α → α → Prop} {first last : α} {nodes : List α}

/-- A list of nodes from `first` to `last`, each a step after the one before it. -/
structure IsPath (step : α → α → Prop) (first last : α) (nodes : List α) : Prop where
  starts : nodes.head? = some first
  ends : nodes.getLast? = some last
  along : nodes.IsChain step

/-- A path without repeated nodes that no other path between its ends is shorter than. -/
structure IsShortest (step : α → α → Prop) (first last : α) (nodes : List α) : Prop
    extends IsPath step first last nodes where
  nodup : nodes.Nodup
  least : ∀ others, IsPath step first last others → nodes.length ≤ others.length

theorem IsPath.singleton (node : α) : IsPath step node node [node] := ⟨rfl, rfl, .singleton node⟩

theorem IsPath.cons (path : IsPath step first last nodes) {before : α} (arc : step before first) :
    IsPath step before last (before :: nodes) := by
  obtain ⟨starts, ends, along⟩ := path
  cases nodes with
  | nil => cases starts
  | cons node rest =>
    cases starts
    exact ⟨rfl, by rw [List.getLast?_cons_cons, ends], List.isChain_cons_cons.mpr ⟨arc, along⟩⟩

/-- A path is a single node, or a step and a path. -/
theorem IsPath.cases_cons (path : IsPath step first last nodes) :
    (first = last ∧ nodes = [first]) ∨
      ∃ next rest, nodes = first :: rest ∧ step first next ∧ IsPath step next last rest := by
  obtain ⟨starts, ends, along⟩ := path
  cases nodes with
  | nil => cases starts
  | cons node rest =>
    cases starts
    cases rest with
    | nil =>
      cases ends
      exact .inl ⟨rfl, rfl⟩
    | cons next rest =>
      obtain ⟨arc, along⟩ := List.isChain_cons_cons.mp along
      rw [List.getLast?_cons_cons] at ends
      exact .inr ⟨next, next :: rest, rfl, arc, rfl, ends, along⟩

theorem IsPath.mono (imp : ∀ left right, step left right → other left right)
    (path : IsPath step first last nodes) : IsPath other first last nodes :=
  ⟨path.starts, path.ends, path.along.imp imp⟩

theorem IsPath.reach (path : IsPath step first last nodes) : ReflTransGen step first last := by
  induction nodes generalizing first with
  | nil => cases path.starts
  | cons node rest inductionHypothesis =>
    obtain ⟨rfl, _⟩ | ⟨next, later, same, arc, path⟩ := path.cases_cons
    · exact .refl
    · cases same
      exact .head arc (inductionHypothesis path)

theorem exists_path_iff : (∃ nodes, IsPath step first last nodes) ↔ ReflTransGen step first last := by
  constructor
  · rintro ⟨nodes, path⟩
    exact path.reach
  · intro reach
    induction reach using ReflTransGen.head_induction_on with
    | refl => exact ⟨_, .singleton _⟩
    | head arc _ inductionHypothesis =>
      obtain ⟨nodes, path⟩ := inductionHypothesis
      exact ⟨_, path.cons arc⟩

/-! ## Levels -/

section
variable {level : α → Nat}

/-- Where levels rise by one with each step, they count the nodes and never come back. -/
theorem IsPath.climb
    (path : IsPath (fun left right => step left right ∧ level right = level left + 1) first last nodes) :
    level last + 1 = level first + nodes.length ∧ nodes.Nodup ∧ ∀ node ∈ nodes, level first ≤ level node := by
  induction nodes generalizing first with
  | nil => cases path.starts
  | cons node rest inductionHypothesis =>
    obtain ⟨rfl, same⟩ | ⟨next, later, same, arc, path⟩ := path.cases_cons
    · simp [same]
    · cases same
      obtain ⟨length, nodup, above⟩ := inductionHypothesis path
      refine ⟨?_, List.nodup_cons.mpr ⟨fun inside => ?_, nodup⟩, ?_⟩
      · rw [List.length_cons]
        omega
      · have higher := above _ inside
        omega
      · intro other member
        rcases List.mem_cons.mp member with rfl | inside
        · exact le_rfl
        · have higher := above other inside
          omega

/-- Where every step from below the end rises by one at most, a path has a node for each level. -/
theorem IsPath.level_le {reached : α → Prop}
    (expanded : ∀ node next, reached node → level node < level last → step node next →
      reached next ∧ level next ≤ level node + 1)
    (path : IsPath step first last nodes) (start : reached first) :
    level last + 1 ≤ level first + nodes.length := by
  induction nodes generalizing first with
  | nil => cases path.starts
  | cons node rest inductionHypothesis =>
    rw [List.length_cons]
    by_cases below : level first < level last
    · obtain ⟨rfl, _⟩ | ⟨next, later, same, arc, path⟩ := path.cases_cons
      · omega
      · cases same
        obtain ⟨here, rises⟩ := expanded _ _ start below arc
        have enough := inductionHypothesis path here
        omega
    · omega

end

end ProofEngine.Paths
