import Mathlib.Data.List.Dedup
import Mathlib.Data.List.Perm.Basic
import Mathlib.Data.List.Flatten
import Mathlib.Data.Fintype.Card
import Mathlib.Data.Set.Finite.Basic
import Mathlib.Logic.Relation

/-! # Finite directed graphs

A graph is the list of its arcs.  The first part is about cycles; the second about linear graphs, where
no node has two successors or two predecessors: such a graph without cycles falls apart into disjoint
paths, and the depth of a node is its place on its path. -/

namespace ProofEngine.DirectedGraph

open Relation

variable {α : Type*}

def Arc (arcs : List (α × α)) (source target : α) : Prop := (source, target) ∈ arcs

/-- The node lies on a directed cycle. -/
def OnCycle (arcs : List (α × α)) (node : α) : Prop := TransGen (Arc arcs) node node

def Acyclic (arcs : List (α × α)) : Prop := ∀ node, ¬ OnCycle arcs node

section Cycles

variable {arcs others : List (α × α)}

theorem arc_mono (subset : arcs ⊆ others) {source target : α} (arc : Arc arcs source target) :
    Arc others source target := subset arc

theorem onCycle_mono (subset : arcs ⊆ others) {node : α} (cycle : OnCycle arcs node) :
    OnCycle others node :=
  TransGen.mono (fun _ _ arc => arc_mono subset arc) node node cycle

theorem acyclic_mono (subset : arcs ⊆ others) (acyclic : Acyclic others) : Acyclic arcs :=
  fun node cycle => acyclic node (onCycle_mono subset cycle)

theorem acyclic_perm (perm : arcs.Perm others) : Acyclic arcs ↔ Acyclic others :=
  ⟨acyclic_mono perm.symm.subset, acyclic_mono perm.subset⟩

theorem reach_mono (subset : arcs ⊆ others) {source target : α} (reach : ReflTransGen (Arc arcs) source target) :
    ReflTransGen (Arc others) source target :=
  ReflTransGen.mono (fun _ _ arc => arc_mono subset arc) source target reach

theorem reach_perm (perm : arcs.Perm others) {source target : α} :
    ReflTransGen (Arc arcs) source target ↔ ReflTransGen (Arc others) source target :=
  ⟨reach_mono perm.subset, reach_mono perm.symm.subset⟩

/-- What is closed under arcs contains everything reachable from its elements. -/
theorem closed_of_reach {holds : α → Prop}
    (closed : ∀ source target, holds source → Arc arcs source target → holds target) {source target : α}
    (start : holds source) (reach : ReflTransGen (Arc arcs) source target) : holds target := by
  induction reach with
  | refl => exact start
  | tail _ arc inductionHypothesis => exact closed _ _ inductionHypothesis arc

theorem exists_arc_of_onCycle {node : α} (cycle : OnCycle arcs node) :
    ∃ next, Arc arcs node next ∧ ReflTransGen (Arc arcs) next node :=
  TransGen.head'_iff.mp cycle

end Cycles

/-! ## Linear graphs -/

/-- No node has two successors or two predecessors. -/
structure Linear (arcs : List (α × α)) : Prop where
  sources : (arcs.map Prod.fst).Nodup
  targets : (arcs.map Prod.snd).Nodup

theorem linear_perm {arcs others : List (α × α)} (perm : arcs.Perm others) : Linear arcs ↔ Linear others := by
  constructor
  · intro linear
    exact ⟨(perm.map _).nodup_iff.mp linear.sources, (perm.map _).nodup_iff.mp linear.targets⟩
  · intro linear
    exact ⟨(perm.map _).nodup_iff.mpr linear.sources, (perm.map _).nodup_iff.mpr linear.targets⟩

theorem Linear.same_source {arcs : List (α × α)} (linear : Linear arcs) {left right target : α}
    (leftArc : Arc arcs left target) (rightArc : Arc arcs right target) : left = right := by
  have same := List.inj_on_of_nodup_map linear.targets leftArc rightArc rfl
  exact congrArg Prod.fst same

theorem Linear.tail {arc : α × α} {arcs : List (α × α)} (linear : Linear (arc :: arcs)) : Linear arcs :=
  ⟨(List.nodup_cons.mp linear.sources).2, (List.nodup_cons.mp linear.targets).2⟩

/-- The arcs along a list of nodes. -/
def steps : List α → List (α × α)
  | first :: second :: rest => (first, second) :: steps (second :: rest)
  | _ => []

@[simp] theorem steps_singleton (node : α) : steps [node] = [] := rfl

theorem steps_join (front back : List α) (last first : α) :
    steps (front ++ last :: first :: back) = steps (front ++ [last]) ++ (last, first) :: steps (first :: back) := by
  induction front with
  | nil => rfl
  | cons node front inductionHypothesis =>
    cases front with
    | nil => rfl
    | cons second front =>
      simp only [List.cons_append, steps] at inductionHypothesis ⊢
      rw [inductionHypothesis]

/-- A path leads from its first node to its last. -/
theorem reach_of_steps {arcs : List (α × α)} {first last : α} {middle : List α}
    (along : steps (first :: middle) ⊆ arcs) (ends : (first :: middle).getLast? = some last) :
    ReflTransGen (Arc arcs) first last := by
  induction middle generalizing first with
  | nil =>
    simp only [List.getLast?_singleton, Option.some.injEq] at ends
    rw [ends]
  | cons second middle inductionHypothesis =>
    rw [steps, List.cons_subset] at along
    rw [List.getLast?_cons_cons] at ends
    exact ReflTransGen.head along.1 (inductionHypothesis along.2 ends)

/-- Disjoint simple paths through all `nodes` whose steps are exactly `arcs`. -/
structure DisjointPaths (nodes : List α) (arcs : List (α × α)) (paths : List (List α)) : Prop where
  covers : paths.flatten.Perm nodes
  along : (paths.flatMap steps).Perm arcs

section Decomposition

variable {nodes : List α} {arcs : List (α × α)} {paths : List (List α)}

theorem DisjointPaths.steps_subset (disjoint : DisjointPaths nodes arcs paths) {path : List α}
    (member : path ∈ paths) : steps path ⊆ arcs := by
  intro arc inside
  exact disjoint.along.subset (List.mem_flatMap.mpr ⟨path, member, inside⟩)

theorem DisjointPaths.exists_path (disjoint : DisjointPaths nodes arcs paths) {node : α}
    (member : node ∈ nodes) : ∃ path ∈ paths, node ∈ path :=
  List.mem_flatten.mp (disjoint.covers.symm.subset member)

/-- A node without successor ends its path. -/
theorem DisjointPaths.ends_with (disjoint : DisjointPaths nodes arcs paths) {node : α} {path : List α}
    (member : path ∈ paths) (inside : node ∈ path) (final : node ∉ arcs.map Prod.fst) :
    ∃ front, path = front ++ [node] := by
  obtain ⟨front, back, rfl⟩ := List.append_of_mem inside
  cases back with
  | nil => exact ⟨front, rfl⟩
  | cons next back =>
    have arc : (node, next) ∈ arcs := by
      apply disjoint.steps_subset member
      rw [steps_join]
      exact List.mem_append_right _ List.mem_cons_self
    exact absurd (List.mem_map_of_mem arc) final

/-- A node without predecessor starts its path. -/
theorem DisjointPaths.starts_with (disjoint : DisjointPaths nodes arcs paths) {node : α} {path : List α}
    (member : path ∈ paths) (inside : node ∈ path) (initial : node ∉ arcs.map Prod.snd) :
    ∃ back, path = node :: back := by
  obtain ⟨front, back, rfl⟩ := List.append_of_mem inside
  rcases List.eq_nil_or_concat front with rfl | ⟨front, previous, rfl⟩
  · exact ⟨back, rfl⟩
  · have arc : (previous, node) ∈ arcs := by
      apply disjoint.steps_subset member
      rw [List.concat_eq_append, List.append_assoc, List.singleton_append, steps_join]
      exact List.mem_append_right _ List.mem_cons_self
    exact absurd (List.mem_map_of_mem arc) initial

/-- An arc from the end of one path to the start of another joins the two. -/
theorem DisjointPaths.join {front back : List α} {rest : List (List α)} {last first : α}
    (disjoint : DisjointPaths nodes arcs ((front ++ [last]) :: (first :: back) :: rest)) :
    DisjointPaths nodes ((last, first) :: arcs) ((front ++ last :: first :: back) :: rest) where
  covers := by
    simpa only [List.flatten_cons, List.append_assoc, List.nil_append, List.cons_append]
      using disjoint.covers
  along := by
    have along := disjoint.along
    simp only [List.flatMap_cons, steps_join, List.append_assoc, List.cons_append] at along ⊢
    exact List.perm_middle.trans (along.cons _)

theorem disjointPaths_perm {others : List (List α)} (perm : paths.Perm others)
    (disjoint : DisjointPaths nodes arcs paths) : DisjointPaths nodes arcs others where
  covers := perm.flatten.symm.trans disjoint.covers
  along := (perm.flatMap_right steps).symm.trans disjoint.along

theorem exists_disjointPaths (linear : Linear arcs) (acyclic : Acyclic arcs)
    (within : ∀ arc ∈ arcs, arc.1 ∈ nodes ∧ arc.2 ∈ nodes) : ∃ paths, DisjointPaths nodes arcs paths := by
  classical
  induction arcs with
  | nil =>
    refine ⟨nodes.map fun node => [node], ?_, ?_⟩
    · rw [← List.flatMap_def, List.flatMap_singleton']
    · have stepless : (nodes.map fun node => [node]).flatMap steps = [] := by
        simp [List.flatMap_eq_nil_iff]
      rw [stepless]
  | cons arc arcs inductionHypothesis =>
    obtain ⟨last, first⟩ := arc
    have subset : arcs ⊆ (last, first) :: arcs := List.subset_cons_self _ _
    -- the paths along the other arcs; the new arc joins two of them
    obtain ⟨paths, disjoint⟩ := inductionHypothesis linear.tail (acyclic_mono subset acyclic)
      fun arc member => within arc (List.mem_cons_of_mem _ member)
    obtain ⟨lastMember, firstMember⟩ := within (last, first) List.mem_cons_self
    obtain ⟨left, leftMember, lastInside⟩ := disjoint.exists_path lastMember
    obtain ⟨right, rightMember, firstInside⟩ := disjoint.exists_path firstMember
    obtain ⟨front, rfl⟩ := disjoint.ends_with leftMember lastInside (List.nodup_cons.mp linear.sources).1
    obtain ⟨back, rfl⟩ := disjoint.starts_with rightMember firstInside (List.nodup_cons.mp linear.targets).1
    -- on one path the new arc would close a cycle
    have apart : first :: back ≠ front ++ [last] := by
      intro same
      have reach : ReflTransGen (Arc arcs) first last :=
        reach_of_steps (disjoint.steps_subset rightMember) (by rw [same, List.getLast?_concat])
      exact acyclic last (TransGen.head' List.mem_cons_self (reach.lift id fun _ _ => arc_mono subset))
    have perm : paths.Perm ((front ++ [last]) :: (first :: back) ::
        (paths.erase (front ++ [last])).erase (first :: back)) :=
      (List.perm_cons_erase leftMember).trans
        ((List.perm_cons_erase ((List.mem_erase_of_ne apart).mpr rightMember)).cons _)
    exact ⟨_, (disjointPaths_perm perm disjoint).join⟩

theorem map_fst_steps : ∀ path : List α, (steps path).map Prod.fst = path.dropLast
  | [] => rfl
  | [_] => rfl
  | first :: second :: rest => congrArg (first :: ·) (map_fst_steps (second :: rest))

theorem map_snd_steps : ∀ path : List α, (steps path).map Prod.snd = path.tail
  | [] => rfl
  | [_] => rfl
  | _ :: second :: rest => congrArg (second :: ·) (map_snd_steps (second :: rest))

/-- Parts of disjoint paths have no node in common. -/
theorem DisjointPaths.nodup_flatMap (disjoint : DisjointPaths nodes arcs paths) (distinct : nodes.Nodup)
    {part : List α → List α} (sub : ∀ path, (part path).Sublist path) : (paths.flatMap part).Nodup := by
  have all : (paths.flatMap part).Sublist paths.flatten := by
    clear disjoint
    induction paths with
    | nil => exact .refl _
    | cons path paths inductionHypothesis => exact (sub path).append inductionHypothesis
  exact all.nodup (disjoint.covers.nodup_iff.mpr distinct)

/-- The steps of disjoint simple paths do not branch. -/
theorem DisjointPaths.linear (disjoint : DisjointPaths nodes arcs paths) (distinct : nodes.Nodup) :
    Linear arcs := by
  constructor
  · apply (disjoint.along.map Prod.fst).nodup_iff.mp
    simp only [List.map_flatMap, map_fst_steps]
    exact disjoint.nodup_flatMap distinct List.dropLast_sublist
  · apply (disjoint.along.map Prod.snd).nodup_iff.mp
    simp only [List.map_flatMap, map_snd_steps]
    exact disjoint.nodup_flatMap distinct List.tail_sublist

/-- No step leads to the first node of a path. -/
theorem DisjointPaths.not_arc_first (disjoint : DisjointPaths nodes arcs paths) (distinct : nodes.Nodup) {first : α}
    {rest : List α} (member : first :: rest ∈ paths) (other : α) : ¬ Arc arcs other first := by
  intro arc
  have target : first ∈ paths.flatMap List.tail := by
    have found := (disjoint.along.map Prod.snd).symm.subset (List.mem_map_of_mem arc)
    simpa only [List.map_flatMap, map_snd_steps] using found
  obtain ⟨front, back, rfl⟩ := List.append_of_mem member
  have nodup := disjoint.covers.nodup_iff.mpr distinct
  rw [List.flatten_append, List.flatten_cons, List.cons_append, List.nodup_middle, List.nodup_cons] at nodup
  -- the other nodes of all paths are different from this one
  apply nodup.1
  simp only [List.flatMap_append, List.flatMap_cons, List.tail_cons, List.mem_append, List.mem_flatMap] at target
  simp only [List.mem_append, List.mem_flatten]
  rcases target with ⟨path, inside, found⟩ | found | ⟨path, inside, found⟩
  · exact .inl ⟨path, inside, List.mem_of_mem_tail found⟩
  · exact .inr (.inl found)
  · exact .inr (.inr ⟨path, inside, List.mem_of_mem_tail found⟩)

end Decomposition

/-! ## Depth -/

/-- The place of a node on a path that starts at a node without predecessor. -/
inductive Depth (arcs : List (α × α)) : α → Nat → Prop where
  | source {node : α} (initial : ∀ other, ¬ Arc arcs other node) : Depth arcs node 1
  | next {previous node : α} {depth : Nat} (before : Depth arcs previous depth)
    (arc : Arc arcs previous node) : Depth arcs node (depth + 1)

section Depth

variable {arcs : List (α × α)}

theorem Depth.unique (linear : Linear arcs) {node : α} {left right : Nat} (leftDepth : Depth arcs node left)
    (rightDepth : Depth arcs node right) : left = right := by
  induction leftDepth generalizing right with
  | source initial =>
    cases rightDepth with
    | source _ => rfl
    | next _ arc => exact absurd arc (initial _)
  | next before arc inductionHypothesis =>
    cases rightDepth with
    | source initial => exact absurd arc (initial _)
    | next otherBefore otherArc =>
      cases linear.same_source arc otherArc
      rw [inductionHypothesis otherBefore]

theorem Depth.reach {node other : α} {depth : Nat} (start : Depth arcs node depth)
    (reach : TransGen (Arc arcs) node other) : ∃ deeper, depth < deeper ∧ Depth arcs other deeper := by
  induction reach with
  | single arc => exact ⟨depth + 1, by omega, start.next arc⟩
  | tail _ arc inductionHypothesis =>
    obtain ⟨deeper, less, found⟩ := inductionHypothesis
    exact ⟨deeper + 1, by omega, found.next arc⟩

/-- A linear graph in which every node has a depth has no cycle. -/
theorem acyclic_of_depth (linear : Linear arcs)
    (reached : ∀ arc ∈ arcs, ∃ depth, Depth arcs arc.1 depth) : Acyclic arcs := by
  intro node cycle
  obtain ⟨next, arc, _⟩ := exists_arc_of_onCycle cycle
  obtain ⟨depth, start⟩ := reached _ arc
  -- once around the cycle the node would lie deeper than itself
  obtain ⟨deeper, less, again⟩ := start.reach cycle
  have same := start.unique linear again
  omega

/-- Without cycles every node has a depth: going back from predecessor to predecessor ends. -/
theorem exists_depth (acyclic : Acyclic arcs) (node : α) : ∃ depth, Depth arcs node depth := by
  classical
  let Back := fun left right : {node // node ∈ arcs.map Prod.fst} => TransGen (Arc arcs) left.1 right.1
  have trans : IsTrans _ Back := ⟨fun _ _ _ => TransGen.trans⟩
  have irrefl : Std.Irrefl Back := ⟨fun left => acyclic left.1⟩
  have finite : Finite {node // node ∈ arcs.map Prod.fst} := (List.finite_toSet _).to_subtype
  have wellFounded := Finite.wellFounded_of_trans_of_irrefl Back
  have one : ∀ node, (∀ previous, Arc arcs previous node → ∃ depth, Depth arcs previous depth) →
      ∃ depth, Depth arcs node depth := by
    intro node before
    by_cases initial : ∀ other, ¬ Arc arcs other node
    · exact ⟨1, .source initial⟩
    · push Not at initial
      obtain ⟨previous, arc⟩ := initial
      obtain ⟨depth, found⟩ := before previous arc
      exact ⟨depth + 1, found.next arc⟩
  -- a predecessor is the source of an arc, and of these there are finitely many
  have onSources : ∀ source : {node // node ∈ arcs.map Prod.fst}, ∃ depth, Depth arcs source.1 depth := by
    intro source
    induction source using wellFounded.induction with
    | h source inductionHypothesis =>
      apply one
      intro previous arc
      exact inductionHypothesis ⟨previous, List.mem_map_of_mem arc⟩ (TransGen.single arc)
  apply one
  intro previous arc
  exact onSources ⟨previous, List.mem_map_of_mem arc⟩

/-- Along a path that starts at some depth every node lies one deeper than the one before it. -/
theorem depth_of_steps {first node : α} {rest : List α} {depth place : Nat} (start : Depth arcs first depth)
    (along : steps (first :: rest) ⊆ arcs) (here : (first :: rest)[place]? = some node) :
    Depth arcs node (depth + place) := by
  induction rest generalizing first depth place with
  | nil =>
    cases place with
    | zero =>
      cases here
      exact start
    | succ place => cases here
  | cons second rest inductionHypothesis =>
    rw [steps, List.cons_subset] at along
    cases place with
    | zero =>
      cases here
      exact start
    | succ place =>
      rw [List.getElem?_cons_succ] at here
      have later := inductionHypothesis (start.next along.1) along.2 here
      exact (by omega : depth + 1 + place = depth + (place + 1)) ▸ later

/-- A path that starts at some depth leads as much deeper as it has further nodes. -/
theorem exists_depth_of_steps {first : α} {rest : List α} {depth : Nat} (start : Depth arcs first depth)
    (along : steps (first :: rest) ⊆ arcs) : ∃ node ∈ first :: rest, Depth arcs node (depth + rest.length) := by
  have inside : rest.length < (first :: rest).length := by simp
  exact ⟨(first :: rest)[rest.length], List.getElem_mem inside,
    depth_of_steps start along (List.getElem?_eq_getElem inside)⟩

/-- The place of a node on one of several disjoint paths is its depth. -/
theorem DisjointPaths.depth {nodes : List α} {paths : List (List α)} (disjoint : DisjointPaths nodes arcs paths)
    (distinct : nodes.Nodup) {path : List α} (member : path ∈ paths) {place : Nat} {node : α}
    (here : path[place]? = some node) : Depth arcs node (place + 1) := by
  cases path with
  | nil => cases here
  | cons first rest =>
    have start : Depth arcs first 1 := .source (disjoint.not_arc_first distinct member)
    rw [Nat.add_comm]
    exact depth_of_steps start (disjoint.steps_subset member) here

theorem DisjointPaths.acyclic {nodes : List α} {paths : List (List α)} (disjoint : DisjointPaths nodes arcs paths)
    (distinct : nodes.Nodup) : Acyclic arcs := by
  apply acyclic_of_depth (disjoint.linear distinct)
  intro arc inside
  obtain ⟨path, member, onPath⟩ := List.mem_flatMap.mp (disjoint.along.symm.subset inside)
  -- the source of a step lies on its path
  have source : arc.1 ∈ path := by
    have early : arc.1 ∈ (steps path).map Prod.fst := List.mem_map_of_mem onPath
    rw [map_fst_steps] at early
    exact List.dropLast_subset _ early
  obtain ⟨place, here⟩ := List.getElem?_of_mem source
  exact ⟨place + 1, disjoint.depth distinct member here⟩

theorem Depth.pos {node : α} {depth : Nat} (found : Depth arcs node depth) : 0 < depth := by
  cases found with
  | source _ => exact Nat.one_pos
  | next _ _ => exact Nat.succ_pos _

end Depth

end ProofEngine.DirectedGraph
