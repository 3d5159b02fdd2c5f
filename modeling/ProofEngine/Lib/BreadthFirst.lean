import Mathlib.Data.List.Nodup
import Mathlib.Order.Bounds.Basic

/-! # Breadth-first work lists

A search that closes nodes one by one and queues their children one level deeper.  Nothing is assumed about
the children a node turns out to have, nor that closing it twice would give the same ones: a node is closed
at most once.  The invariant says that depths in the queue never decrease and span at most two levels, from
which the depth of a closed node is its distance. -/

namespace ProofEngine.BreadthFirst

variable {α : Type*}

/-- A closed node: its level and the children it was found to have. -/
structure Closed (α : Type*) where
  node : α
  depth : Nat
  children : List α

structure State (α : Type*) where
  queue : List (α × Nat)
  closed : List (Closed α)

def State.nodes (state : State α) : List α := state.closed.map Closed.node

def State.start (sources : List α) : State α := ⟨sources.map (·, 1), []⟩

/-- One turn of the loop; nodes of `barred` are never closed.  The order in which closed nodes are kept is
    left open. -/
inductive Step (barred : List α) : State α → State α → Prop where
  | skip {node : α} {depth : Nat} {queue : List (α × Nat)} {closed : List (Closed α)}
      (seen : node ∈ barred ∨ node ∈ closed.map Closed.node) :
      Step barred ⟨(node, depth) :: queue, closed⟩ ⟨queue, closed⟩
  | close {node : α} {depth : Nat} {children : List α} {queue : List (α × Nat)} {closed closed' : List (Closed α)}
      (fresh : node ∉ barred) (unseen : node ∉ closed.map Closed.node)
      (added : closed'.Perm (⟨node, depth, children⟩ :: closed)) :
      Step barred ⟨(node, depth) :: queue, closed⟩ ⟨queue ++ children.map (·, depth + 1), closed'⟩

/-- A path from the sources whose inner nodes are closed, with its length. -/
inductive Path (sources : List α) (closed : List (Closed α)) : α → Nat → Prop where
  | source {node : α} (member : node ∈ sources) : Path sources closed node 1
  | step {parent : Closed α} {node : α} {length : Nat} (reached : Path sources closed parent.node length)
      (member : parent ∈ closed) (child : node ∈ parent.children) : Path sources closed node (length + 1)

theorem Path.mono {sources : List α} {closed closed' : List (Closed α)} (subset : closed ⊆ closed') {node : α}
    {length : Nat} (path : Path sources closed node length) : Path sources closed' node length := by
  induction path with
  | source member => exact .source member
  | step _ member child inductionHypothesis => exact .step inductionHypothesis (subset member) child

/-- A node that was met at `level` is barred, closed no deeper, or still waits at that level. -/
def Met (barred : List α) (state : State α) (node : α) (level : Nat) : Prop :=
  node ∈ barred ∨ (∃ entry ∈ state.closed, entry.node = node ∧ entry.depth ≤ level) ∨ (node, level) ∈ state.queue

structure Invariant (sources barred : List α) (state : State α) : Prop where
  nodup : state.nodes.Nodup
  disjoint : ∀ node ∈ state.nodes, node ∉ barred
  queuedPath : ∀ item ∈ state.queue, Path sources state.closed item.1 item.2
  closedPath : ∀ entry ∈ state.closed, Path sources state.closed entry.node entry.depth
  ascending : state.queue.Pairwise fun earlier later => earlier.2 ≤ later.2
  narrow : ∀ item ∈ state.queue, ∀ other ∈ state.queue, other.2 ≤ item.2 + 1
  settled : ∀ entry ∈ state.closed, ∀ item ∈ state.queue, entry.depth ≤ item.2
  sourcesMet : ∀ node ∈ sources, Met barred state node 1
  childrenMet : ∀ entry ∈ state.closed, ∀ child ∈ entry.children, Met barred state child (entry.depth + 1)

/-! ## One turn -/

section
variable {sources barred : List α}

theorem invariant_start : Invariant sources barred (State.start sources) where
  nodup := List.nodup_nil
  disjoint := fun _ member => absurd member List.not_mem_nil
  queuedPath := by
    intro item member
    obtain ⟨node, source, rfl⟩ := List.mem_map.mp member
    exact .source source
  closedPath := fun _ member => absurd member List.not_mem_nil
  ascending := by
    rw [State.start, List.pairwise_map]
    exact List.pairwise_of_forall fun _ _ => le_refl 1
  narrow := by
    intro item member other otherMember
    obtain ⟨_, _, rfl⟩ := List.mem_map.mp member
    obtain ⟨_, _, rfl⟩ := List.mem_map.mp otherMember
    exact Nat.le_succ 1
  settled := fun _ member => absurd member List.not_mem_nil
  sourcesMet := fun node source => .inr (.inr (List.mem_map.mpr ⟨node, source, rfl⟩))
  childrenMet := fun _ member => absurd member List.not_mem_nil

theorem Met.skip {node other : α} {depth level : Nat} {queue : List (α × Nat)} {closed : List (Closed α)}
    (seen : node ∈ barred ∨ node ∈ closed.map Closed.node)
    (settled : ∀ entry ∈ closed, entry.depth ≤ depth)
    (met : Met barred ⟨(node, depth) :: queue, closed⟩ other level) : Met barred ⟨queue, closed⟩ other level := by
  rcases met with isBarred | isClosed | queued
  · exact .inl isBarred
  · exact .inr (.inl isClosed)
  · rcases List.mem_cons.mp queued with here | later
    · -- the popped item itself: what was seen before lies no deeper
      cases here
      rcases seen with isBarred | isClosed
      · exact .inl isBarred
      · obtain ⟨entry, member, named⟩ := List.mem_map.mp isClosed
        exact .inr (.inl ⟨entry, member, named, settled entry member⟩)
    · exact .inr (.inr later)

theorem Met.close {node other : α} {depth level : Nat} {children : List α} {queue added : List (α × Nat)}
    {closed closed' : List (Closed α)} (perm : closed'.Perm (⟨node, depth, children⟩ :: closed))
    (met : Met barred ⟨(node, depth) :: queue, closed⟩ other level) :
    Met barred ⟨queue ++ added, closed'⟩ other level := by
  rcases met with isBarred | ⟨entry, member, named, depthLe⟩ | queued
  · exact .inl isBarred
  · exact .inr (.inl ⟨entry, perm.mem_iff.mpr (List.mem_cons_of_mem _ member), named, depthLe⟩)
  · rcases List.mem_cons.mp queued with here | later
    · cases here
      exact .inr (.inl ⟨_, perm.mem_iff.mpr List.mem_cons_self, rfl, le_refl _⟩)
    · exact .inr (.inr (List.mem_append_left _ later))

theorem Invariant.skip {node : α} {depth : Nat} {queue : List (α × Nat)} {closed : List (Closed α)}
    (invariant : Invariant sources barred ⟨(node, depth) :: queue, closed⟩)
    (seen : node ∈ barred ∨ node ∈ closed.map Closed.node) : Invariant sources barred ⟨queue, closed⟩ := by
  have settledHere : ∀ entry ∈ closed, entry.depth ≤ depth :=
    fun entry member => invariant.settled entry member (node, depth) List.mem_cons_self
  exact {
    nodup := invariant.nodup
    disjoint := invariant.disjoint
    queuedPath := fun item member => invariant.queuedPath item (List.mem_cons_of_mem _ member)
    closedPath := invariant.closedPath
    ascending := invariant.ascending.of_cons
    narrow := fun item member other otherMember =>
      invariant.narrow item (List.mem_cons_of_mem _ member) other (List.mem_cons_of_mem _ otherMember)
    settled := fun entry member item itemMember =>
      invariant.settled entry member item (List.mem_cons_of_mem _ itemMember)
    sourcesMet := fun other source => (invariant.sourcesMet other source).skip seen settledHere
    childrenMet := fun entry member child childMember =>
      (invariant.childrenMet entry member child childMember).skip seen settledHere }

theorem Invariant.close {node : α} {depth : Nat} {children : List α} {queue : List (α × Nat)}
    {closed closed' : List (Closed α)} (invariant : Invariant sources barred ⟨(node, depth) :: queue, closed⟩)
    (fresh : node ∉ barred) (unseen : node ∉ closed.map Closed.node)
    (added : closed'.Perm (⟨node, depth, children⟩ :: closed)) :
    Invariant sources barred ⟨queue ++ children.map (·, depth + 1), closed'⟩ := by
  have subset : closed ⊆ closed' := fun entry member => added.mem_iff.mpr (List.mem_cons_of_mem _ member)
  have nodes : (closed'.map Closed.node).Perm (node :: closed.map Closed.node) := added.map Closed.node
  have path : Path sources closed' node depth :=
    (invariant.queuedPath (node, depth) List.mem_cons_self).mono subset
  have level : ∀ item ∈ queue, depth ≤ item.2 ∧ item.2 ≤ depth + 1 := fun item member =>
    ⟨List.rel_of_pairwise_cons invariant.ascending member,
      invariant.narrow (node, depth) List.mem_cons_self item (List.mem_cons_of_mem _ member)⟩
  have queued : ∀ item ∈ queue ++ children.map (·, depth + 1),
      item ∈ queue ∨ item.1 ∈ children ∧ item.2 = depth + 1 := by
    intro item member
    rcases List.mem_append.mp member with old | new
    · exact .inl old
    · obtain ⟨child, childMember, rfl⟩ := List.mem_map.mp new
      exact .inr ⟨childMember, rfl⟩
  have levels : ∀ item ∈ queue ++ children.map (·, depth + 1), depth ≤ item.2 ∧ item.2 ≤ depth + 1 := by
    intro item member
    rcases queued item member with old | ⟨_, new⟩
    · exact level item old
    · omega
  have entries : ∀ entry ∈ closed', entry = ⟨node, depth, children⟩ ∨ entry ∈ closed :=
    fun entry member => List.mem_cons.mp (added.mem_iff.mp member)
  constructor
  case nodup => exact nodes.nodup_iff.mpr (List.nodup_cons.mpr ⟨unseen, invariant.nodup⟩)
  case disjoint =>
    intro other member
    rcases List.mem_cons.mp (nodes.mem_iff.mp member) with rfl | old
    · exact fresh
    · exact invariant.disjoint other old
  case queuedPath =>
    intro item member
    rcases queued item member with old | ⟨child, new⟩
    · exact (invariant.queuedPath item (List.mem_cons_of_mem _ old)).mono subset
    · rw [new]
      exact @Path.step _ sources closed' ⟨node, depth, children⟩ item.1 depth path
        (added.mem_iff.mpr List.mem_cons_self) child
  case closedPath =>
    intro entry member
    rcases entries entry member with rfl | old
    · exact path
    · exact (invariant.closedPath entry old).mono subset
  case ascending =>
    rw [List.pairwise_append]
    refine ⟨invariant.ascending.of_cons, ?_, ?_⟩
    · rw [List.pairwise_map]
      exact List.pairwise_of_forall fun _ _ => le_refl _
    · intro item member other otherMember
      obtain ⟨_, _, rfl⟩ := List.mem_map.mp otherMember
      exact (level item member).2
  case narrow =>
    intro item member other otherMember
    have first := (levels item member).1
    have second := (levels other otherMember).2
    omega
  case settled =>
    intro entry member item itemMember
    refine le_trans ?_ (levels item itemMember).1
    rcases entries entry member with rfl | old
    · exact le_refl _
    · exact invariant.settled entry old (node, depth) List.mem_cons_self
  case sourcesMet => exact fun other source => (invariant.sourcesMet other source).close added
  case childrenMet =>
    intro entry member child childMember
    rcases entries entry member with rfl | old
    · exact .inr (.inr (List.mem_append_right _ (List.mem_map.mpr ⟨child, childMember, rfl⟩)))
    · exact (invariant.childrenMet entry old child childMember).close added

theorem Invariant.step {state state' : State α} (invariant : Invariant sources barred state)
    (step : Step barred state state') : Invariant sources barred state' := by
  cases step with
  | skip seen => exact invariant.skip seen
  | close fresh unseen added => exact invariant.close fresh unseen added

/-! ## The end of a search -/

theorem Met.of_empty {state : State α} (empty : state.queue = []) {node : α} {level : Nat}
    (met : Met barred state node level) :
    node ∈ barred ∨ ∃ entry ∈ state.closed, entry.node = node ∧ entry.depth ≤ level := by
  rcases met with isBarred | isClosed | queued
  · exact .inl isBarred
  · exact .inr isClosed
  · rw [empty] at queued
    cases queued

section
variable {state : State α} (invariant : Invariant sources barred state) (empty : state.queue = [])
include invariant empty

/-- Every path leads to a barred node or to one closed no deeper than the path is long. -/
theorem Invariant.closed_of_path {node : α} {length : Nat} (path : Path sources state.closed node length) :
    node ∈ barred ∨ ∃ entry ∈ state.closed, entry.node = node ∧ entry.depth ≤ length := by
  induction path with
  | source member => exact Met.of_empty empty (invariant.sourcesMet _ member)
  | @step parent node length _ member child inductionHypothesis =>
    -- the parent is closed once, so no deeper than the path to it is long
    have parentDepth : parent.depth ≤ length := by
      rcases inductionHypothesis with isBarred | ⟨entry, entryMember, named, depthLe⟩
      · exact absurd isBarred (invariant.disjoint _ (List.mem_map_of_mem member))
      · rw [← List.inj_on_of_nodup_map invariant.nodup entryMember member named]
        exact depthLe
    rcases Met.of_empty empty (invariant.childrenMet parent member _ child) with
      isBarred | ⟨entry, entryMember, named, depthLe⟩
    · exact .inl isBarred
    · exact .inr ⟨entry, entryMember, named, by omega⟩

/-- The depth of a closed node is its distance from the sources. -/
theorem Invariant.isLeast_depth {entry : Closed α} (member : entry ∈ state.closed) :
    IsLeast { length | Path sources state.closed entry.node length } entry.depth := by
  refine ⟨invariant.closedPath entry member, ?_⟩
  intro length path
  rcases invariant.closed_of_path empty path with isBarred | ⟨other, otherMember, named, depthLe⟩
  · exact absurd isBarred (invariant.disjoint _ (List.mem_map_of_mem member))
  · rw [← List.inj_on_of_nodup_map invariant.nodup otherMember member named]
    exact depthLe

end

end

end ProofEngine.BreadthFirst
