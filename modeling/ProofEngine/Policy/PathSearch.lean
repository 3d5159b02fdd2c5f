import ProofEngine.Graph.DepthFirst
import ProofEngine.Policy.Eval

/-! # Path searches end

The breadth-first search of the evaluator ends within its bound, finds a path exactly when the target can be
reached, and the walk back over the predecessors ends at the root. -/

namespace ProofEngine

open Relation DirectedGraph

/-! ## The walk back -/

/-- Predecessors as they are collected: every node is new and hangs on the root or on an earlier node. -/
inductive Ancestry (root : String) : List (String × String) → Prop where
  | nil : Ancestry root []
  | cons {node parent : String} {prev : List (String × String)} (fresh : node ∉ root :: prev.map Prod.fst)
      (hangs : parent ∈ root :: prev.map Prod.fst) (rest : Ancestry root prev) :
      Ancestry root ((node, parent) :: prev)

section
variable {root : String} {prev : List (String × String)}

theorem Ancestry.nodup (ancestry : Ancestry root prev) : (root :: prev.map Prod.fst).Nodup := by
  induction ancestry with
  | nil => exact List.nodup_singleton root
  | cons fresh _ _ inductionHypothesis =>
    rw [List.map_cons]
    -- the root is kept in front of the newest node
    exact (List.Perm.swap _ _ _).nodup_iff.mp (List.nodup_cons.mpr ⟨fresh, inductionHypothesis⟩)

theorem lookup_of_mem {node parent : String} (distinct : (prev.map Prod.fst).Nodup)
    (member : (node, parent) ∈ prev) : prev.lookup node = some parent := by
  obtain ⟨front, back, rfl⟩ := List.append_of_mem member
  refine List.lookup_eq_some_iff.mpr ⟨front, back, rfl, fun pair inside => ?_⟩
  rw [List.map_append, List.map_cons, List.nodup_append] at distinct
  rw [bne_iff_ne]
  exact (distinct.2.2 pair.1 (List.mem_map_of_mem inside) node List.mem_cons_self).symm

/-- From every node of the tree the walk back ends at the root, in at most one turn for each predecessor. -/
theorem traceBack_ends (ancestry : Ancestry root prev) {suffix : List (String × String)}
    (tree : Ancestry root suffix) (inside : suffix ⊆ prev) {fuel : Nat} (enough : suffix.length < fuel)
    {node : String} (member : node ∈ root :: suffix.map Prod.fst) (chain : List String) :
    ∃ found, traceBack prev root fuel node chain = .ok found := by
  obtain ⟨fuel, rfl⟩ := Nat.exists_eq_succ_of_ne_zero (Nat.ne_of_gt (Nat.zero_lt_of_lt enough))
  -- the tree grew at the front, so the walk goes from the front to the back
  induction tree generalizing fuel node chain with
  | nil =>
    rw [List.mem_singleton.mp member, traceBack, if_pos rfl]
    exact ⟨chain, rfl⟩
  | @cons newest parent suffix fresh hangs _ inductionHypothesis =>
    rw [List.length_cons, Nat.succ_lt_succ_iff] at enough
    have smaller : suffix ⊆ prev := fun pair found => inside (List.mem_cons_of_mem _ found)
    by_cases isNewest : node = newest
    · -- The newest node has its parent further down, so one turn leads into the rest of the tree.
      subst isNewest
      have found := lookup_of_mem (List.nodup_cons.mp ancestry.nodup).2 (inside List.mem_cons_self)
      have notRoot : node ≠ root := fun same => fresh (same ▸ List.mem_cons_self)
      rw [traceBack, if_neg notRoot, found]
      obtain ⟨fuel, rfl⟩ := Nat.exists_eq_succ_of_ne_zero (Nat.ne_of_gt (Nat.zero_lt_of_lt enough))
      exact inductionHypothesis smaller hangs _ fuel enough
    · have earlier : node ∈ root :: suffix.map Prod.fst := by
        simpa [isNewest] using member
      exact inductionHypothesis smaller earlier chain fuel (Nat.lt_succ_of_lt enough)

end

/-! ## The search -/

section
variable {links : Links} {root target : String}

/-- What holds of the tables at any moment; `done` are the nodes that have left the queue. -/
structure Collected (links : Links) (root : String) (done : List String) (search : Search) : Prop where
  tree : Ancestry root search.prev
  seen : search.seen = search.prev.map Prod.fst ++ [root]
  targets : ∀ pair ∈ search.prev, pair.1 ∈ links.map Prod.snd
  queued : (done ++ search.queue).Perm search.seen
  reach : ∀ node ∈ search.seen, ReflTransGen (Arc links) root node

/-- What holds between two turns: the nodes that left the queue are expanded, and the target is not one of
    them. -/
structure Searching (links : Links) (root target : String) (done : List String) (search : Search) : Prop
    extends Collected links root done search where
  closed : ∀ node ∈ done, ∀ next, Arc links node next → next ∈ search.seen
  missing : target ∉ done

theorem Searching.start (links : Links) (root target : String) :
    Searching links root target [] { seen := [root], prev := [], queue := [root] } where
  tree := .nil
  seen := rfl
  targets := fun _ member => nomatch member
  queued := .refl _
  reach := fun node member => by rw [List.mem_singleton.mp member]
  closed := fun _ member => nomatch member
  missing := List.not_mem_nil

section
variable {done : List String} {search : Search}

theorem Collected.mem_seen (collected : Collected links root done search) {node : String} :
    node ∈ search.seen ↔ node ∈ root :: search.prev.map Prod.fst := by
  rw [collected.seen, List.mem_append, List.mem_singleton, List.mem_cons, or_comm]

/-- No more nodes are seen than there are links, and the root. -/
theorem Collected.length_le (collected : Collected links root done search) :
    search.prev.length ≤ links.length := by
  have distinct := (List.nodup_cons.mp collected.tree.nodup).2
  have inside : search.prev.map Prod.fst ⊆ links.map Prod.snd := by
    intro node member
    obtain ⟨pair, pairMember, rfl⟩ := List.mem_map.mp member
    exact collected.targets pair pairMember
  simpa using (distinct.subperm inside).length_le

theorem Collected.visit (collected : Collected links root done search) {current node : String}
    (seen : current ∈ search.seen) (arc : Arc links current node) :
    Collected links root done (search.visit current node) ∧ node ∈ (search.visit current node).seen ∧
      search.seen ⊆ (search.visit current node).seen := by
  rw [Search.visit]
  split
  · rename_i known
    exact ⟨collected, List.contains_iff_mem.mp known, fun _ member => member⟩
  · rename_i unknown
    -- a new node hangs on the current one and goes to the end of the queue
    rw [List.contains_iff_mem] at unknown
    refine ⟨⟨?_, ?_, ?_, ?_, ?_⟩, List.mem_cons_self, fun _ member => List.mem_cons_of_mem _ member⟩
    · exact .cons (mt collected.mem_seen.mpr unknown) (collected.mem_seen.mp seen) collected.tree
    · rw [collected.seen]
      rfl
    · intro pair member
      rcases List.mem_cons.mp member with rfl | member
      · exact List.mem_map_of_mem arc
      · exact collected.targets pair member
    · rw [← List.append_assoc]
      exact List.perm_append_singleton _ _ |>.trans (collected.queued.cons _)
    · intro other member
      rcases List.mem_cons.mp member with rfl | member
      · exact (collected.reach current seen).tail arc
      · exact collected.reach other member

/-- After a turn all neighbours of the node are seen. -/
theorem Collected.expand (collected : Collected links root done search) {current : String}
    (seen : current ∈ search.seen) {nodes : List String} (arcs : ∀ node ∈ nodes, Arc links current node) :
    Collected links root done (nodes.foldl (Search.visit current) search) ∧
      (∀ node ∈ nodes, node ∈ (nodes.foldl (Search.visit current) search).seen) ∧
      search.seen ⊆ (nodes.foldl (Search.visit current) search).seen := by
  induction nodes generalizing search with
  | nil => exact ⟨collected, fun _ member => (nomatch member), fun _ member => member⟩
  | cons first nodes inductionHypothesis =>
    obtain ⟨visited, firstSeen, grows⟩ := collected.visit seen (arcs first List.mem_cons_self)
    obtain ⟨expanded, restSeen, growsMore⟩ := inductionHypothesis visited (grows seen)
      fun node member => arcs node (List.mem_cons_of_mem _ member)
    refine ⟨expanded, fun node member => ?_, fun node member => growsMore (grows member)⟩
    rcases List.mem_cons.mp member with rfl | member
    · exact growsMore firstSeen
    · exact restSeen node member

/-- One turn of the search. -/
theorem Searching.turn (searching : Searching links root target done search) {current : String}
    {queue : List String} (next : search.queue = current :: queue) (other : current ≠ target) :
    Searching links root target (done ++ [current])
      ((links.from current).foldl (Search.visit current) { search with queue }) := by
  -- the node moves from the queue to those that are done
  have collected : Collected links root (done ++ [current]) { search with queue } := by
    refine ⟨searching.tree, searching.seen, searching.targets, ?_, searching.reach⟩
    have queued := searching.queued
    rw [next] at queued
    rw [List.append_assoc]
    exact queued
  have currentSeen : current ∈ search.seen :=
    searching.queued.subset (List.mem_append_right _ (next ▸ List.mem_cons_self))
  obtain ⟨expanded, neighbours, grows⟩ := collected.expand currentSeen fun node member => mem_from.mp member
  refine ⟨expanded, fun node member next arc => ?_, ?_⟩
  · rcases List.mem_append.mp member with early | now
    · exact grows (searching.closed node early next arc)
    · rw [List.mem_singleton.mp now] at arc
      exact neighbours next (mem_from.mpr arc)
  · rw [List.mem_append, List.mem_singleton, not_or]
    exact ⟨searching.missing, other.symm⟩

/-- Once the queue is empty, everything that can be reached has been seen, and the target has not. -/
theorem Searching.exhausted (searching : Searching links root target done search) (empty : search.queue = []) :
    ¬ ReflTransGen (Arc links) root target := by
  -- seen and no longer queued, so expanded: the seen nodes are closed under links
  have seenIsDone : ∀ node, node ∈ search.seen ↔ node ∈ done := fun node => by
    have same := searching.queued.mem_iff (a := node)
    rw [empty, List.append_nil] at same
    exact same.symm
  have rootSeen : root ∈ search.seen := searching.mem_seen.mpr List.mem_cons_self
  intro reach
  refine searching.missing ((seenIsDone target).mp ?_)
  exact closed_of_reach (fun source next seen arc => searching.closed source ((seenIsDone source).mp seen) next arc)
    rootSeen reach

end

/-- Every turn takes one node off the queue and every node is queued once, so the bound is never reached. -/
theorem searchPath_spec {done : List String} {search : Search}
    (searching : Searching links root target done search) {fuel : Nat}
    (enough : links.length + 2 ≤ fuel + done.length) :
    (searchPath links target fuel search = .ok none ∧ ¬ ReflTransGen (Arc links) root target) ∨
      ∃ prev, searchPath links target fuel search = .ok (some prev) ∧ ReflTransGen (Arc links) root target ∧
        Ancestry root prev ∧ prev.length ≤ links.length ∧ target ∈ root :: prev.map Prod.fst := by
  induction fuel generalizing done search with
  | zero =>
    -- all that left the queue was seen, and at most one node more than there are links is seen
    have counted := searching.queued.length_eq
    have bound := searching.length_le
    rw [searching.seen] at counted
    simp only [List.length_append, List.length_map, List.length_singleton] at counted
    omega
  | succ fuel inductionHypothesis =>
    obtain ⟨seen, prev, queue⟩ := search
    cases queue with
    | nil => exact Or.inl ⟨rfl, searching.exhausted rfl⟩
    | cons current queue =>
      simp only [searchPath]
      split
      · rename_i isTarget
        subst isTarget
        have targetSeen : current ∈ seen := searching.queued.subset (List.mem_append_right _ List.mem_cons_self)
        exact Or.inr ⟨prev, rfl, searching.reach current targetSeen, searching.tree, searching.length_le,
          searching.mem_seen.mp targetSeen⟩
      · rename_i other
        refine inductionHypothesis (searching.turn rfl other) ?_
        rw [List.length_append, List.length_singleton]
        omega

/-- A path search ends, and finds a path exactly when there is one. -/
theorem findPath_spec (links : Links) (root target : String) :
    ∃ path, findPath links root target = .ok path ∧
      (path.isSome = true ↔ ReflTransGen (Arc links) root target) := by
  rw [findPath]
  split
  · rename_i same
    subst same
    exact ⟨_, rfl, fun _ => .refl, fun _ => rfl⟩
  · obtain ⟨missed, unreachable⟩ | ⟨prev, found, reach, tree, short, member⟩ :=
      searchPath_spec (Searching.start links root target) (Nat.le_refl (links.length + 2))
    · rw [missed]
      exact ⟨none, rfl, fun found => (nomatch found), fun reach => absurd reach unreachable⟩
    · obtain ⟨chain, traced⟩ := @traceBack_ends _ _ tree _ tree (fun _ inside => inside) (links.length + 2)
        (by omega) _ member [target]
      rw [found]
      simp only [ok_bind, traced]
      exact ⟨some chain, rfl, fun _ => reach, fun _ => rfl⟩

end

end ProofEngine
