import ProofEngine.Lib.Paths
import ProofEngine.Policy.PathSearch

/-! # Path searches find shortest paths

The level of a node is the number of turns of the walk back from it.  Nodes leave the queue in the order of
their levels, and no link leads from one that left it more than one level further, so that the walk back from
the target is a shortest path. -/

namespace ProofEngine

open Relation DirectedGraph Paths

/-! ## Levels -/

/-- Turns of the walk back, read off the predecessors in the order in which they were collected. -/
def levelOf : (prev : List (String × String)) → (node : String) → Nat
  | [], _ => 0
  | (newest, parent) :: prev, node => if node = newest then levelOf prev parent + 1 else levelOf prev node

section
variable {root : String} {prev : List (String × String)}

/-- A new node changes no other level. -/
theorem levelOf_cons_other {newest parent node : String} (other : node ≠ newest) :
    levelOf ((newest, parent) :: prev) node = levelOf prev node := if_neg other

theorem levelOf_root (ancestry : Ancestry root prev) : levelOf prev root = 0 := by
  induction ancestry with
  | nil => rfl
  | @cons node parent prev fresh _ _ inductionHypothesis =>
    have other : root ≠ node := fun same => fresh (same ▸ List.mem_cons_self)
    rw [levelOf_cons_other other, inductionHypothesis]

theorem Ancestry.parent_mem (ancestry : Ancestry root prev) {node parent : String} (member : (node, parent) ∈ prev) :
    parent ∈ root :: prev.map Prod.fst := by
  induction ancestry with
  | nil => cases member
  | @cons _ _ prev _ hangs _ inductionHypothesis =>
    have older : parent ∈ root :: prev.map Prod.fst := by
      cases member with
      | head => exact hangs
      | tail _ member => exact inductionHypothesis member
    rw [List.map_cons]
    rcases List.mem_cons.mp older with isRoot | inside
    · exact isRoot ▸ List.mem_cons_self
    · exact List.mem_cons_of_mem _ (List.mem_cons_of_mem _ inside)

/-- Every node lies one level below its predecessor. -/
theorem Ancestry.climbs (ancestry : Ancestry root prev) {node parent : String} (member : (node, parent) ∈ prev) :
    levelOf prev node = levelOf prev parent + 1 := by
  induction ancestry with
  | nil => cases member
  | @cons newest first prev fresh hangs rest inductionHypothesis =>
    have parentOther : parent ≠ newest := by
      rintro rfl
      cases member with
      | head => exact fresh hangs
      | tail _ member => exact fresh (rest.parent_mem member)
    rw [levelOf_cons_other parentOther]
    cases member with
    | head => exact if_pos rfl
    | tail _ member =>
      have other : node ≠ newest := by
        rintro rfl
        exact fresh (List.mem_cons_of_mem _ (List.mem_map_of_mem member))
      rw [levelOf_cons_other other, inductionHypothesis member]

end

/-! ## The search -/

section
variable {links : Links} {root target : String} {done : List String} {search : Search}

def Search.level (search : Search) : String → Nat := levelOf search.prev

/-- Predecessors are joined by links, and nodes were queued in the order of their levels. -/
structure Levelled (links : Links) (done : List String) (search : Search) : Prop where
  linked : ∀ pair ∈ search.prev, Arc links pair.2 pair.1
  ascending : (done ++ search.queue).Pairwise fun earlier later => search.level earlier ≤ search.level later

/-- No node that was met lies more than one level below `current`. -/
def Within (done : List String) (search : Search) (current : String) : Prop :=
  ∀ node ∈ done ++ search.queue, search.level node ≤ search.level current + 1

theorem level_visit {current node other : String} (seen : other ∈ search.seen) :
    (search.visit current node).level other = search.level other := by
  rw [Search.visit]
  split
  · rfl
  · rename_i unknown
    rw [List.contains_iff_mem] at unknown
    exact levelOf_cons_other fun same => unknown (same ▸ seen)

/-- A new neighbour goes to the end of the queue, one level below the current node. -/
theorem Levelled.visit (levelled : Levelled links done search) (collected : Collected links root done search)
    {current node : String} (seen : current ∈ search.seen) (within : Within done search current)
    (arc : Arc links current node) :
    Levelled links done (search.visit current node) ∧ Within done (search.visit current node) current ∧
      (search.visit current node).level node ≤ search.level current + 1 := by
  by_cases known : node ∈ search.seen
  · have same : search.visit current node = search := if_pos (List.contains_iff_mem.mpr known)
    rw [same]
    exact ⟨levelled, within, within node (collected.queued.symm.subset known)⟩
  · have added : search.visit current node =
        { seen := node :: search.seen, prev := (node, current) :: search.prev, queue := search.queue ++ [node] } :=
      if_neg (mt List.contains_iff_mem.mp known)
    have old : ∀ other ∈ done ++ search.queue, (search.visit current node).level other = search.level other :=
      fun other member => level_visit (collected.queued.subset member)
    have new : (search.visit current node).level node = search.level current + 1 := by
      rw [added]
      exact if_pos rfl
    have here : (search.visit current node).level current = search.level current := level_visit seen
    refine ⟨⟨?_, ?_⟩, ?_, new.le⟩
    · intro pair member
      rw [added] at member
      rcases List.mem_cons.mp member with rfl | member
      · exact arc
      · exact levelled.linked pair member
    · rw [show (search.visit current node).queue = search.queue ++ [node] by rw [added], ← List.append_assoc]
      refine List.pairwise_append.mpr ⟨?_, List.pairwise_singleton _ _, ?_⟩
      · refine levelled.ascending.imp_of_mem fun {left right} leftIn rightIn le => ?_
        rw [old left leftIn, old right rightIn]
        exact le
      · intro other member last isNode
        rw [List.mem_singleton.mp isNode, old other member, new]
        exact within other member
    · intro other member
      rw [here]
      rw [show (search.visit current node).queue = search.queue ++ [node] by rw [added], ← List.append_assoc] at member
      rcases List.mem_append.mp member with member | isNode
      · rw [old other member]
        exact within other member
      · rw [List.mem_singleton.mp isNode, new]

/-- After a turn the neighbours of the current node lie at most one level below it. -/
theorem Levelled.expand (levelled : Levelled links done search) (collected : Collected links root done search)
    {current : String} (seen : current ∈ search.seen) (within : Within done search current) {nodes : List String}
    (arcs : ∀ node ∈ nodes, Arc links current node) :
    Levelled links done (nodes.foldl (Search.visit current) search) ∧
      Within done (nodes.foldl (Search.visit current) search) current ∧
      (∀ other ∈ search.seen, (nodes.foldl (Search.visit current) search).level other = search.level other) ∧
      ∀ node ∈ nodes, (nodes.foldl (Search.visit current) search).level node ≤ search.level current + 1 := by
  induction nodes generalizing search with
  | nil =>
    refine ⟨levelled, within, fun _ _ => rfl, ?_⟩
    intro node member
    cases member
  | cons first nodes inductionHypothesis =>
    have arc := arcs first List.mem_cons_self
    obtain ⟨visited, firstSeen, grows⟩ := collected.visit seen arc
    obtain ⟨visitedLevels, visitedWithin, firstLevel⟩ := levelled.visit collected seen within arc
    obtain ⟨levels, withinAll, kept, nearby⟩ := inductionHypothesis visitedLevels visited (grows seen) visitedWithin
      fun node member => arcs node (List.mem_cons_of_mem _ member)
    have here : (search.visit current first).level current = search.level current := level_visit seen
    rw [here] at nearby
    refine ⟨levels, withinAll, fun other member => (kept other (grows member)).trans (level_visit member), ?_⟩
    intro node member
    rcases List.mem_cons.mp member with rfl | member
    · rw [List.foldl_cons, kept node firstSeen]
      exact firstLevel
    · exact nearby node member

/-- What holds of the levels between two turns: the queue spans at most two of them, and a link from a node that
    left it leads at most one level further. -/
structure SearchingLevels (links : Links) (root target : String) (done : List String) (search : Search) : Prop
    extends Searching links root target done search, Levelled links done search where
  narrow : ∀ node ∈ search.queue, ∀ other ∈ search.queue, search.level other ≤ search.level node + 1
  near : ∀ node ∈ done, ∀ next, Arc links node next → search.level next ≤ search.level node + 1

theorem SearchingLevels.start (links : Links) (root target : String) :
    SearchingLevels links root target [] { seen := [root], prev := [], queue := [root] } where
  toSearching := .start links root target
  linked := fun _ member => absurd member List.not_mem_nil
  ascending := List.pairwise_singleton _ _
  narrow := fun _ _ _ _ => Nat.zero_le _
  near := fun _ member => absurd member List.not_mem_nil

theorem SearchingLevels.turn (searching : SearchingLevels links root target done search) {current : String}
    {queue : List String} (next : search.queue = current :: queue) (other : current ≠ target) :
    SearchingLevels links root target (done ++ [current])
      ((links.from current).foldl (Search.visit current) { search with queue }) := by
  have moved : done ++ [current] ++ queue = done ++ search.queue := by
    rw [next, List.append_assoc, List.singleton_append]
  have collected : Collected links root (done ++ [current]) { search with queue } :=
    ⟨searching.tree, searching.seen, searching.targets, by rw [moved]; exact searching.queued, searching.reach⟩
  have levelled : Levelled links (done ++ [current]) { search with queue } :=
    ⟨searching.linked, by rw [moved]; exact searching.ascending⟩
  have ascending := searching.ascending
  rw [← moved, List.append_assoc, List.pairwise_append] at ascending
  obtain ⟨_, later, earlier⟩ := ascending
  have currentSeen : current ∈ search.seen :=
    searching.queued.subset (List.mem_append_right _ (next ▸ List.mem_cons_self))
  -- the nodes that left the queue lie no deeper than the current one, those that wait at most one level deeper
  have within : Within (done ++ [current]) { search with queue } current := by
    intro node member
    rw [moved] at member
    rcases List.mem_append.mp member with early | waits
    · exact (earlier node early current List.mem_cons_self).trans (Nat.le_succ _)
    · exact searching.narrow current (next ▸ List.mem_cons_self) node waits
  obtain ⟨levels, withinAll, kept, nearby⟩ :=
    levelled.expand collected currentSeen within fun node member => mem_from.mp member
  have here : search.level current = _ := (kept current currentSeen).symm
  refine ⟨searching.toSearching.turn next other, levels, ?_, ?_⟩
  · intro node member deeper deeperMember
    have above := List.pairwise_append.mp levels.ascending |>.2.2 current (by simp) node member
    have below := withinAll deeper (List.mem_append_right _ deeperMember)
    omega
  · intro node member next arc
    rcases List.mem_append.mp member with early | now
    · have seen : node ∈ search.seen := searching.queued.subset (List.mem_append_left _ early)
      rw [kept next (searching.closed node early next arc), kept node seen]
      exact searching.near node early next arc
    · rw [List.mem_singleton.mp now] at arc ⊢
      rw [← here]
      exact nearby next (mem_from.mpr arc)

/-- When the target is the next node to be expanded, no path to it has fewer steps than its level. -/
theorem SearchingLevels.level_le (searching : SearchingLevels links root target done search) {queue : List String}
    (next : search.queue = target :: queue) {nodes : List String} (path : IsPath (Arc links) root target nodes) :
    search.level target + 1 ≤ nodes.length := by
  have ascending := searching.ascending
  rw [next, List.pairwise_append] at ascending
  have rootSeen : root ∈ search.seen := searching.mem_seen.mpr List.mem_cons_self
  have expanded : ∀ node following, node ∈ search.seen → search.level node < search.level target →
      Arc links node following → following ∈ search.seen ∧ search.level following ≤ search.level node + 1 := by
    intro node following seen below arc
    -- what waits lies no higher than the target, so this node has left the queue
    have left : node ∈ done := by
      rcases List.mem_append.mp (searching.queued.symm.subset seen) with left | waits
      · exact left
      · rw [next] at waits
        rcases List.mem_cons.mp waits with rfl | waits
        · omega
        · have above := List.rel_of_pairwise_cons ascending.2.1 waits
          omega
    exact ⟨searching.closed node left following arc, searching.near node left following arc⟩
  have enough := path.level_le expanded rootSeen
  rwa [Search.level, levelOf_root searching.tree, Nat.zero_add] at enough

theorem searchPath_shortest {done : List String} {search : Search}
    (searching : SearchingLevels links root target done search) {fuel : Nat} {prev : List (String × String)}
    (found : searchPath links target fuel search = .ok (some prev)) :
    Ancestry root prev ∧ (∀ pair ∈ prev, Arc links pair.2 pair.1) ∧ target ∈ root :: prev.map Prod.fst ∧
      ∀ nodes, IsPath (Arc links) root target nodes → levelOf prev target + 1 ≤ nodes.length := by
  induction fuel generalizing done search with
  | zero => cases found
  | succ fuel inductionHypothesis =>
    obtain ⟨seen, tree, queue⟩ := search
    cases queue with
    | nil => cases found
    | cons current queue =>
      simp only [searchPath] at found
      by_cases isTarget : current = target
      · subst isTarget
        rw [if_pos rfl] at found
        cases found
        have targetSeen : current ∈ seen := searching.queued.subset (List.mem_append_right _ List.mem_cons_self)
        exact ⟨searching.tree, searching.linked, searching.mem_seen.mp targetSeen, fun _ path =>
          searching.level_le rfl path⟩
      · rw [if_neg isTarget] at found
        exact inductionHypothesis (searching.turn rfl isTarget) found

/-! ## The walk back -/

/-- The walk back puts a path from the root in front of what has been collected. -/
theorem traceBack_path {prev : List (String × String)} (ancestry : Ancestry root prev)
    (linked : ∀ pair ∈ prev, Arc links pair.2 pair.1) {fuel : Nat} {node last : String} {chain found : List String}
    (member : node ∈ root :: prev.map Prod.fst)
    (path : IsPath (fun left right => Arc links left right ∧ levelOf prev right = levelOf prev left + 1) node last
      chain)
    (traced : traceBack prev root fuel node chain = .ok found) :
    IsPath (fun left right => Arc links left right ∧ levelOf prev right = levelOf prev left + 1) root last found := by
  induction fuel generalizing node chain with
  | zero => cases traced
  | succ fuel inductionHypothesis =>
    rw [traceBack] at traced
    by_cases isRoot : node = root
    · rw [if_pos isRoot] at traced
      cases traced
      exact isRoot ▸ path
    · rw [if_neg isRoot] at traced
      obtain ⟨⟨_, parent⟩, pairMember, rfl⟩ := List.mem_map.mp ((List.mem_cons.mp member).resolve_left isRoot)
      -- so the fallback of the lookup is not taken
      rw [lookup_of_mem (List.nodup_cons.mp ancestry.nodup).2 pairMember, Option.getD_some] at traced
      exact inductionHypothesis (ancestry.parent_mem pairMember)
        (path.cons ⟨linked _ pairMember, ancestry.climbs pairMember⟩) traced

/-- A path search ends, finds a path exactly when there is one, and then a shortest one. -/
theorem findPath_exact (links : Links) (root target : String) :
    ∃ path, findPath links root target = .ok path ∧
      (path.isSome = true ↔ ReflTransGen (Arc links) root target) ∧
      ∀ nodes, path = some nodes → IsShortest (Arc links) root target nodes := by
  obtain ⟨path, done, exact⟩ := findPath_spec links root target
  refine ⟨path, done, exact, ?_⟩
  rintro nodes rfl
  rw [findPath] at done
  split at done
  · rename_i same
    cases done
    subst same
    refine ⟨.singleton target, List.nodup_singleton target, fun others path => ?_⟩
    rw [List.length_singleton]
    exact List.length_pos_of_mem (List.mem_of_mem_head? path.starts)
  · simp only [bind_eq_ok] at done
    obtain ⟨found, searched, done⟩ := done
    cases found with
    | none => cases done
    | some prev =>
      simp only [bind_eq_ok] at done
      obtain ⟨chain, traced, done⟩ := done
      cases done
      obtain ⟨ancestry, linked, member, least⟩ := searchPath_shortest (SearchingLevels.start links root target) searched
      have climbing := traceBack_path ancestry linked member (.singleton target) traced
      obtain ⟨length, nodup, _⟩ := climbing.climb
      rw [levelOf_root ancestry, Nat.zero_add] at length
      refine ⟨climbing.mono fun _ _ both => both.1, nodup, fun others path => ?_⟩
      rw [← length]
      exact least others path

end

end ProofEngine
