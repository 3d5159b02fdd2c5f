import ProofEngine.Graph.DepthFirst
import ProofEngine.Graph.Edges

/-! # Exactness of the cycle checks

The checks answer for the graph of all member-to-member edges of the types they consider, and no search meets a node
again that is still under expansion: the branch for such a node could hold anything. -/

namespace ProofEngine

open Relation DirectedGraph

/-! ## The branch for a stacked gray node -/

section
variable (popped : String → Outcome Colors) (message : String → String) (links : Links)

/-- `searchStack` with another outcome for a gray node that comes off the stack unprocessed. -/
def searchStackWith : (fuel : Nat) → Colors → (stack : List (String × Bool)) → Outcome Colors
  | 0, _, _ => .error .unfinished
  | _ + 1, colors, [] => .ok colors
  | fuel + 1, colors, (node, true) :: stack => searchStackWith fuel (colors.paint node .black) stack
  | fuel + 1, colors, (node, false) :: stack =>
    match colors node with
    | none => .error (.panic "color map has no entry for a stacked node")
    | some .black => searchStackWith fuel colors stack
    | some .gray => popped node
    | some .white => do
      let grayed := colors.paint node .gray
      let pushed ← pushSuccessors message grayed ((node, true) :: stack) (links.from node)
      searchStackWith fuel grayed pushed

def searchStartsWith (fuel : Nat) : Colors → (starts : List String) → Outcome Unit
  | _, [] => .ok ()
  | colors, start :: starts =>
    match colors start with
    | none => .error (.panic "color map has no entry for a start node")
    | some .white => do
      let searched ← searchStackWith popped message links fuel colors [(start, false)]
      searchStartsWith fuel searched starts
    | some _ => searchStartsWith fuel colors starts

def checkAcyclicWith (order : HashOrder) (site : HashSite) : Outcome Unit :=
  let all := links.endpoints
  let colors : Colors := fun node => if all.contains node then some .white else none
  searchStartsWith popped message links (2 * (links.length + all.length) + 2) colors (order.visit site all)

end

section
variable {links : Links}

/-- The nodes under expansion are all below, so none of them is stacked again. -/
theorem Sound.top_not_gray {colors : Colors} {node : String} {stack : List (String × Bool)}
    (sound : Sound links ⟨colors, (node, false) :: stack⟩) : colors node ≠ some .gray := by
  intro gray
  have lower := (sound.gray node).mp gray
  simp only [List.mem_cons, Prod.mk.injEq, reduceCtorEq, and_false, false_or] at lower
  exact (List.rel_of_pairwise_cons sound.follows lower rfl).2 rfl

theorem searchStackWith_eq (popped : String → Outcome Colors) (message : String → String) {fuel : Nat} {walk : Walk}
    (sound : Sound links walk) :
    searchStackWith popped message links fuel walk.colors walk.stack =
      searchStack message links fuel walk.colors walk.stack := by
  -- both loops take the same turn; what is left of the stack is sound again
  induction fuel generalizing walk with
  | zero => rfl
  | succ fuel inductionHypothesis =>
    obtain ⟨colors, stack⟩ := walk
    cases stack with
    | nil => rfl
    | cons top stack =>
      obtain ⟨node, done⟩ := top
      cases done with
      | true => exact inductionHypothesis sound.finish
      | false =>
        cases found : colors node with
        | none => simp only [searchStackWith, searchStack, found]
        | some color =>
          cases color with
          | black =>
            simp only [searchStackWith, searchStack, found]
            exact inductionHypothesis (sound.skip found)
          | gray => exact absurd found sound.top_not_gray
          | white =>
            simp only [searchStackWith, searchStack, found]
            obtain ⟨successor, _, _, reported⟩ | ⟨passes, pushed⟩ := pushSuccessors_cases message
              (colors.paint node .gray) ((node, true) :: stack) (links.from node)
            · rw [reported]
              rfl
            · rw [pushed]
              exact inductionHypothesis (sound.expand found fun successor arc => passes successor (mem_from.mpr arc))

theorem searchStartsWith_eq (popped : String → Outcome Colors) (message : String → String) {colors : Colors}
    {starts : List String} (sound : Sound links ⟨colors, []⟩)
    (members : ∀ start ∈ starts, start ∈ links.endpoints) :
    searchStartsWith popped message links (2 * (links.length + links.endpoints.length) + 2) colors starts =
      searchStarts message links (2 * (links.length + links.endpoints.length) + 2) colors starts := by
  induction starts generalizing colors with
  | nil => rfl
  | cons start starts inductionHypothesis =>
    have others := fun other inside => members other (List.mem_cons_of_mem start inside)
    have begun := sound.start (members start List.mem_cons_self)
    cases found : colors start with
    | none => simp only [searchStartsWith, searchStarts, found]
    | some color =>
      cases color with
      | black =>
        simp only [searchStartsWith, searchStarts, found]
        exact inductionHypothesis sound others
      | gray =>
        simp only [searchStartsWith, searchStarts, found]
        exact inductionHypothesis sound others
      | white =>
        simp only [searchStartsWith, searchStarts, found]
        rw [searchStackWith_eq popped message begun]
        obtain ⟨searched, done, sound⟩ | ⟨node, reported, _⟩ :=
          searchStack_run message (Sound links) (fun _ node sound => sound.colored node) (fun _ sound => sound.stacked)
            (fun _ _ sound step => sound.step step) (fun _ _ sound reports => sound.reports reports) begun
            (work_start_lt links colors start)
        · rw [done]
          exact inductionHypothesis sound others
        · rw [reported]
          rfl

/-- No outcome put in the place of the branch shows. -/
theorem checkAcyclicWith_eq (popped : String → Outcome Colors) (message : String → String) (order : HashOrder)
    (site : HashSite) :
    checkAcyclicWith popped message links order site = checkAcyclic order site message links :=
  searchStartsWith_eq popped message (sound_initial links) fun _ member =>
    (order.perm site links.endpoints).subset member

end

/-! ## The graph of the edges -/

/-- An edge between members, of a type that is not skipped. -/
def MemberArc (skipped : List String) (edges : List EdgeRecord) (nodes : NodeSet) (source target : String) : Prop :=
  ∃ edge ∈ edges, edge.content.relType ∉ skipped ∧ edge.content.source = source ∧ edge.content.target = target ∧
    source ∈ nodes.ids ∧ target ∈ nodes.ids

theorem arc_memberLinks {skipped : List String} {edges : List EdgeRecord} {nodes : NodeSet} {source target : String} :
    Arc (memberLinks skipped edges nodes) source target ↔ MemberArc skipped edges nodes source target := by
  rw [Arc, memberLinks, List.mem_filterMap]
  constructor
  · rintro ⟨edge, member, found⟩
    split at found
    · cases found
    · rename_i considered
      split at found
      · cases found
      · rename_i members
        cases found
        simp only [Bool.or_eq_true, Bool.not_eq_true', not_or, Bool.not_eq_false, contains_iff] at members
        exact ⟨edge, member, by simpa using considered, rfl, rfl, members.1, members.2⟩
  · rintro ⟨edge, member, considered, rfl, rfl, source, target⟩
    refine ⟨edge, member, ?_⟩
    rw [if_neg (by simpa using considered), if_neg (by simp [contains_iff.mpr source, contains_iff.mpr target])]

theorem acyclic_memberLinks {skipped : List String} {edges : List EdgeRecord} {nodes : NodeSet} :
    Acyclic (memberLinks skipped edges nodes) ↔ ∀ node, ¬ TransGen (MemberArc skipped edges nodes) node node := by
  have same : Arc (memberLinks skipped edges nodes) = MemberArc skipped edges nodes := by
    funext source target
    exact propext arc_memberLinks
  simp only [Acyclic, OnCycle, same]

/-! ## The two checks -/

/-- The check, with any outcome in the branch, passes exactly on graphs without a cycle and otherwise reports one. -/
structure CycleCheckExact (check : (String → Outcome Colors) → Outcome Unit) (code : Outcome Unit)
    (arc : String → String → Prop) : Prop where
  passes : code = .ok () ↔ ∀ node, ¬ TransGen arc node node
  settles : code = .ok () ∨ ∃ message, code = .error (.error (ErrorCode.cycleDetected.err message))
  branch : ∀ popped, check popped = code

theorem checkAcyclic_exact (order : HashOrder) (site : HashSite) (message : String → String) (skipped : List String)
    (edges : List EdgeRecord) (nodes : NodeSet) :
    CycleCheckExact
      (fun popped => checkAcyclicWith popped message (memberLinks skipped edges nodes) order site)
      (checkAcyclic order site message (memberLinks skipped edges nodes)) (MemberArc skipped edges nodes) := by
  refine ⟨?_, ?_, fun popped => checkAcyclicWith_eq popped message order site⟩
  · rw [← acyclic_memberLinks]
    obtain ⟨passes, acyclic⟩ | ⟨node, reported, cycle⟩ := checkAcyclic_spec order site message _
    · exact iff_of_true passes acyclic
    · rw [reported]
      exact iff_of_false (by simp [cycleError]) fun acyclic => acyclic node cycle
  · obtain ⟨passes, _⟩ | ⟨node, reported, _⟩ := checkAcyclic_spec order site message (memberLinks skipped edges nodes)
    · exact .inl passes
    · exact .inr ⟨message node, reported⟩

def derivationCycle (node : String) : String :=
  "cycle detected in derivation graph at " ++ node ++
    " (derivation must be acyclic; REFERENCES/EQUIVALENT linkage excluded)"

def provenanceCycle (node : String) : String :=
  "cycle detected in provenance graph at " ++ node ++ " (DAG profile)"

/-- Both checks, for every list of edges, every node set and every order of the hash sets. -/
theorem cycleChecks_exact (order : HashOrder) (edges : List EdgeRecord) (nodes : NodeSet) :
    CycleCheckExact
        (fun popped => checkAcyclicWith popped derivationCycle
          (memberLinks [RelType.references, RelType.equivalent] edges nodes) order .derivation)
        (checkDerivationAcyclic order edges nodes)
        (MemberArc [RelType.references, RelType.equivalent] edges nodes) ∧
      CycleCheckExact
        (fun popped => checkAcyclicWith popped provenanceCycle
          (memberLinks [RelType.equivalent] edges nodes) order .provenance)
        (checkAcyclicProvenance order edges nodes) (MemberArc [RelType.equivalent] edges nodes) :=
  ⟨checkAcyclic_exact order .derivation derivationCycle _ edges nodes,
    checkAcyclic_exact order .provenance provenanceCycle _ edges nodes⟩

end ProofEngine
