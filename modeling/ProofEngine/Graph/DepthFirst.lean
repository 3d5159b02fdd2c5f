import ProofEngine.Graph.Validate
import ProofEngine.Lib.DirectedGraph

/-! # The cycle checks decide acyclicity

One turn of the search loop is a step between moments of the search, or it reports a node.  `Sound` is
kept by every step, says that a reported node lies on a cycle, and says of a search that ended that
nothing it reached does.  The number of turns is bounded by `work`, so the loop ends. -/

namespace ProofEngine

open Relation DirectedGraph

theorem mem_from {links : Links} {source target : String} :
    target ∈ links.from source ↔ Arc links source target := by
  simp [Links.from, Arc]

theorem mem_endpoints {links : Links} {node : String} :
    node ∈ links.endpoints ↔ ∃ link ∈ links, node = link.1 ∨ node = link.2 := by
  simp [Links.endpoints]

theorem nodup_endpoints (links : Links) : links.endpoints.Nodup := List.nodup_dedup _

theorem source_mem_endpoints {links : Links} {source target : String} (arc : Arc links source target) :
    source ∈ links.endpoints := mem_endpoints.mpr ⟨_, arc, Or.inl rfl⟩

theorem target_mem_endpoints {links : Links} {source target : String} (arc : Arc links source target) :
    target ∈ links.endpoints := mem_endpoints.mpr ⟨_, arc, Or.inr rfl⟩

@[simp] theorem paint_self (colors : Colors) (node : String) (color : Color) :
    colors.paint node color node = some color := if_pos rfl

theorem paint_other (colors : Colors) {node other : String} (color : Color) (different : other ≠ node) :
    colors.paint node color other = colors other := if_neg different

/-! ## Turns of the loop -/

/-- A moment of the search. -/
structure Walk where
  colors : Colors
  stack : List (String × Bool)

/-- The successors that are not visited yet, last one first. -/
def unvisited (links : Links) (colors : Colors) (node : String) : List String :=
  ((links.from node).filter fun successor => (colors successor).getD .white = .white).reverse

inductive Walk.Step (links : Links) : Walk → Walk → Prop where
  | finish {colors : Colors} {node : String} {stack : List (String × Bool)} :
    Step links ⟨colors, (node, true) :: stack⟩ ⟨colors.paint node .black, stack⟩
  | skip {colors : Colors} {node : String} {stack : List (String × Bool)}
    (black : colors node = some .black) : Step links ⟨colors, (node, false) :: stack⟩ ⟨colors, stack⟩
  | expand {colors : Colors} {node : String} {stack : List (String × Bool)}
    (white : colors node = some .white)
    (passes : ∀ successor, Arc links node successor → colors.paint node .gray successor ≠ some .gray) :
    Step links ⟨colors, (node, false) :: stack⟩
      ⟨colors.paint node .gray,
        (unvisited links (colors.paint node .gray) node).map (·, false) ++ (node, true) :: stack⟩

/-- The turn ends the search with a cycle at this node. -/
inductive Walk.Reports (links : Links) : Walk → String → Prop where
  | stacked {colors : Colors} {node : String} {stack : List (String × Bool)}
    (gray : colors node = some .gray) : Reports links ⟨colors, (node, false) :: stack⟩ node
  | successor {colors : Colors} {node successor : String} {stack : List (String × Bool)}
    (white : colors node = some .white) (arc : Arc links node successor)
    (gray : colors.paint node .gray successor = some .gray) :
    Reports links ⟨colors, (node, false) :: stack⟩ successor

/-- Successors are pushed one over the other until one of them is gray. -/
theorem pushSuccessors_cases (message : String → String) (colors : Colors) (stack : List (String × Bool))
    (successors : List String) :
    (∃ successor ∈ successors, colors successor = some .gray ∧
      pushSuccessors message colors stack successors = cycleError message successor) ∨
    ((∀ successor ∈ successors, colors successor ≠ some .gray) ∧
      pushSuccessors message colors stack successors =
        .ok ((successors.filter fun successor => (colors successor).getD .white = .white).reverse.map (·, false)
          ++ stack)) := by
  -- the stack grows along the list, so the induction is over every stack
  induction successors generalizing stack with
  | nil => exact Or.inr ⟨by simp, rfl⟩
  | cons successor successors inductionHypothesis =>
    rw [pushSuccessors]
    split
    · rename_i black
      have here : colors successor ≠ some .gray := by
        intro gray
        simp [gray] at black
      obtain ⟨other, member, gray, reported⟩ | ⟨passes, pushed⟩ := inductionHypothesis stack
      · exact Or.inl ⟨other, List.mem_cons_of_mem _ member, gray, reported⟩
      · refine Or.inr ⟨List.forall_mem_cons.mpr ⟨here, passes⟩, ?_⟩
        rw [pushed, List.filter_cons_of_neg (by simp [black])]
    · rename_i gray
      cases found : colors successor with
      | none => simp [found] at gray
      | some color =>
        simp only [found, Option.getD_some] at gray
        exact Or.inl ⟨successor, List.mem_cons_self, by rw [found, gray], rfl⟩
    · rename_i white
      have here : colors successor ≠ some .gray := by
        intro gray
        simp [gray] at white
      obtain ⟨other, member, gray, reported⟩ | ⟨passes, pushed⟩ := inductionHypothesis ((successor, false) :: stack)
      · exact Or.inl ⟨other, List.mem_cons_of_mem _ member, gray, reported⟩
      · refine Or.inr ⟨List.forall_mem_cons.mpr ⟨here, passes⟩, ?_⟩
        rw [pushed, List.filter_cons_of_pos (by simp [white])]
        simp

/-- A turn of the loop over a stack whose top node has a colour. -/
theorem searchStack_turn (message : String → String) (links : Links) (fuel : Nat) {colors : Colors}
    {top : String × Bool} {stack : List (String × Bool)} (colored : colors top.1 ≠ none) :
    (∃ next, Walk.Step links ⟨colors, top :: stack⟩ next ∧
      searchStack message links (fuel + 1) colors (top :: stack) =
        searchStack message links fuel next.colors next.stack) ∨
    (∃ node, Walk.Reports links ⟨colors, top :: stack⟩ node ∧
      searchStack message links (fuel + 1) colors (top :: stack) = cycleError message node) := by
  -- an entry marked done closes its node; any other entry is looked at by colour
  obtain ⟨node, done⟩ := top
  cases done with
  | true => exact Or.inl ⟨_, .finish, rfl⟩
  | false =>
    cases found : colors node with
    | none => exact absurd found colored
    | some color =>
      cases color with
      | black => exact Or.inl ⟨_, .skip found, by simp only [searchStack, found]⟩
      | gray => exact Or.inr ⟨_, .stacked found, by simp only [searchStack, found]⟩
      | white =>
        simp only [searchStack, found]
        obtain ⟨successor, member, gray, reported⟩ | ⟨passes, pushed⟩ := pushSuccessors_cases message
          (colors.paint node .gray) ((node, true) :: stack) (links.from node)
        · exact Or.inr ⟨successor, .successor found (mem_from.mp member) gray, by rw [reported]; rfl⟩
        · refine Or.inl ⟨_, .expand found fun successor arc => passes successor (mem_from.mpr arc), ?_⟩
          rw [pushed]
          rfl

/-! ## Termination -/

section Work

theorem countP_add_countP_le {α : Type} (whole left right : α → Bool) (items : List α)
    (leftInside : ∀ item, left item = true → whole item = true)
    (rightInside : ∀ item, right item = true → whole item = true)
    (apart : ∀ item, left item = true → right item = false) :
    items.countP left + items.countP right ≤ items.countP whole := by
  induction items with
  | nil => simp
  | cons item items inductionHypothesis =>
    simp only [List.countP_cons]
    by_cases leftHere : left item = true
    · rw [if_pos leftHere, if_pos (leftInside item leftHere), apart item leftHere]
      simp only [Bool.false_eq_true, if_false]
      omega
    · rw [if_neg leftHere]
      by_cases rightHere : right item = true
      · rw [if_pos rightHere, if_pos (rightInside item rightHere)]
        omega
      · rw [if_neg rightHere]
        omega

/-- What nodes not visited yet can still put on the stack. -/
def pending (links : Links) (white : String → Bool) : Nat :=
  links.endpoints.countP white + links.countP fun link => white link.1

theorem pending_le {links : Links} {before after : String → Bool}
    (shrinks : ∀ node, after node = true → before node = true) : pending links after ≤ pending links before :=
  Nat.add_le_add (List.countP_mono_left fun node _ => shrinks node)
    (List.countP_mono_left fun link _ => shrinks link.1)

theorem pending_visit {links : Links} {before after : String → Bool} {node : String}
    (member : node ∈ links.endpoints) (white : before node = true)
    (shrinks : ∀ other, after other = true → before other = true ∧ other ≠ node) :
    pending links after + (links.from node).length < pending links before := by
  -- the visited node and the links out of it no longer count
  have nodes := countP_add_countP_le before after (fun other => decide (other = node)) links.endpoints
    (fun other still => (shrinks other still).1)
    (fun other same => by rw [of_decide_eq_true same, white])
    (fun other still => decide_eq_false (shrinks other still).2)
  have arcs := countP_add_countP_le (fun link => before link.1) (fun link => after link.1)
    (fun link : String × String => decide (link.1 = node)) links
    (fun link still => (shrinks link.1 still).1)
    (fun link same => by rw [of_decide_eq_true same, white])
    (fun link still => decide_eq_false (shrinks link.1 still).2)
  have once : 0 < links.endpoints.countP fun other => decide (other = node) := by
    rw [List.countP_pos_iff]
    exact ⟨node, member, by simp⟩
  have successors : (links.from node).length = links.countP fun link => decide (link.1 = node) := by
    rw [Links.from, List.length_map, List.countP_eq_length_filter]
  simp only [pending] at *
  omega

def Colors.isWhite (colors : Colors) (node : String) : Bool := colors node = some .white

theorem isWhite_paint {colors : Colors} {node other : String} {color : Color} (painted : color ≠ .white)
    (white : (colors.paint node color).isWhite other = true) : colors.isWhite other = true ∧ other ≠ node := by
  by_cases same : other = node
  · simp [Colors.isWhite, same, painted] at white
  · exact ⟨by simpa [Colors.isWhite, paint_other _ _ same] using white, same⟩

/-- A bound on the turns left. -/
def Walk.work (links : Links) (walk : Walk) : Nat := walk.stack.length + pending links walk.colors.isWhite

theorem Walk.Step.work_lt {links : Links} {before after : Walk} (step : Walk.Step links before after)
    (colored : ∀ node, before.colors node ≠ none → node ∈ links.endpoints) :
    after.work links < before.work links := by
  cases step with
  | @finish colors node stack =>
    -- painting adds no white node, and the stack is one entry shorter
    have less : pending links (colors.paint node .black).isWhite ≤ pending links colors.isWhite :=
      pending_le fun other white => (isWhite_paint (by decide) white).1
    simp only [work, List.length_cons]
    omega
  | skip _ =>
    simp only [work, List.length_cons]
    omega
  | @expand colors node stack white passes =>
    -- the node is no longer white, and it pushes at most its own links
    have less : pending links (colors.paint node .gray).isWhite + (links.from node).length <
        pending links colors.isWhite :=
      pending_visit (colored node (by simp [white])) (by simp [Colors.isWhite, white])
        fun other still => isWhite_paint (by decide) still
    have pushed : (unvisited links (colors.paint node .gray) node).length ≤ (links.from node).length := by
      rw [unvisited, List.length_reverse]
      exact List.length_filter_le _ _
    simp only [work, List.length_append, List.length_map, List.length_cons]
    omega

/-- What every step keeps holds of a search that ended, and of the moment at which one reports. -/
theorem searchStack_run (message : String → String) {links : Links} (holds : Walk → Prop)
    {reported : String → Prop}
    (colored : ∀ walk node, holds walk → (node ∈ links.endpoints ↔ walk.colors node ≠ none))
    (stacked : ∀ walk, holds walk → ∀ item ∈ walk.stack, item.1 ∈ links.endpoints)
    (kept : ∀ before after, holds before → Walk.Step links before after → holds after)
    (found : ∀ walk node, holds walk → Walk.Reports links walk node → reported node)
    {fuel : Nat} {walk : Walk} (start : holds walk) (enough : walk.work links < fuel) :
    (∃ colors, searchStack message links fuel walk.colors walk.stack = .ok colors ∧ holds ⟨colors, []⟩) ∨
    (∃ node, searchStack message links fuel walk.colors walk.stack = cycleError message node ∧
      reported node) := by
  -- each turn uses one unit of fuel and lowers `work`, so enough fuel is never used up
  induction fuel generalizing walk with
  | zero => omega
  | succ fuel inductionHypothesis =>
    obtain ⟨colors, stack⟩ := walk
    cases stack with
    | nil => exact Or.inl ⟨colors, rfl, start⟩
    | cons top stack =>
      have topColored : colors top.1 ≠ none :=
        (colored _ _ start).mp (stacked _ start top List.mem_cons_self)
      obtain ⟨next, step, turned⟩ | ⟨node, reports, turned⟩ :=
        searchStack_turn message links fuel topColored
      · have less := step.work_lt fun node => (colored _ node start).mpr
        rw [turned]
        exact inductionHypothesis (kept _ _ start step) (by omega)
      · exact Or.inr ⟨node, turned, found _ _ start reports⟩

end Work

/-! ## The invariant -/

/-- A node under expansion lower on the stack leads to this one, and is another. -/
def Follows (links : Links) (upper lower : String × Bool) : Prop :=
  lower.2 = true → TransGen (Arc links) lower.1 upper.1 ∧ upper.1 ≠ lower.1

/-- Each successor of a node under expansion is done or still stacked above it. -/
def Explored (links : Links) (colors : Colors) : (above : List String) → List (String × Bool) → Prop
  | _, [] => True
  | above, (node, expanding) :: stack =>
    (expanding = true → ∀ successor, Arc links node successor →
      colors successor = some .black ∨ successor ∈ above) ∧ Explored links colors (node :: above) stack

theorem Explored.mono {links : Links} {before after : Colors} {above others : List String}
    {stack : List (String × Bool)} (explored : Explored links before above stack)
    (black : ∀ node, before node = some .black → after node = some .black)
    (stacked : ∀ node ∈ above, after node = some .black ∨ node ∈ others) :
    Explored links after others stack := by
  induction stack generalizing above others with
  | nil => trivial
  | cons top stack inductionHypothesis =>
    obtain ⟨node, expanding⟩ := top
    constructor
    · intro marked successor arc
      obtain done | higher := explored.1 marked successor arc
      · exact Or.inl (black successor done)
      · exact stacked successor higher
    · apply inductionHypothesis explored.2
      intro other member
      cases member with
      | head => exact Or.inr List.mem_cons_self
      | tail _ member => exact (stacked other member).imp_right (List.mem_cons_of_mem _)

theorem explored_push {links : Links} {colors : Colors} {above : List String} {stack : List (String × Bool)}
    (pushed : List String) (explored : Explored links colors (pushed.reverse ++ above) stack) :
    Explored links colors above (pushed.map (·, false) ++ stack) := by
  induction pushed generalizing above with
  | nil => exact explored
  | cons node pushed inductionHypothesis =>
    constructor
    · intro marked
      cases marked
    · apply inductionHypothesis
      simpa using explored

structure Sound (links : Links) (walk : Walk) : Prop where
  colored : ∀ node, node ∈ links.endpoints ↔ walk.colors node ≠ none
  stacked : ∀ item ∈ walk.stack, item.1 ∈ links.endpoints
  gray : ∀ node, walk.colors node = some .gray ↔ (node, true) ∈ walk.stack
  follows : walk.stack.Pairwise (Follows links)
  explored : Explored links walk.colors [] walk.stack
  closed : ∀ source target, walk.colors source = some .black → Arc links source target →
    walk.colors target = some .black
  acyclic : ∀ node, walk.colors node = some .black → ¬ OnCycle links node

theorem mem_unvisited {links : Links} {colors : Colors} {node successor : String} :
    successor ∈ unvisited links colors node ↔
      Arc links node successor ∧ (colors successor).getD .white = .white := by
  simp [unvisited, mem_from]

theorem paint_ne_none {colors : Colors} {node : String} (color : Color) (known : colors node ≠ none)
    (other : String) : colors.paint node color other ≠ none ↔ colors other ≠ none := by
  by_cases same : other = node
  · simp [same, known]
  · rw [paint_other _ _ same]

section Steps

variable {links : Links} {colors : Colors} {node : String} {stack : List (String × Bool)}

/-- A finished node is black, and no cycle leads back to it. -/
theorem Sound.finish (sound : Sound links ⟨colors, (node, true) :: stack⟩) :
    Sound links ⟨colors.paint node .black, stack⟩ := by
  have here : colors node = some .gray := (sound.gray node).mpr List.mem_cons_self
  have successors : ∀ successor, Arc links node successor → colors successor = some .black := by
    intro successor arc
    exact (sound.explored.1 rfl successor arc).resolve_right List.not_mem_nil
  have stays : ∀ other, colors other = some .black → colors.paint node .black other = some .black := by
    intro other black
    by_cases same : other = node
    · rw [same, paint_self]
    · rw [paint_other _ _ same, black]
  -- two entries under expansion for one node would make it follow itself
  have onlyOnce : (node, true) ∉ stack := by
    intro member
    exact (List.rel_of_pairwise_cons sound.follows member rfl).2 rfl
  constructor
  case colored =>
    intro other
    rw [sound.colored, paint_ne_none _ (by simp [here])]
  case stacked => exact fun item member => sound.stacked item (List.mem_cons_of_mem _ member)
  case gray =>
    intro other
    by_cases same : other = node
    · simp only [same, paint_self, Option.some.injEq, reduceCtorEq, false_iff]
      exact onlyOnce
    · simp only [paint_other _ _ same]
      rw [sound.gray other]
      simp [same]
  case follows => exact sound.follows.of_cons
  case explored =>
    apply sound.explored.2.mono stays
    intro other member
    rw [List.mem_singleton.mp member, paint_self]
    exact Or.inl rfl
  case closed =>
    intro source target black arc
    by_cases same : source = node
    · exact stays target (successors target (same ▸ arc))
    · simp only [paint_other _ _ same] at black
      exact stays target (sound.closed source target black arc)
  case acyclic =>
    intro other black cycle
    by_cases same : other = node
    · -- everything after a successor is black, and the node itself was gray
      obtain ⟨next, arc, reach⟩ := exists_arc_of_onCycle (same ▸ cycle)
      have again := closed_of_reach sound.closed (successors next arc) reach
      simp [here] at again
    · simp only [paint_other _ _ same] at black
      exact sound.acyclic other black cycle

theorem Sound.skip (sound : Sound links ⟨colors, (node, false) :: stack⟩) (black : colors node = some .black) :
    Sound links ⟨colors, stack⟩ where
  colored := sound.colored
  stacked item member := sound.stacked item (List.mem_cons_of_mem _ member)
  gray other := by simpa using sound.gray other
  follows := sound.follows.of_cons
  explored := sound.explored.2.mono (fun _ => id) fun other member => by
    rw [List.mem_singleton.mp member]
    exact Or.inl black
  closed := sound.closed
  acyclic := sound.acyclic

/-- An expanded node leads to the nodes it pushes, and so does everything that leads to it. -/
theorem Sound.expand (sound : Sound links ⟨colors, (node, false) :: stack⟩)
    (white : colors node = some .white)
    (passes : ∀ successor, Arc links node successor → colors.paint node .gray successor ≠ some .gray) :
    Sound links ⟨colors.paint node .gray,
      (unvisited links (colors.paint node .gray) node).map (·, false) ++ (node, true) :: stack⟩ := by
  have unpainted : ∀ other, colors.paint node .gray other = some .black ↔ colors other = some .black := by
    intro other
    by_cases same : other = node
    · simp [same, white]
    · rw [paint_other _ _ same]
  -- what led to the unvisited entry leads to the node it becomes
  have below : ∀ lower ∈ stack, Follows links (node, false) lower :=
    fun lower member => List.rel_of_pairwise_cons sound.follows member
  constructor
  case colored =>
    intro other
    rw [sound.colored, paint_ne_none _ (by simp [white])]
  case stacked =>
    intro item member
    simp only [List.mem_append, List.mem_map, List.mem_cons] at member
    obtain ⟨successor, inside, rfl⟩ | rfl | member := member
    · exact target_mem_endpoints (mem_unvisited.mp inside).1
    · exact sound.stacked (node, false) List.mem_cons_self
    · exact sound.stacked item (List.mem_cons_of_mem _ member)
  case gray =>
    intro other
    by_cases same : other = node
    · simp [same]
    · simp only [paint_other _ _ same]
      rw [sound.gray other]
      simp [same]
  case follows =>
    rw [List.pairwise_append, List.pairwise_cons]
    refine ⟨?_, ⟨below, sound.follows.of_cons⟩, ?_⟩
    · rw [List.pairwise_map]
      exact List.pairwise_of_forall fun _ _ marked => by cases marked
    · intro upper upperMember lower lowerMember marked
      obtain ⟨successor, inside, rfl⟩ := List.mem_map.mp upperMember
      obtain ⟨arc, notVisited⟩ := mem_unvisited.mp inside
      cases lowerMember with
      | head =>
        refine ⟨TransGen.single arc, ?_⟩
        intro (same : successor = node)
        simp [same] at notVisited
      | tail _ lowerMember =>
        obtain ⟨leads, _⟩ := below lower lowerMember marked
        refine ⟨leads.tail arc, ?_⟩
        intro (same : successor = lower.1)
        -- an entry under expansion is gray, so it is not among the nodes pushed
        have gray : colors lower.1 = some .gray :=
          (sound.gray lower.1).mpr (List.mem_cons_of_mem _ (marked ▸ lowerMember))
        have different : lower.1 ≠ node := by
          intro again
          rw [again, white] at gray
          cases gray
        rw [same, paint_other _ _ different, gray] at notVisited
        cases notVisited
  case explored =>
    apply explored_push
    refine ⟨fun _ successor arc => ?_, ?_⟩
    · -- the loop would have stopped at a gray successor; the others are black or pushed here
      cases color : colors.paint node .gray successor with
      | none => exact Or.inr (by simp [mem_unvisited, arc, color])
      | some color' =>
        cases color' with
        | black => exact Or.inl color
        | gray => exact absurd color (passes successor arc)
        | white => exact Or.inr (by simp [mem_unvisited, arc, color])
    · apply sound.explored.2.mono fun other black => (unpainted other).mpr black
      intro other member
      rw [List.mem_singleton.mp member]
      exact Or.inr List.mem_cons_self
  case closed =>
    intro source target black arc
    exact (unpainted target).mpr (sound.closed source target ((unpainted source).mp black) arc)
  case acyclic =>
    intro other black
    exact sound.acyclic other ((unpainted other).mp black)

end Steps

theorem Sound.step {links : Links} {before after : Walk} (sound : Sound links before)
    (step : Walk.Step links before after) : Sound links after := by
  cases step with
  | finish => exact sound.finish
  | skip black => exact sound.skip black
  | expand white passes => exact sound.expand white passes

/-- A reported node is a node under expansion that is met again. -/
theorem Sound.reports {links : Links} {walk : Walk} {node : String} (sound : Sound links walk)
    (reports : Walk.Reports links walk node) : OnCycle links node := by
  cases reports with
  | stacked gray =>
    -- a gray node is under expansion lower on the stack, and leads to where it is met again
    have lower := (sound.gray node).mp gray
    simp only [List.mem_cons, Prod.mk.injEq, reduceCtorEq, and_false, false_or] at lower
    exact (List.rel_of_pairwise_cons sound.follows lower rfl).1
  | @successor colors expanded _ stack white arc gray =>
    by_cases same : node = expanded
    · exact TransGen.single (same ▸ arc)
    · rw [paint_other _ _ same] at gray
      have lower := (sound.gray node).mp gray
      simp only [List.mem_cons, Prod.mk.injEq, reduceCtorEq, and_false, false_or] at lower
      exact (List.rel_of_pairwise_cons sound.follows lower rfl).1.tail arc

/-! ## Whole searches -/

/-- The node was visited, or waits on the stack. -/
def Walk.Visits (node : String) (walk : Walk) : Prop :=
  walk.colors node ≠ some .white ∨ (node, false) ∈ walk.stack

theorem Walk.Visits.step {links : Links} {before after : Walk} {node : String} (visits : before.Visits node)
    (step : Walk.Step links before after) : after.Visits node := by
  cases step with
  | @finish colors done stack =>
    by_cases same : node = done
    · simp [Visits, same]
    · simpa [Visits, paint_other _ _ same] using visits
  | @skip colors done stack black =>
    by_cases same : node = done
    · simp [Visits, same, black]
    · simpa [Visits, same] using visits
  | @expand colors expanded stack white passes =>
    by_cases same : node = expanded
    · simp [Visits, same]
    · obtain visited | waits := visits
      · exact Or.inl (by simpa [paint_other _ _ same] using visited)
      · simp only [List.mem_cons, Prod.mk.injEq, same, false_and, false_or] at waits
        exact Or.inr (List.mem_append_right _ (List.mem_cons_of_mem _ waits))

section Search

variable {links : Links} {colors : Colors} {node : String}

theorem Sound.start (sound : Sound links ⟨colors, []⟩) (member : node ∈ links.endpoints) :
    Sound links ⟨colors, [(node, false)]⟩ where
  colored := sound.colored
  stacked item inside := by
    rw [List.mem_singleton.mp inside]
    exact member
  gray other := by simpa using sound.gray other
  follows := List.pairwise_singleton _ _
  explored := ⟨(fun marked => nomatch marked), trivial⟩
  closed := sound.closed
  acyclic := sound.acyclic

/-- At the end of a search every visited node is black. -/
theorem Sound.black (sound : Sound links ⟨colors, []⟩) (member : node ∈ links.endpoints)
    (visited : colors node ≠ some .white) : colors node = some .black := by
  cases color : colors node with
  | none => exact absurd color ((sound.colored node).mp member)
  | some found =>
    cases found with
    | white => exact absurd color visited
    | gray => exact absurd ((sound.gray node).mp color) List.not_mem_nil
    | black => rfl

theorem sound_initial (links : Links) :
    Sound links ⟨fun node => if links.endpoints.contains node then some .white else none, []⟩ := by
  have notBlack : ∀ node, (if links.endpoints.contains node then some Color.white else none) ≠ some .black := by
    intro node
    split <;> simp
  constructor
  case colored => intro node; by_cases member : node ∈ links.endpoints <;> simp [member]
  case stacked => exact fun _ inside => absurd inside List.not_mem_nil
  case gray => intro node; by_cases member : node ∈ links.endpoints <;> simp [member]
  case follows => exact List.Pairwise.nil
  case explored => trivial
  case closed => exact fun source _ black => absurd black (notBlack source)
  case acyclic => exact fun node black => absurd black (notBlack node)

theorem pending_le_all (links : Links) (white : String → Bool) :
    pending links white ≤ links.length + links.endpoints.length := by
  have nodes := List.countP_le_length (p := white) (l := links.endpoints)
  have arcs := List.countP_le_length (p := fun link => white link.1) (l := links)
  rw [pending]
  omega

theorem work_start_lt (links : Links) (colors : Colors) (node : String) :
    Walk.work links ⟨colors, [(node, false)]⟩ < 2 * (links.length + links.endpoints.length) + 2 := by
  have bound := pending_le_all links colors.isWhite
  simp only [Walk.work, List.length_singleton]
  omega

end Search

theorem searchStarts_spec (message : String → String) {links : Links} {colors : Colors} {starts : List String}
    (sound : Sound links ⟨colors, []⟩) (members : ∀ start ∈ starts, start ∈ links.endpoints) :
    (searchStarts message links (2 * (links.length + links.endpoints.length) + 2) colors starts = .ok () ∧
      ∀ start ∈ starts, ¬ OnCycle links start) ∨
    (∃ node, searchStarts message links (2 * (links.length + links.endpoints.length) + 2) colors starts =
      cycleError message node ∧ OnCycle links node) := by
  induction starts generalizing colors with
  | nil => exact Or.inl ⟨rfl, fun _ member => absurd member List.not_mem_nil⟩
  | cons start starts inductionHypothesis =>
    have member := members start List.mem_cons_self
    have others := fun other inside => members other (List.mem_cons_of_mem start inside)
    -- a start that an earlier search visited is black by now, and is passed over
    by_cases white : colors start = some .white
    · simp only [searchStarts, white]
      obtain ⟨searched, done, sound, visited⟩ | ⟨node, reported, cycle⟩ :=
        searchStack_run message (fun walk => Sound links walk ∧ walk.Visits start)
          (fun _ node held => held.1.colored node) (fun _ held => held.1.stacked)
          (fun _ _ held step => ⟨held.1.step step, held.2.step step⟩)
          (fun _ _ held reports => held.1.reports reports)
          ⟨sound.start member, Or.inr List.mem_cons_self⟩ (work_start_lt links colors start)
      · rw [done]
        simp only [ok_bind]
        have black := sound.black member (visited.resolve_right List.not_mem_nil)
        obtain ⟨finished, acyclic⟩ | reports := inductionHypothesis sound others
        · exact Or.inl ⟨finished, List.forall_mem_cons.mpr ⟨sound.acyclic start black, acyclic⟩⟩
        · exact Or.inr reports
      · rw [reported]
        exact Or.inr ⟨node, rfl, cycle⟩
    · have black := sound.black member white
      simp only [searchStarts, black]
      obtain ⟨finished, acyclic⟩ | reports := inductionHypothesis sound others
      · exact Or.inl ⟨finished, List.forall_mem_cons.mpr ⟨sound.acyclic start black, acyclic⟩⟩
      · exact Or.inr reports

/-- The check passes on graphs without cycles and otherwise reports a node on one, in every order. -/
theorem checkAcyclic_spec (order : HashOrder) (site : HashSite) (message : String → String) (links : Links) :
    (checkAcyclic order site message links = .ok () ∧ Acyclic links) ∨
    (∃ node, checkAcyclic order site message links = cycleError message node ∧ OnCycle links node) := by
  have perm := order.perm site links.endpoints
  have members : ∀ start ∈ order.visit site links.endpoints, start ∈ links.endpoints :=
    fun _ member => perm.subset member
  obtain ⟨finished, acyclic⟩ | reports := searchStarts_spec message (sound_initial links) members
  · refine Or.inl ⟨finished, fun node cycle => ?_⟩
    -- every node of a cycle has a link out, so it was one of the starts
    obtain ⟨next, arc, _⟩ := exists_arc_of_onCycle cycle
    exact acyclic node (perm.symm.subset (source_mem_endpoints arc)) cycle
  · exact Or.inr reports

/-! ## The reported node depends on the order -/

/-- The search began at `first`, and never expanded `named`. -/
structure Rooted (first named : String) (walk : Walk) : Prop where
  visits : walk.Visits first
  notGray : walk.colors named ≠ some .gray
  bottom : walk.stack = [(first, false)] ∨ walk.stack = [] ∨ ∃ above, walk.stack = above ++ [(first, true)]

section Rooted

variable {links : Links} {first named : String} {before after : Walk}

/-- While `first` is under expansion, expanding its predecessor would report a cycle. -/
theorem Rooted.step (rooted : Rooted first named before) (sound : Sound links before)
    (loopless : ∀ node, ¬ Arc links node node) (arc : Arc links named first)
    (step : Walk.Step links before after) : Rooted first named after := by
  have visits := rooted.visits.step step
  cases step with
  | @finish colors node stack =>
    refine ⟨visits, ?_, ?_⟩
    · by_cases same : named = node
      · simp [same]
      · simpa [paint_other _ _ same] using rooted.notGray
    · obtain alone | idle | ⟨above, split⟩ := rooted.bottom
      · simp at alone
      · simp at idle
      · cases above with
        | nil => simp_all
        | cons top above => exact Or.inr (Or.inr ⟨above, (List.cons.inj split).2⟩)
  | @skip colors node stack black =>
    refine ⟨visits, rooted.notGray, ?_⟩
    obtain alone | idle | ⟨above, split⟩ := rooted.bottom
    · simp_all
    · simp at idle
    · cases above with
      | nil => simp at split
      | cons top above => exact Or.inr (Or.inr ⟨above, (List.cons.inj split).2⟩)
  | @expand colors node stack white passes =>
    -- expanding `named` would meet `first`, which is gray at the bottom of the stack
    have different : named ≠ node := by
      intro same
      obtain alone | idle | ⟨above, split⟩ := rooted.bottom
      · simp only [List.cons.injEq, Prod.mk.injEq, and_true] at alone
        rw [same, alone.1] at arc
        exact loopless first arc
      · simp at idle
      · have gray : colors first = some .gray := by
          apply (sound.gray first).mpr
          rw [split]
          exact List.mem_append_right _ List.mem_cons_self
        have apart : first ≠ node := by
          intro again
          rw [again, white] at gray
          cases gray
        exact passes first (same ▸ arc) (by rw [paint_other _ _ apart, gray])
    refine ⟨visits, by simpa [paint_other _ _ different] using rooted.notGray, Or.inr (Or.inr ?_)⟩
    obtain alone | idle | ⟨above, split⟩ := rooted.bottom
    · simp only [List.cons.injEq, Prod.mk.injEq, and_true] at alone
      rw [alone.1, alone.2]
      exact ⟨_, rfl⟩
    · simp at idle
    · cases above with
      | nil => simp at split
      | cons top above =>
        have rest : stack = above ++ [(first, true)] := (List.cons.inj split).2
        rw [rest, ← List.cons_append, ← List.append_assoc]
        exact ⟨_, rfl⟩

theorem Rooted.reports {node : String} (rooted : Rooted first named before)
    (loopless : ∀ node, ¬ Arc links node node) (reports : Walk.Reports links before node) : node ≠ named := by
  intro same
  cases reports with
  | stacked gray => exact rooted.notGray (same ▸ gray)
  | @successor colors expanded _ stack white arc gray =>
    by_cases again : node = expanded
    · exact loopless expanded (again ▸ arc)
    · rw [paint_other _ _ again] at gray
      exact rooted.notGray (same ▸ gray)

end Rooted

/-- Searching from the successor of a node on a cycle reports another node of a cycle. -/
theorem checkAcyclic_avoids {order : HashOrder} {site : HashSite} (message : String → String) {links : Links}
    {first named : String} {rest : List String} (visit : order.visit site links.endpoints = first :: rest)
    (loopless : ∀ node, ¬ Arc links node node) (arc : Arc links named first) (cycle : OnCycle links first) :
    ∃ node, checkAcyclic order site message links = cycleError message node ∧ node ≠ named := by
  have member : first ∈ links.endpoints := target_mem_endpoints arc
  have sound := sound_initial links
  have white : ∀ node ∈ links.endpoints,
      (if links.endpoints.contains node then some Color.white else none) = some .white := by
    intro node inside
    simp [inside]
  have rooted : Rooted first named
      ⟨fun node => if links.endpoints.contains node then some .white else none, [(first, false)]⟩ :=
    ⟨Or.inr List.mem_cons_self, by simp, Or.inl rfl⟩
  simp only [checkAcyclic, visit, searchStarts, white first member]
  obtain ⟨searched, _, ended, final⟩ | ⟨node, reported, other⟩ :=
    searchStack_run message (fun walk => Sound links walk ∧ Rooted first named walk)
      (fun _ node held => held.1.colored node) (fun _ held => held.1.stacked)
      (fun _ _ held step => ⟨held.1.step step, held.2.step held.1 loopless arc step⟩)
      (fun _ _ held reports => held.2.reports loopless reports)
      ⟨sound.start member, rooted⟩ (work_start_lt links _ first)
  · have black := ended.black member (final.visits.resolve_right List.not_mem_nil)
    exact absurd cycle (ended.acyclic first black)
  · rw [reported]
    exact ⟨node, rfl, other⟩

/-- The order that starts at a given element. -/
def HashOrder.startingAt (first : String) : HashOrder where
  visit _ items := if first ∈ items then first :: items.erase first else items
  perm _ items := by
    by_cases member : first ∈ items
    · rw [if_pos member]
      exact (List.perm_cons_erase member).symm
    · rw [if_neg member]

/-- On a graph with a cycle, no node is reported in every order. -/
theorem exists_other_report (order : HashOrder) (site : HashSite) (message : String → String) {links : Links}
    (loopless : ∀ node, ¬ Arc links node node) (cyclic : ¬ Acyclic links) :
    ∃ other left right, left ≠ right ∧ checkAcyclic order site message links = cycleError message left ∧
      checkAcyclic other site message links = cycleError message right := by
  obtain ⟨_, acyclic⟩ | ⟨named, reported, cycle⟩ := checkAcyclic_spec order site message links
  · exact absurd acyclic cyclic
  · obtain ⟨first, arc, back⟩ := exists_arc_of_onCycle cycle
    have visit : (HashOrder.startingAt first).visit site links.endpoints =
        first :: links.endpoints.erase first := if_pos (target_mem_endpoints arc)
    obtain ⟨node, avoids, different⟩ := checkAcyclic_avoids message visit loopless arc
      (TransGen.tail' back arc)
    exact ⟨HashOrder.startingAt first, named, node, different.symm, reported, avoids⟩

end ProofEngine
