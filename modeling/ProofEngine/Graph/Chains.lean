import ProofEngine.Graph.DepthFirst

/-! # Supersession chains

The branch check establishes that the supersession links are linear.  On linear links the loop pops every
node that has a depth exactly once, and the distance it leaves at a node is the depth: so it sees all
nodes when there is no cycle, and `longest` is the length of the longest chain, in whatever order the
sources are walked. -/

namespace ProofEngine

open Relation DirectedGraph

/-! ## Branches -/

def Branches (links : Links) (node : String) : Prop := 1 < outDegree links node ∨ 1 < inDegree links node

def branchError {α : Type} (node : String) : Result α :=
  .error (ErrorCode.schemaViolation.err ("supersedes must be linear chains (branch at " ++ node ++ ")"))

theorem outDegree_eq_count (links : Links) (node : String) :
    outDegree links node = (links.map Prod.fst).count node := by
  rw [outDegree, List.count, List.countP_map]
  exact List.countP_congr fun link _ => by simp

theorem inDegree_eq_count (links : Links) (node : String) :
    inDegree links node = (links.map Prod.snd).count node := by
  rw [inDegree, List.count, List.countP_map]
  exact List.countP_congr fun link _ => by simp

theorem linear_iff_not_branches {links : Links} : Linear links ↔ ∀ node, ¬ Branches links node := by
  constructor
  · intro linear node
    have out := List.nodup_iff_count_le_one.mp linear.sources node
    have into := List.nodup_iff_count_le_one.mp linear.targets node
    rw [Branches, outDegree_eq_count, inDegree_eq_count]
    omega
  · intro unbranched
    simp only [Branches, outDegree_eq_count, inDegree_eq_count, not_or, not_lt] at unbranched
    exact ⟨List.nodup_iff_count_le_one.mpr fun node => (unbranched node).1,
      List.nodup_iff_count_le_one.mpr fun node => (unbranched node).2⟩

theorem Branches.mem_endpoints {links : Links} {node : String} (branches : Branches links node) :
    node ∈ links.endpoints := by
  rw [Branches, outDegree_eq_count, inDegree_eq_count] at branches
  -- more than one link at this side, so at least one
  obtain out | into := branches
  · obtain ⟨link, member, rfl⟩ := List.mem_map.mp (List.count_pos_iff.mp (Nat.zero_lt_of_lt out))
    exact source_mem_endpoints member
  · obtain ⟨link, member, rfl⟩ := List.mem_map.mp (List.count_pos_iff.mp (Nat.zero_lt_of_lt into))
    exact target_mem_endpoints member

/-- The first branching node in the order of the walk is reported. -/
theorem checkLinear_cases (links : Links) (nodes : List String) :
    ((∀ node ∈ nodes, ¬ Branches links node) ∧ checkLinear links nodes = .ok ()) ∨
    (∃ node ∈ nodes, Branches links node ∧ checkLinear links nodes = branchError node) := by
  induction nodes with
  | nil => exact Or.inl ⟨fun _ member => absurd member List.not_mem_nil, rfl⟩
  | cons node nodes inductionHypothesis =>
    rw [checkLinear]
    by_cases here : Branches links node
    · exact Or.inr ⟨node, List.mem_cons_self, here, if_pos here⟩
    · rw [if_neg (show ¬ (1 < outDegree links node ∨ 1 < inDegree links node) from here)]
      obtain ⟨others, passes⟩ | ⟨other, member, branches, reported⟩ := inductionHypothesis
      · exact Or.inl ⟨List.forall_mem_cons.mpr ⟨here, others⟩, passes⟩
      · exact Or.inr ⟨other, List.mem_cons_of_mem _ member, branches, reported⟩

theorem checkLinear_head {links : Links} {node : String} (nodes : List String) (branches : Branches links node) :
    checkLinear links (node :: nodes) = branchError node := by
  rw [checkLinear]
  exact if_pos branches

/-! ## The loop -/

/-- What the loop knows when it has popped the nodes `done`. -/
structure Chained (links : Links) (done : List String) (state : ChainState) : Prop where
  nodup : (done ++ state.stack).Nodup
  seen : state.seen = done.length
  members : ∀ node ∈ done ++ state.stack, node ∈ links.endpoints
  depth : ∀ node ∈ done ++ state.stack,
    ∃ depth, state.dist node = some depth ∧ Depth links node depth ∧ depth ≤ state.longest
  predecessors : ∀ node ∈ done ++ state.stack, ∀ previous, Arc links previous node → previous ∈ done
  successors : ∀ node ∈ done, ∀ next, Arc links node next → next ∈ done ++ state.stack
  sources : ∀ node ∈ links.endpoints, (∀ previous, ¬ Arc links previous node) → node ∈ done ++ state.stack
  untouched : ∀ node ∈ links.endpoints, node ∉ done ++ state.stack →
    state.dist node = some 1 ∧ state.indeg node = some 1
  attained : state.longest = 1 ∨ ∃ node ∈ links.endpoints, Depth links node state.longest

theorem from_cases {links : Links} (linear : Linear links) (node : String) :
    links.from node = [] ∨ ∃ next, links.from node = [next] := by
  -- the links from a node are counted by its out-degree
  have few : (links.from node).length ≤ 1 := by
    have degree := List.nodup_iff_count_le_one.mp linear.sources node
    rw [← outDegree_eq_count, outDegree, List.countP_eq_length_filter] at degree
    rw [Links.from, List.length_map]
    exact degree
  cases found : links.from node with
  | nil => exact Or.inl rfl
  | cons next rest =>
    rw [found, List.length_cons] at few
    have ended : rest = [] := List.length_eq_zero_iff.mp (by omega)
    exact Or.inr ⟨next, by rw [ended]⟩

section Turn

variable {links : Links} {done stack : List String} {state : ChainState} {node : String}

/-- Popping the last node of a chain. -/
theorem Chained.pop (chained : Chained links done state) (top : state.stack = node :: stack)
    (last : ∀ next, ¬ Arc links node next) :
    Chained links (node :: done) { state with stack, seen := state.seen + 1 } := by
  have perm : (node :: done ++ stack).Perm (done ++ state.stack) := by
    rw [top]
    exact List.perm_middle.symm
  constructor
  case nodup => exact perm.nodup_iff.mpr chained.nodup
  case seen => simp [chained.seen]
  case members => exact fun other member => chained.members other (perm.subset member)
  case depth => exact fun other member => chained.depth other (perm.subset member)
  case predecessors =>
    intro other member previous arc
    exact List.mem_cons_of_mem _ (chained.predecessors other (perm.subset member) previous arc)
  case successors =>
    intro other member next arc
    cases member with
    | head => exact absurd arc (last next)
    | tail _ member => exact perm.symm.subset (chained.successors other member next arc)
  case sources =>
    intro other member initial
    exact perm.symm.subset (chained.sources other member initial)
  case untouched =>
    intro other member outside
    exact chained.untouched other member fun inside => outside (perm.symm.subset inside)
  case attained => exact chained.attained

/-- Popping a node pushes its successor, one step deeper. -/
theorem Chained.push (linear : Linear links) (chained : Chained links done state)
    (top : state.stack = node :: stack) {next : String} (arc : Arc links node next) {depth : Nat}
    (reached : state.dist node = some depth) :
    ∃ relaxed, relaxSuccessor depth { state with stack, seen := state.seen + 1 } next = .ok relaxed ∧
      Chained links (node :: done) relaxed := by
  have here : node ∈ done ++ state.stack := by simp [top]
  obtain ⟨known, same, nodeDepth, bounded⟩ := chained.depth node here
  cases reached.symm.trans same
  -- the only predecessor of the successor is popped now, so the successor is untouched
  have fresh : next ∉ done ++ state.stack := by
    intro member
    have before := chained.predecessors next member node arc
    have apart := List.disjoint_of_nodup_append chained.nodup before
    simp [top] at apart
  have nextMember : next ∈ links.endpoints := target_mem_endpoints arc
  obtain ⟨distance, degree⟩ := chained.untouched next nextMember fresh
  have farther : 1 < depth + 1 := by
    have positive := nodeDepth.pos
    omega
  refine ⟨_, by simp only [relaxSuccessor, distance, degree, farther, if_true]; rfl, ?_⟩
  have perm : (node :: done ++ next :: stack).Perm (next :: (done ++ state.stack)) := by
    rw [top]
    exact List.perm_middle.trans (List.perm_middle.symm.cons next)
  have touched : ∀ {other}, other ∈ node :: done ++ next :: stack ↔ other = next ∨ other ∈ done ++ state.stack :=
    fun {other} => perm.mem_iff.trans List.mem_cons
  constructor
  case nodup => exact perm.nodup_iff.mpr (List.nodup_cons.mpr ⟨fresh, chained.nodup⟩)
  case seen => simp [chained.seen]
  case members =>
    intro other member
    obtain rfl | member := touched.mp member
    · exact nextMember
    · exact chained.members other member
  case depth =>
    intro other member
    obtain rfl | member := touched.mp member
    · exact ⟨depth + 1, if_pos rfl, nodeDepth.next arc, le_max_right _ _⟩
    · obtain ⟨found, distance, otherDepth, le⟩ := chained.depth other member
      have different : other ≠ next := fun again => fresh (again ▸ member)
      exact ⟨found, (if_neg different).trans distance, otherDepth, le_max_of_le_left le⟩
  case predecessors =>
    intro other member previous before
    obtain rfl | member := touched.mp member
    · rw [linear.same_source before arc]
      exact List.mem_cons_self
    · exact List.mem_cons_of_mem _ (chained.predecessors other member previous before)
  case successors =>
    intro other member following after
    apply touched.mpr
    cases member with
    | head =>
      refine Or.inl ?_
      exact congrArg Prod.snd (List.inj_on_of_nodup_map linear.sources after arc rfl)
    | tail _ member => exact Or.inr (chained.successors other member following after)
  case sources =>
    intro other member initial
    exact touched.mpr (Or.inr (chained.sources other member initial))
  case untouched =>
    intro other member outside
    have different : other ≠ next := fun again => outside (touched.mpr (Or.inl again))
    obtain ⟨distance, degree⟩ :=
      chained.untouched other member fun inside => outside (touched.mpr (Or.inr inside))
    exact ⟨(if_neg different).trans distance, (if_neg different).trans degree⟩
  case attained =>
    rcases le_total state.longest (depth + 1) with le | le
    · refine Or.inr ⟨next, nextMember, ?_⟩
      rw [max_eq_right le]
      exact nodeDepth.next arc
    · simp only [max_eq_left le]
      exact chained.attained

end Turn

theorem chainLoop_run {links : Links} (linear : Linear links) {fuel : Nat} {done : List String}
    {state : ChainState} (chained : Chained links done state)
    (enough : links.endpoints.length < fuel + done.length) :
    ∃ popped final, chainLoop links fuel state = .ok final ∧ Chained links popped final ∧ final.stack = [] := by
  induction fuel generalizing done state with
  | zero =>
    -- more pops than nodes: a node would be popped twice
    have few := (List.subperm_of_subset chained.nodup.of_append_left
      fun node member => chained.members node (List.mem_append_left _ member)).length_le
    omega
  | succ fuel inductionHypothesis =>
    rw [chainLoop]
    match top : state.stack with
    | [] => exact ⟨done, state, rfl, chained, top⟩
    | node :: stack =>
      obtain ⟨depth, reached, _⟩ := chained.depth node (by simp [top])
      simp only [reached]
      have more : links.endpoints.length < fuel + (node :: done).length := by
        rw [List.length_cons]
        omega
      -- the fold over successors has at most one turn
      obtain last | ⟨next, only⟩ := from_cases linear node
      · rw [last]
        exact inductionHypothesis
          (chained.pop top fun next arc => absurd (mem_from.mpr arc) (by simp [last])) more
      · have arc : Arc links node next := mem_from.mp (by simp [only])
        obtain ⟨relaxed, pushed, kept⟩ := chained.push linear top arc reached
        rw [only]
        simp only [List.foldlM_cons, List.foldlM_nil, pushed, ok_bind, pure_eq_ok]
        exact inductionHypothesis kept more

/-! ## The check -/

theorem inDegree_eq_zero {links : Links} {node : String} :
    inDegree links node = 0 ↔ ∀ previous, ¬ Arc links previous node := by
  rw [inDegree_eq_count, List.count_eq_zero]
  constructor
  · intro absent previous arc
    exact absent (List.mem_map_of_mem arc)
  · intro initial member
    obtain ⟨⟨previous, target⟩, inside, rfl⟩ := List.mem_map.mp member
    exact initial previous inside

/-- The counters before the first turn: the stack holds the nodes without predecessor. -/
def ChainState.start (order : HashOrder) (links : Links) : ChainState :=
  let indeg := fun node => if inDegree links node = 0 then none else some (inDegree links node)
  { stack := ((order.visit .sources links.endpoints).filter fun node => (indeg node).getD 0 = 0).reverse
    indeg
    dist := fun node => if links.endpoints.contains node then some 1 else none
    seen := 0
    longest := 1 }

theorem mem_start_stack {order : HashOrder} {links : Links} {node : String} :
    node ∈ (ChainState.start order links).stack ↔ node ∈ links.endpoints ∧ inDegree links node = 0 := by
  have degree : ((if inDegree links node = 0 then none else some (inDegree links node)).getD 0 = 0) ↔
      inDegree links node = 0 := by
    split <;> simp_all
  simp [ChainState.start, (order.perm .sources links.endpoints).mem_iff, degree]

theorem chained_start (order : HashOrder) {links : Links} (linear : Linear links) :
    Chained links [] (ChainState.start order links) := by
  have distance : ∀ node ∈ links.endpoints, (ChainState.start order links).dist node = some 1 := by
    intro node member
    exact if_pos (List.contains_iff_mem.mpr member)
  constructor
  case nodup =>
    have walked : (order.visit .sources links.endpoints).Nodup :=
      (order.perm .sources links.endpoints).nodup_iff.mpr (nodup_endpoints links)
    exact List.nodup_reverse.mpr (walked.filter _)
  case seen => rfl
  case members => exact fun node member => (mem_start_stack.mp member).1
  case depth =>
    intro node member
    obtain ⟨inside, initial⟩ := mem_start_stack.mp member
    exact ⟨1, distance node inside, .source (inDegree_eq_zero.mp initial), le_rfl⟩
  case predecessors =>
    intro node member previous arc
    exact absurd arc (inDegree_eq_zero.mp (mem_start_stack.mp member).2 previous)
  case successors => exact fun _ member => absurd member List.not_mem_nil
  case sources => exact fun node member initial => mem_start_stack.mpr ⟨member, inDegree_eq_zero.mpr initial⟩
  case untouched =>
    intro node member outside
    have entered : inDegree links node ≠ 0 := fun initial => outside (mem_start_stack.mpr ⟨member, initial⟩)
    -- not a source, and at most one link leads here
    have one : inDegree links node = 1 := by
      have few := List.nodup_iff_count_le_one.mp linear.targets node
      rw [← inDegree_eq_count] at few
      omega
    refine ⟨distance node member, ?_⟩
    simp only [ChainState.start]
    rw [if_neg entered, one]
  case attained => exact Or.inl rfl

/-- A loop that ended has popped exactly the nodes that have a depth. -/
theorem Chained.mem_done {links : Links} {done : List String} {state : ChainState}
    (chained : Chained links done state) (ended : state.stack = []) {node : String} {depth : Nat}
    (found : Depth links node depth) (member : node ∈ links.endpoints) : node ∈ done := by
  induction found with
  | source initial => simpa [ended] using chained.sources _ member initial
  | next _ arc inductionHypothesis =>
    have before := inductionHypothesis (source_mem_endpoints arc)
    simpa [ended] using chained.successors _ before _ arc

/-- All nodes were seen when there is no cycle. -/
theorem Chained.seen_all {links : Links} {done : List String} {state : ChainState} (linear : Linear links)
    (chained : Chained links done state) (ended : state.stack = []) :
    state.seen = links.endpoints.length ↔ Acyclic links := by
  have popped : done.Nodup := chained.nodup.of_append_left
  have inside : done ⊆ links.endpoints := fun node member => chained.members node (List.mem_append_left _ member)
  rw [chained.seen]
  constructor
  · intro all
    -- as many popped as there are, all different: every node was popped, hence has a depth
    have perm := (List.subperm_of_subset popped inside).perm_of_length_le all.ge
    apply acyclic_of_depth linear
    intro arc member
    have before : arc.1 ∈ done := perm.symm.subset (source_mem_endpoints member)
    obtain ⟨depth, _, found, _⟩ := chained.depth arc.1 (List.mem_append_left _ before)
    exact ⟨depth, found⟩
  · intro acyclic
    apply List.Perm.length_eq
    apply (List.perm_ext_iff_of_nodup popped (nodup_endpoints links)).mpr
    intro node
    refine ⟨fun member => inside member, fun member => ?_⟩
    obtain ⟨depth, found⟩ := exists_depth acyclic node
    exact chained.mem_done ended found member

/-- The length of the longest chain. -/
def Longest (links : Links) (length : Nat) : Prop :=
  (∃ node ∈ links.endpoints, Depth links node length) ∧
    ∀ node ∈ links.endpoints, ∀ depth, Depth links node depth → depth ≤ length

theorem Longest.unique {links : Links} {left right : Nat} (leftLongest : Longest links left)
    (rightLongest : Longest links right) : left = right := by
  obtain ⟨⟨node, member, found⟩, bound⟩ := leftLongest
  obtain ⟨⟨other, otherMember, otherFound⟩, otherBound⟩ := rightLongest
  exact le_antisymm (otherBound node member _ found) (bound other otherMember _ otherFound)

theorem Chained.longest {links : Links} {done : List String} {state : ChainState} (linear : Linear links)
    (chained : Chained links done state) (ended : state.stack = []) (acyclic : Acyclic links)
    (nonempty : links ≠ []) : Longest links state.longest := by
  have bound : ∀ node ∈ links.endpoints, ∀ depth, Depth links node depth → depth ≤ state.longest := by
    intro node member depth found
    have popped := chained.mem_done ended found member
    obtain ⟨known, _, again, le⟩ := chained.depth node (List.mem_append_left _ popped)
    rw [found.unique linear again]
    exact le
  refine ⟨?_, bound⟩
  obtain one | attained := chained.attained
  · -- no pop raised the length, so the depth of any node is one
    obtain ⟨link, rest, rfl⟩ := List.exists_cons_of_ne_nil nonempty
    have member : link.1 ∈ Links.endpoints (link :: rest) := mem_endpoints.mpr ⟨link, List.mem_cons_self, Or.inl rfl⟩
    obtain ⟨depth, found⟩ := exists_depth acyclic link.1
    have le := bound link.1 member depth found
    have positive := found.pos
    refine ⟨link.1, member, ?_⟩
    rw [one] at le ⊢
    rwa [(by omega : depth = 1)] at found
  · exact attained

def supersedesCycleError {α : Type} : Outcome α :=
  .error (.error (ErrorCode.cycleDetected.err "cycle in SUPERSEDES subgraph"))

def chainTooLongError {α : Type} (limits : Limits) (length : Nat) : Outcome α :=
  .error (.error (ErrorCode.limitExceeded.err ("supersedes chain " ++ toString length ++
    " > max_depth " ++ toString limits.maxDepth)))

/-- The verdict on links that do not branch. -/
inductive ChainVerdict (links : Links) (limits : Limits) : Outcome Nat → Prop where
  | cyclic (cyclic : ¬ Acyclic links) : ChainVerdict links limits supersedesCycleError
  | tooLong {length : Nat} (acyclic : Acyclic links) (longest : Longest links length)
    (exceeds : limits.maxDepth.toNat < length) : ChainVerdict links limits (chainTooLongError limits length)
  | fits {length : Nat} (acyclic : Acyclic links) (longest : Longest links length)
    (within : length ≤ limits.maxDepth.toNat) : ChainVerdict links limits (.ok length)

theorem ChainVerdict.unique {links : Links} {limits : Limits} {left right : Outcome Nat}
    (leftVerdict : ChainVerdict links limits left) (rightVerdict : ChainVerdict links limits right) :
    left = right := by
  cases leftVerdict with
  | cyclic cyclic =>
    cases rightVerdict with
    | cyclic _ => rfl
    | tooLong acyclic => exact absurd acyclic cyclic
    | fits acyclic => exact absurd acyclic cyclic
  | tooLong acyclic longest exceeds =>
    cases rightVerdict with
    | cyclic cyclic => exact absurd acyclic cyclic
    | tooLong _ other _ => rw [longest.unique other]
    | fits _ other within =>
      cases longest.unique other
      omega
  | fits acyclic longest within =>
    cases rightVerdict with
    | cyclic cyclic => exact absurd acyclic cyclic
    | tooLong _ other exceeds =>
      cases longest.unique other
      omega
    | fits _ other _ => rw [longest.unique other]

theorem checkSupersedes_cases (order : HashOrder) (edges : List EdgeRecord) (limits : Limits) :
    (supersedesLinks edges = [] ∧ checkSupersedes order edges limits = .ok 0) ∨
    (∃ node, Branches (supersedesLinks edges) node ∧
      checkSupersedes order edges limits = Result.lift (branchError node)) ∨
    (supersedesLinks edges ≠ [] ∧ Linear (supersedesLinks edges) ∧
      ChainVerdict (supersedesLinks edges) limits (checkSupersedes order edges limits)) := by
  unfold checkSupersedes
  -- from here on the edges matter through their links only
  generalize supersedesLinks edges = links
  by_cases empty : links = []
  · exact Or.inl ⟨empty, by simp [empty]⟩
  · refine Or.inr ?_
    rw [if_neg (by simpa using empty)]
    obtain ⟨unbranched, passes⟩ | ⟨node, _, branches, reported⟩ :=
      checkLinear_cases links (order.visit .branch links.endpoints)
    · have linear : Linear links := by
        apply linear_iff_not_branches.mpr
        intro node branches
        -- every order walks all endpoints
        exact unbranched node ((order.perm .branch _).symm.subset branches.mem_endpoints) branches
      have start := chained_start order linear
      -- no node is popped twice, so the fuel exceeds the number of turns
      have enough : links.endpoints.length <
          (links.length + links.endpoints.length + 1) + ([] : List String).length := by
        rw [List.length_nil]
        omega
      obtain ⟨done, final, looped, chained, ended⟩ := chainLoop_run linear start enough
      simp only [ChainState.start] at looped
      refine Or.inr ⟨empty, linear, ?_⟩
      simp only [passes, Result.lift, ok_bind, looped]
      by_cases acyclic : Acyclic links
      · have longest := chained.longest linear ended acyclic empty
        rw [if_neg (not_not.mpr ((chained.seen_all linear ended).mpr acyclic))]
        by_cases exceeds : limits.maxDepth.toNat < final.longest
        · rw [if_pos exceeds]
          exact .tooLong acyclic longest exceeds
        · rw [if_neg exceeds]
          exact .fits acyclic longest (not_lt.mp exceeds)
      · rw [if_pos (mt (chained.seen_all linear ended).mp acyclic)]
        exact .cyclic acyclic
    · exact Or.inl ⟨node, branches, by simp only [reported]; rfl⟩

/-- The links form disjoint chains within the depth limit. -/
structure ChainsOk (links : Links) (limits : Limits) : Prop where
  linear : Linear links
  acyclic : Acyclic links
  short : ∀ node ∈ links.endpoints, ∀ depth, Depth links node depth → depth ≤ limits.maxDepth.toNat

theorem checkSupersedes_isOk_iff (order : HashOrder) {edges : List EdgeRecord} {limits : Limits} :
    (∃ longest, checkSupersedes order edges limits = .ok longest) ↔ ChainsOk (supersedesLinks edges) limits := by
  obtain ⟨empty, passes⟩ | ⟨node, branches, reported⟩ | ⟨_, linear, verdict⟩ :=
    checkSupersedes_cases order edges limits
  · have outside : ∀ node, node ∉ (supersedesLinks edges).endpoints := by simp [empty, Links.endpoints]
    refine ⟨fun _ => ⟨?_, ?_, fun node member => absurd member (outside node)⟩, fun _ => ⟨0, passes⟩⟩
    · simp only [empty]
      exact ⟨List.nodup_nil, List.nodup_nil⟩
    · intro node cycle
      obtain ⟨next, arc, _⟩ := exists_arc_of_onCycle cycle
      exact outside node (source_mem_endpoints arc)
  · rw [reported]
    constructor
    · rintro ⟨longest, passes⟩
      cases passes
    · intro chains
      exact absurd branches (linear_iff_not_branches.mp chains.linear node)
  · generalize checkSupersedes order edges limits = outcome at verdict
    cases verdict with
    | cyclic cyclic =>
      constructor
      · rintro ⟨longest, passes⟩
        cases passes
      · intro chains
        exact absurd chains.acyclic cyclic
    | tooLong acyclic longest exceeds =>
      constructor
      · rintro ⟨longest, passes⟩
        cases passes
      · intro chains
        obtain ⟨node, member, found⟩ := longest.1
        have short := chains.short node member _ found
        omega
    | @fits length acyclic longest within =>
      refine ⟨fun _ => ⟨linear, acyclic, fun node member depth found => ?_⟩, fun _ => ⟨length, rfl⟩⟩
      exact (longest.2 node member depth found).trans within

/-! ## The check is exact -/

/-- The number of nodes of the longest path; zero when there are none. -/
def longestLength (paths : List (List String)) : Nat := (paths.map List.length).max?.getD 0

theorem longestLength_spec {paths : List (List String)} (nonempty : paths ≠ []) :
    (∃ path ∈ paths, path.length = longestLength paths) ∧ ∀ path ∈ paths, path.length ≤ longestLength paths := by
  have longest : (paths.map List.length).max? = some (longestLength paths) := by
    cases found : (paths.map List.length).max? with
    | none => exact absurd (List.map_eq_nil_iff.mp (List.max?_eq_none_iff.mp found)) nonempty
    | some length => rw [longestLength, found, Option.getD_some]
  obtain ⟨member, bound⟩ := List.max?_eq_some_iff.mp longest
  exact ⟨List.mem_map.mp member, fun path inside => bound _ (List.mem_map_of_mem inside)⟩

/-- The longest path ends at the deepest node. -/
theorem longest_of_disjointPaths {links : Links} {paths : List (List String)} (nonempty : links ≠ [])
    (disjoint : DisjointPaths links.endpoints links paths) : Longest links (longestLength paths) := by
  have distinct := nodup_endpoints links
  obtain ⟨link, rest, rfl⟩ := List.exists_cons_of_ne_nil nonempty
  have member : link.1 ∈ Links.endpoints (link :: rest) := source_mem_endpoints List.mem_cons_self
  obtain ⟨first, firstMember, onFirst⟩ := disjoint.exists_path member
  obtain ⟨⟨path, pathMember, longest⟩, bound⟩ := longestLength_spec (List.ne_nil_of_mem firstMember)
  constructor
  · -- a path as long as this one has a last node
    have positive : 0 < path.length := by
      rw [longest]
      exact (List.length_pos_of_mem onFirst).trans_le (bound first firstMember)
    obtain ⟨node, last⟩ : ∃ node, path[path.length - 1]? = some node :=
      ⟨_, List.getElem?_eq_getElem (Nat.sub_one_lt_of_lt positive)⟩
    refine ⟨node, disjoint.covers.subset (List.mem_flatten.mpr ⟨path, pathMember, List.mem_of_getElem? last⟩), ?_⟩
    have deepest := disjoint.depth distinct pathMember last
    rwa [Nat.sub_add_cancel positive, longest] at deepest
  · intro node inside depth found
    obtain ⟨path, pathMember, onPath⟩ := disjoint.exists_path inside
    obtain ⟨place, here⟩ := List.getElem?_of_mem onPath
    have short : place < path.length := (List.getElem?_eq_some_iff.mp here).1
    rw [found.unique (disjoint.linear distinct) (disjoint.depth distinct pathMember here)]
    exact Nat.le_trans short (bound path pathMember)

/-- Without nodes every path is empty. -/
theorem longestLength_of_nil {paths : List (List String)} (disjoint : DisjointPaths (Links.endpoints []) [] paths) :
    longestLength paths = 0 := by
  have trivial : ∀ path ∈ paths, path = [] := List.flatten_eq_nil_iff.mp disjoint.covers.eq_nil
  by_cases noPaths : paths = []
  · rw [noPaths]
    rfl
  · obtain ⟨⟨path, member, longest⟩, _⟩ := longestLength_spec noPaths
    rw [← longest, trivial path member, List.length_nil]

/-- What the check reports is a branch, a cycle or a chain that is too long. -/
theorem checkSupersedes_reports (order : HashOrder) (edges : List EdgeRecord) (limits : Limits) :
    (∃ length, checkSupersedes order edges limits = .ok length) ∨
      ∃ code ∈ [ErrorCode.schemaViolation, .cycleDetected, .limitExceeded], ∃ message,
        checkSupersedes order edges limits = .error (.error (code.err message)) := by
  obtain ⟨_, passes⟩ | ⟨node, _, reported⟩ | ⟨_, _, verdict⟩ := checkSupersedes_cases order edges limits
  · exact .inl ⟨0, passes⟩
  · exact .inr ⟨_, by simp, _, reported⟩
  · generalize checkSupersedes order edges limits = outcome at verdict
    cases verdict with
    | cyclic => exact .inr ⟨.cycleDetected, by simp, _, rfl⟩
    | tooLong => exact .inr ⟨.limitExceeded, by simp, _, rfl⟩
    | fits => exact .inl ⟨_, rfl⟩

/-- The check yields the length of the longest path exactly on disjoint simple paths within the depth limit,
    in whatever order the hash sets are walked; it never finds its own counters inconsistent, no degree
    falls below zero, and the loop ends. -/
theorem checkSupersedes_exact (order : HashOrder) (edges : List EdgeRecord) (limits : Limits) :
    (∀ n, checkSupersedes order edges limits = .ok n ↔
      n ≤ limits.maxDepth.toNat ∧ ∃ paths, longestLength paths = n ∧
        DisjointPaths (supersedesLinks edges).endpoints (supersedesLinks edges) paths) ∧
    (∀ what, checkSupersedes order edges limits ≠ graphInvariantError what) ∧
    (∀ message, checkSupersedes order edges limits ≠ .error (.panic message)) ∧
    checkSupersedes order edges limits ≠ .error .unfinished := by
  constructor
  · intro n
    have distinct := nodup_endpoints (supersedesLinks edges)
    obtain ⟨empty, passes⟩ | ⟨node, branches, reported⟩ | ⟨nonempty, linear, verdict⟩ :=
      checkSupersedes_cases order edges limits
    · rw [passes, Except.ok.injEq, empty]
      constructor
      · rintro rfl
        exact ⟨Nat.zero_le _, [], rfl, .refl _, .refl _⟩
      · rintro ⟨_, paths, rfl, disjoint⟩
        exact (longestLength_of_nil disjoint).symm
    · rw [reported]
      constructor
      · intro done
        cases done
      · rintro ⟨_, paths, _, disjoint⟩
        exact absurd branches (linear_iff_not_branches.mp (disjoint.linear distinct) node)
    · generalize checkSupersedes order edges limits = outcome at verdict
      cases verdict with
      | cyclic cyclic =>
        constructor
        · intro done
          cases done
        · rintro ⟨_, paths, _, disjoint⟩
          exact absurd (disjoint.acyclic distinct) cyclic
      | tooLong acyclic longest exceeds =>
        constructor
        · intro done
          cases done
        · rintro ⟨within, paths, rfl, disjoint⟩
          have same := longest.unique (longest_of_disjointPaths nonempty disjoint)
          omega
      | fits acyclic longest within =>
        rw [Except.ok.injEq]
        constructor
        · rintro rfl
          obtain ⟨paths, disjoint⟩ := exists_disjointPaths linear acyclic fun arc member =>
            ⟨source_mem_endpoints member, target_mem_endpoints member⟩
          exact ⟨within, paths, (longest_of_disjointPaths nonempty disjoint).unique longest, disjoint⟩
        · rintro ⟨_, paths, rfl, disjoint⟩
          exact longest.unique (longest_of_disjointPaths nonempty disjoint)
  · obtain ⟨length, passes⟩ | ⟨code, member, message, reported⟩ := checkSupersedes_reports order edges limits
    · simp [passes, graphInvariantError]
    · have other : code ≠ .malformed := fun same => by simp [same] at member
      simp [reported, graphInvariantError, ErrorCode.err, other]

end ProofEngine
