import ProofEngine.Lib.BreadthFirst
import ProofEngine.Verify.Bounds
import ProofEngine.Verify.Resolve
import ProofEngine.Verify.Totality

/-! # The reference search is breadth first and bounded

Whatever a store returns, the loop of the search is an instance of a breadth-first work list: recorded ids are
its closed nodes, and only resolved proofs have children.  Depths, completeness and the absence of repeats
follow from that; the budget bounds the reads and, with the limit on references per proof, the turns. -/

namespace ProofEngine

open StableSort Text BreadthFirst

/-! ## One turn -/

section
variable (primitives : Primitives) (orders : Bytes → HashOrder) (store : ArtifactStore) (ctx : VerifyCtx)
  (maxTransitiveDepth : UInt64)

/-- Why asking the store for `id` gives no verified report under that id. -/
inductive FetchFails (id : String) : UnresolvedReason → Prop where
  | store {message : String} (failed : store id = .error message) : FetchFails id (.store message)
  | unavailable (absent : store id = .ok none) : FetchFails id .unavailable
  | idMismatch {bytes : Bytes} {report : VerifyReport} (held : store id = .ok (some bytes))
      (verified : verifyProof primitives (orders bytes) ctx bytes = .ok report) (other : report.proofId ≠ some id) :
      FetchFails id (.idMismatch (report.proofId.getD "<unparseable>"))

/-- The store holds bytes under `id` whose report names that id. -/
def Fetches (id : String) (report : VerifyReport) : Prop :=
  ∃ bytes, store id = .ok (some bytes) ∧ verifyProof primitives (orders bytes) ctx bytes = .ok report ∧
    report.proofId = some id

/-- Everything that can happen to a reference taken from the queue. -/
inductive Turn (search : Resolution) (id : String) (depth : Nat) : Resolution → Prop where
  | seen (visited : id ∈ search.visited) : Turn search id depth search
  | unread (fresh : id ∉ search.visited) {reason : UnresolvedReason}
      (why : reason = .depthExceeded ∧ maxTransitiveDepth.toNat < depth ∨ reason = .overBudget ∧
        (budget ctx.limits maxTransitiveDepth).toNat ≤ search.resolved.length + search.unresolved.length) :
      Turn search id depth
        { search with visited := id :: search.visited, unresolved := search.unresolved ++ [⟨id, depth, reason⟩] }
  | failed (fresh : id ∉ search.visited) (inDepth : depth ≤ maxTransitiveDepth.toNat)
      (within : search.resolved.length + search.unresolved.length < (budget ctx.limits maxTransitiveDepth).toNat)
      {reason : UnresolvedReason} (why : FetchFails primitives orders store ctx id reason) :
      Turn search id depth
        { search with visited := id :: search.visited, reads := search.reads ++ [id],
                      unresolved := search.unresolved ++ [⟨id, depth, reason⟩] }
  | resolved (fresh : id ∉ search.visited) (inDepth : depth ≤ maxTransitiveDepth.toNat)
      (within : search.resolved.length + search.unresolved.length < (budget ctx.limits maxTransitiveDepth).toNat)
      {report : VerifyReport} (fetched : Fetches primitives orders store ctx id report) :
      Turn search id depth
        { search with visited := id :: search.visited, reads := search.reads ++ [id],
                      queue := search.queue ++ report.referencedProofs.map (·, depth + 1),
                      resolved := search.resolved ++ [⟨id, depth, report⟩] }

end

section
variable {primitives : Primitives} {orders : Bytes → HashOrder} {store : ArtifactStore} {ctx : VerifyCtx}
  {maxTransitiveDepth : UInt64}

/-- A turn always ends, once the inputs of the context have been accepted. -/
theorem resolveReference_turn (inputs : checkInputs ctx = .ok ()) (search : Resolution) (id : String) (depth : Nat) :
    ∃ next, resolveReference primitives orders store ctx maxTransitiveDepth search id depth = .ok next ∧
      Turn primitives orders store ctx maxTransitiveDepth search id depth next := by
  rw [resolveReference]
  split
  · rename_i visited
    exact ⟨_, rfl, .seen (List.contains_iff_mem.mp visited)⟩
  · rename_i fresh
    rw [List.contains_iff_mem] at fresh
    simp only
    split
    · rename_i deep
      exact ⟨_, rfl, .unread fresh (.inl ⟨rfl, deep⟩)⟩
    · rename_i inDepth
      split
      · rename_i spent
        exact ⟨_, rfl, .unread fresh (.inr ⟨rfl, spent⟩)⟩
      · rename_i within
        rw [not_lt] at inDepth
        rw [not_le] at within
        simp only [fetchReference]
        cases held : store id with
        | error message => exact ⟨_, rfl, .failed fresh inDepth within (.store held)⟩
        | ok found =>
          cases found with
          | none => exact ⟨_, rfl, .failed fresh inDepth within (.unavailable held)⟩
          | some bytes =>
            obtain ⟨report, verified⟩ := verifyProof_of_inputs primitives (orders bytes) bytes inputs
            simp only [verified, ok_bind]
            split
            · rename_i other
              exact ⟨_, rfl, .failed fresh inDepth within (.idMismatch held verified other)⟩
            · rename_i same
              rw [not_not] at same
              exact ⟨_, rfl, .resolved fresh inDepth within ⟨bytes, held, verified, same⟩⟩

end

/-! ## The work list -/

def ResolvedProof.closed (proof : ResolvedProof) : Closed String :=
  ⟨proof.id, proof.depth, proof.report.referencedProofs⟩

/-- What could not be resolved has no known references. -/
def UnresolvedRef.closed (reference : UnresolvedRef) : Closed String := ⟨reference.id, reference.depth, []⟩

def closedNodes (resolved : List ResolvedProof) (unresolved : List UnresolvedRef) : List (Closed String) :=
  resolved.map ResolvedProof.closed ++ unresolved.map UnresolvedRef.closed

def Resolution.toState (search : Resolution) : State String :=
  ⟨search.queue, closedNodes search.resolved search.unresolved⟩

/-- The ids a search has recorded. -/
def recordedIds (resolved : List ResolvedProof) (unresolved : List UnresolvedRef) : List String :=
  resolved.map ResolvedProof.id ++ unresolved.map UnresolvedRef.id

theorem map_node_closedNodes (resolved : List ResolvedProof) (unresolved : List UnresolvedRef) :
    (closedNodes resolved unresolved).map Closed.node = recordedIds resolved unresolved := by
  rw [closedNodes, List.map_append, List.map_map, List.map_map]
  rfl

theorem closedNodes_resolved (resolved : List ResolvedProof) (unresolved : List UnresolvedRef)
    (proof : ResolvedProof) :
    (closedNodes (resolved ++ [proof]) unresolved).Perm (proof.closed :: closedNodes resolved unresolved) := by
  rw [closedNodes, List.map_append, List.append_assoc]
  exact List.perm_middle

theorem closedNodes_unresolved (resolved : List ResolvedProof) (unresolved : List UnresolvedRef)
    (reference : UnresolvedRef) :
    (closedNodes resolved (unresolved ++ [reference])).Perm
      (reference.closed :: closedNodes resolved unresolved) := by
  rw [closedNodes, List.map_append, ← List.append_assoc]
  exact List.perm_append_singleton _ _

/-- What the search keeps true besides the shape of its queue. -/
structure Resolving (primitives : Primitives) (orders : Bytes → HashOrder) (store : ArtifactStore) (ctx : VerifyCtx)
    (maxTransitiveDepth : UInt64) (root : VerifyReport) (search : Resolution) : Prop where
  workList : Invariant root.referencedProofs root.proofId.toList search.toState
  visited : ∀ id, id ∈ search.visited ↔
    id ∈ root.proofId.toList ∨ id ∈ recordedIds search.resolved search.unresolved
  fetched : ∀ proof ∈ search.resolved, Fetches primitives orders store ctx proof.id proof.report ∧
    proof.id ∈ search.reads ∧ proof.depth ≤ maxTransitiveDepth.toNat
  answered : ∀ id ∈ search.reads, (∃ proof ∈ search.resolved, proof.id = id) ∨
    ∃ reference ∈ search.unresolved, reference.id = id ∧
      FetchFails primitives orders store ctx id reference.reason
  readsCounted : search.reads.length ≤ search.resolved.length + search.unresolved.length
  readsBounded : search.reads.length ≤ (budget ctx.limits maxTransitiveDepth).toNat
  resolvedBounded : search.resolved.length ≤ (budget ctx.limits maxTransitiveDepth).toNat

section
variable {primitives : Primitives} {orders : Bytes → HashOrder} {store : ArtifactStore} {ctx : VerifyCtx}
  {maxTransitiveDepth : UInt64} {root : VerifyReport}

theorem searching_start :
    Resolving primitives orders store ctx maxTransitiveDepth root (Resolution.start root) where
  workList := invariant_start
  visited := fun id => by simp [Resolution.start, recordedIds]
  fetched := fun _ member => absurd member List.not_mem_nil
  answered := fun _ member => absurd member List.not_mem_nil
  readsCounted := Nat.le_refl _
  readsBounded := Nat.zero_le _
  resolvedBounded := Nat.zero_le _

/-- A turn of the search is a turn of the work list. -/
theorem Turn.step {search next : Resolution} {queue : List (String × Nat)} {id : String} {depth : Nat}
    (visited : ∀ id, id ∈ search.visited ↔
      id ∈ root.proofId.toList ∨ id ∈ recordedIds search.resolved search.unresolved)
    (turn : Turn primitives orders store ctx maxTransitiveDepth { search with queue } id depth next) :
    Step root.proofId.toList ⟨(id, depth) :: queue, closedNodes search.resolved search.unresolved⟩ next.toState := by
  have unseen : id ∉ search.visited → id ∉ root.proofId.toList ∧
      id ∉ (closedNodes search.resolved search.unresolved).map Closed.node := by
    intro fresh
    rw [visited, not_or] at fresh
    rw [map_node_closedNodes]
    exact fresh
  have refused (reason : UnresolvedReason) (fresh : id ∉ search.visited) :
      Step root.proofId.toList ⟨(id, depth) :: queue, closedNodes search.resolved search.unresolved⟩
        ⟨queue, closedNodes search.resolved (search.unresolved ++ [⟨id, depth, reason⟩])⟩ := by
    -- an unresolved reference is closed without children
    have step := @Step.close _ root.proofId.toList id depth [] queue _ _ (unseen fresh).1 (unseen fresh).2
      (closedNodes_unresolved search.resolved search.unresolved ⟨id, depth, reason⟩)
    rw [List.map_nil, List.append_nil] at step
    exact step
  cases turn with
  | seen visitedBefore =>
    refine .skip ?_
    rw [map_node_closedNodes]
    exact (visited id).mp visitedBefore
  | unread fresh why => exact refused _ fresh
  | failed fresh inDepth within why => exact refused _ fresh
  | resolved fresh inDepth within fetched =>
    exact .close (unseen fresh).1 (unseen fresh).2 (closedNodes_resolved _ _ _)

theorem recordedIds_resolved (resolved : List ResolvedProof) (unresolved : List UnresolvedRef) (proof : ResolvedProof)
    (id : String) :
    id ∈ recordedIds (resolved ++ [proof]) unresolved ↔ id = proof.id ∨ id ∈ recordedIds resolved unresolved := by
  simp only [recordedIds, List.map_append, List.mem_append, List.map_cons, List.map_nil, List.mem_singleton]
  tauto

theorem recordedIds_unresolved (resolved : List ResolvedProof) (unresolved : List UnresolvedRef)
    (reference : UnresolvedRef) (id : String) :
    id ∈ recordedIds resolved (unresolved ++ [reference]) ↔
      id = reference.id ∨ id ∈ recordedIds resolved unresolved := by
  simp only [recordedIds, List.map_append, List.mem_append, List.map_cons, List.map_nil, List.mem_singleton]
  tauto

/-- Every turn keeps what the search maintains. -/
theorem Resolving.turn {search next : Resolution} {queue : List (String × Nat)} {id : String} {depth : Nat}
    (searching : Resolving primitives orders store ctx maxTransitiveDepth root search)
    (popped : search.queue = (id, depth) :: queue)
    (turn : Turn primitives orders store ctx maxTransitiveDepth { search with queue } id depth next) :
    Resolving primitives orders store ctx maxTransitiveDepth root next := by
  have workList : Invariant root.referencedProofs root.proofId.toList next.toState := by
    have before := searching.workList
    rw [Resolution.toState, popped] at before
    exact before.step (turn.step searching.visited)
  have counted := searching.readsCounted
  have bounded := searching.readsBounded
  have few := searching.resolvedBounded
  cases turn with
  | seen visitedBefore =>
    exact ⟨workList, searching.visited, searching.fetched, searching.answered, counted, bounded, few⟩
  | unread fresh why =>
    refine ⟨workList, ?_, searching.fetched, ?_, ?_, bounded, few⟩
    · intro other
      rw [recordedIds_unresolved, List.mem_cons, searching.visited]
      exact or_left_comm
    · intro other member
      rcases searching.answered other member with resolved | ⟨reference, referenceMember, failed⟩
      · exact .inl resolved
      · exact .inr ⟨reference, List.mem_append_left _ referenceMember, failed⟩
    · simp only [List.length_append, List.length_singleton]
      omega
  | failed fresh inDepth within why =>
    refine ⟨workList, ?_, ?_, ?_, ?_, ?_, few⟩
    · intro other
      rw [recordedIds_unresolved, List.mem_cons, searching.visited]
      exact or_left_comm
    · intro proof member
      obtain ⟨fetched, read, shallow⟩ := searching.fetched proof member
      exact ⟨fetched, List.mem_append_left _ read, shallow⟩
    · intro other member
      rcases List.mem_append.mp member with old | new
      · rcases searching.answered other old with resolved | ⟨reference, referenceMember, failed⟩
        · exact .inl resolved
        · exact .inr ⟨reference, List.mem_append_left _ referenceMember, failed⟩
      · obtain rfl := List.mem_singleton.mp new
        exact .inr ⟨_, List.mem_append_right _ List.mem_cons_self, rfl, why⟩
    · simp only [List.length_append, List.length_singleton]
      omega
    · simp only [List.length_append, List.length_singleton] at within ⊢
      omega
  | resolved fresh inDepth within fetched =>
    refine ⟨workList, ?_, ?_, ?_, ?_, ?_, ?_⟩
    · intro other
      rw [recordedIds_resolved, List.mem_cons, searching.visited]
      exact or_left_comm
    · intro proof member
      rcases List.mem_append.mp member with old | new
      · obtain ⟨fetchedBefore, read, shallow⟩ := searching.fetched proof old
        exact ⟨fetchedBefore, List.mem_append_left _ read, shallow⟩
      · obtain rfl := List.mem_singleton.mp new
        exact ⟨fetched, List.mem_append_right _ List.mem_cons_self, inDepth⟩
    · intro other member
      rcases List.mem_append.mp member with old | new
      · rcases searching.answered other old with ⟨proof, proofMember, named⟩ | failed
        · exact .inl ⟨proof, List.mem_append_left _ proofMember, named⟩
        · exact .inr failed
      · obtain rfl := List.mem_singleton.mp new
        exact .inl ⟨_, List.mem_append_right _ List.mem_cons_self, rfl⟩
    · simp only [List.length_append, List.length_singleton]
      omega
    · simp only [List.length_append, List.length_singleton] at within ⊢
      omega
    · simp only [List.length_append, List.length_singleton] at within ⊢
      omega

/-! ## The loop ends -/

theorem verifyProof_references_length {order : HashOrder} {bytes : Bytes} {report : VerifyReport}
    (done : verifyProof primitives order ctx bytes = .ok report) :
    report.referencedProofs.length ≤ ctx.limits.maxReferencedProofs.toNat := by
  cases verifyProof_ran done with
  | unparsed failed => exact Nat.zero_le _
  | misshapen decoded failed => exact Nat.zero_le _
  | completed stages =>
    obtain ⟨_, _, _, parts⟩ := cborToProof_entries stages.parsed
    rw [stages.reported]
    exact cborToReferencedProofs_length parts.references

/-- Turns that can still follow: what is queued, and the references of all proofs that may yet be resolved. -/
def Resolution.turnsLeft (ctx : VerifyCtx) (maxTransitiveDepth : UInt64) (search : Resolution) : Nat :=
  search.queue.length + ((budget ctx.limits maxTransitiveDepth).toNat - search.resolved.length) *
    ctx.limits.maxReferencedProofs.toNat

theorem Turn.turnsLeft {search next : Resolution} {queue : List (String × Nat)} {id : String} {depth : Nat}
    (popped : search.queue = (id, depth) :: queue)
    (turn : Turn primitives orders store ctx maxTransitiveDepth { search with queue } id depth next) :
    next.turnsLeft ctx maxTransitiveDepth < search.turnsLeft ctx maxTransitiveDepth := by
  simp only [Resolution.turnsLeft, popped, List.length_cons]
  cases turn with
  | seen visitedBefore => simp only; omega
  | unread fresh why => simp only; omega
  | failed fresh inDepth within why => simp only; omega
  | resolved fresh inDepth within fetched =>
    obtain ⟨bytes, _, verified, _⟩ := fetched
    have references := verifyProof_references_length verified
    simp only at within
    -- one more resolved proof pays for the references it queues
    obtain ⟨left, budgetLeft⟩ : ∃ left, (budget ctx.limits maxTransitiveDepth).toNat - search.resolved.length =
        left + 1 := ⟨_, (Nat.succ_pred_eq_of_pos (by omega)).symm⟩
    have after : (budget ctx.limits maxTransitiveDepth).toNat - (search.resolved.length + 1) = left := by omega
    simp only [List.length_append, List.length_map, List.length_singleton, after, budgetLeft, Nat.succ_mul]
    omega

/-- With enough fuel the loop ends with an empty queue, in a state that was maintained. -/
theorem resolveLoop_done (inputs : checkInputs ctx = .ok ()) {fuel : Nat} {search : Resolution}
    (searching : Resolving primitives orders store ctx maxTransitiveDepth root search)
    (enough : search.turnsLeft ctx maxTransitiveDepth < fuel) :
    ∃ final, resolveLoop primitives orders store ctx maxTransitiveDepth fuel search = .ok final ∧
      Resolving primitives orders store ctx maxTransitiveDepth root final ∧ final.queue = [] := by
  induction fuel generalizing search with
  | zero => exact absurd enough (Nat.not_lt_zero _)
  | succ fuel inductionHypothesis =>
    rw [resolveLoop]
    split
    · rename_i empty
      exact ⟨search, rfl, searching, empty⟩
    · rename_i id depth queue popped
      obtain ⟨next, done, turn⟩ := @resolveReference_turn primitives orders store ctx maxTransitiveDepth inputs
        { search with queue } id depth
      have fewer := turn.turnsLeft popped
      rw [done, ok_bind]
      exact inductionHypothesis (searching.turn popped turn) (by omega)

/-- The search ends whenever the root has a report. -/
theorem resolveSearch_done {bytes : Bytes} (verified : verifyProof primitives (orders bytes) ctx bytes = .ok root) :
    ∃ search, resolveSearch primitives orders store ctx maxTransitiveDepth bytes = .ok (root, search) ∧
      Resolving primitives orders store ctx maxTransitiveDepth root search ∧ search.queue = [] := by
  have enough : (Resolution.start root).turnsLeft ctx maxTransitiveDepth < resolveFuel ctx maxTransitiveDepth root := by
    simp [Resolution.turnsLeft, Resolution.start, resolveFuel]
  obtain ⟨search, done, searching, empty⟩ :=
    @resolveLoop_done primitives orders store ctx maxTransitiveDepth root (checkInputs_of_done verified) _ _
      searching_start enough
  refine ⟨search, ?_, searching, empty⟩
  rw [resolveSearch, verified, ok_bind, done, ok_bind]

/-- A search that has ended was maintained, and its queue is empty. -/
theorem resolveSearch_searching {bytes : Bytes} {search : Resolution}
    (done : resolveSearch primitives orders store ctx maxTransitiveDepth bytes = .ok (root, search)) :
    verifyProof primitives (orders bytes) ctx bytes = .ok root ∧
      Resolving primitives orders store ctx maxTransitiveDepth root search ∧ search.queue = [] := by
  have verified : verifyProof primitives (orders bytes) ctx bytes = .ok root := by
    rw [resolveSearch, bind_eq_ok] at done
    obtain ⟨_, verified, rest⟩ := done
    obtain ⟨_, _, returned⟩ := bind_eq_ok.mp rest
    cases returned
    exact verified
  obtain ⟨search', done', searching, empty⟩ := @resolveSearch_done primitives orders store ctx maxTransitiveDepth
    root bytes verified
  rw [done] at done'
  cases done'
  exact ⟨verified, searching, empty⟩

theorem toNat_budget (limits : Limits) (maxTransitiveDepth : UInt64) :
    (budget limits maxTransitiveDepth).toNat =
      min (maxTransitiveDepth.toNat * limits.maxReferencedProofs.toNat + 1) (2 ^ 64 - 1) := by
  have one : (1 : UInt64).toNat = 1 := rfl
  have sum : (saturatingAdd (saturatingMul maxTransitiveDepth limits.maxReferencedProofs) 1).toNat =
      min (maxTransitiveDepth.toNat * limits.maxReferencedProofs.toNat + 1) (2 ^ 64 - 1) := by
    rw [toNat_saturatingAdd, toNat_saturatingMul, one]
    omega
  -- a sum with one is never below one
  have least : ¬ saturatingAdd (saturatingMul maxTransitiveDepth limits.maxReferencedProofs) 1 < 1 := by
    rw [UInt64.lt_iff_toNat_lt, sum, one]
    omega
  rw [budget, if_neg least, sum]

end

/-! ## Ancestors -/

/-- The recorded references, as `ancestors` shows them. -/
def ResolutionReport.entries (report : ResolutionReport) : List Ancestor :=
  report.resolved.map (fun proof => ⟨proof.id, proof.depth, true⟩) ++
    report.unresolved.map fun reference => ⟨reference.id, reference.depth, false⟩

theorem lookup_eq_none_of_notMem {depths : Depths} {id : String} (absent : id ∉ depths.map Prod.fst) :
    depths.lookup id = none := by
  rw [List.lookup_eq_none_iff]
  intro entry member
  rw [bne_iff_ne]
  rintro rfl
  exact absent (List.mem_map_of_mem member)

/-- A fold that appends the entry of every item not yet in the map appends them all, if no id comes twice. -/
theorem foldl_append_fresh {α : Type} {add : Depths → α → Depths} {entry : α → String × Nat × Bool}
    (fresh : ∀ depths item, (entry item).1 ∉ depths.map Prod.fst → add depths item = depths ++ [entry item])
    {items : List α} {depths : Depths}
    (distinct : (depths.map Prod.fst ++ items.map fun item => (entry item).1).Nodup) :
    items.foldl add depths = depths ++ items.map entry := by
  induction items generalizing depths with
  | nil => simp
  | cons item items inductionHypothesis =>
    have absent : (entry item).1 ∉ depths.map Prod.fst := by
      intro present
      exact (List.nodup_append.mp distinct).2.2 _ present _ List.mem_cons_self rfl
    rw [List.foldl_cons, fresh depths item absent, inductionHypothesis, List.append_assoc, List.map_cons,
      List.singleton_append]
    rwa [List.map_append, List.append_assoc]

theorem addResolved_fresh (depths : Depths) (proof : ResolvedProof) (absent : proof.id ∉ depths.map Prod.fst) :
    depths.addResolved proof = depths ++ [(proof.id, proof.depth, true)] := by
  rw [Depths.addResolved, lookup_eq_none_of_notMem absent]

theorem addUnresolved_fresh (depths : Depths) (reference : UnresolvedRef)
    (absent : reference.id ∉ depths.map Prod.fst) :
    depths.addUnresolved reference = depths ++ [(reference.id, reference.depth, false)] := by
  rw [Depths.addUnresolved, lookup_eq_none_of_notMem absent]

section
variable {report : ResolutionReport} (once : (recordedIds report.resolved report.unresolved).Nodup)
include once

/-- Where no id is recorded twice, the map of ancestors holds the records as they are. -/
theorem ancestors_perm : report.ancestors.Perm report.entries := by
  have depths : report.depths = report.resolved.map (fun proof => (proof.id, proof.depth, true)) ++
      report.unresolved.map fun reference => (reference.id, reference.depth, false) := by
    have resolved : report.resolved.foldl Depths.addResolved [] =
        [] ++ report.resolved.map fun proof => (proof.id, proof.depth, true) :=
      foldl_append_fresh addResolved_fresh (List.nodup_append.mp once).1
    rw [ResolutionReport.depths, resolved, List.nil_append]
    refine foldl_append_fresh addUnresolved_fresh ?_
    rw [List.map_map]
    exact once
  have entries : report.entries = report.depths.map fun entry =>
      { id := entry.1, depth := entry.2.1, resolved := entry.2.2 } := by
    rw [depths, List.map_append, List.map_map, List.map_map]
    rfl
  rw [entries]
  exact (sortOn_perm _ _).trans ((sortOn_perm _ _).map _)

theorem ancestors_strict : report.ancestors.Pairwise fun earlier later =>
    earlier.depth < later.depth ∨ earlier.depth = later.depth ∧ utf8 earlier.id < utf8 later.id := by
  have ids : (report.ancestors.map Ancestor.id).Nodup := by
    refine ((ancestors_perm once).map Ancestor.id).nodup_iff.mpr ?_
    rw [ResolutionReport.entries, List.map_append, List.map_map, List.map_map]
    exact once
  have keys : (report.ancestors.map ancestorKey).Nodup := by
    refine List.pairwise_map.mpr ((List.pairwise_map.mp ids).imp fun {earlier later} different same => different ?_)
    exact utf8_injective (congrArg (fun key => (ofLex key).2) same)
  have strict := sortOn_strict keys
  rw [ResolutionReport.ancestors, sortOn_idem] at strict
  refine strict.imp fun {earlier later} less => ?_
  exact Prod.Lex.toLex_lt_toLex.mp less

end

/-! ## What a search finds -/

/-- References lead from the root to `id` through resolved proofs, in so many steps. -/
inductive ReferencePath (report : ResolutionReport) : String → Nat → Prop where
  | direct {id : String} (named : id ∈ report.root.referencedProofs) : ReferencePath report id 1
  | through {parent : ResolvedProof} {id : String} {length : Nat} (reached : ReferencePath report parent.id length)
      (resolved : parent ∈ report.resolved) (named : id ∈ parent.report.referencedProofs) :
      ReferencePath report id (length + 1)

/-- A correct result of a search. -/
structure SearchCorrect (report : ResolutionReport) : Prop where
  once : (recordedIds report.resolved report.unresolved).Nodup
  notRoot : ∀ id, report.root.proofId = some id → id ∉ recordedIds report.resolved report.unresolved
  resolvedDepth : ∀ proof ∈ report.resolved, IsLeast { length | ReferencePath report proof.id length } proof.depth
  unresolvedDepth : ∀ reference ∈ report.unresolved,
    IsLeast { length | ReferencePath report reference.id length } reference.depth
  complete : report.complete = true ↔
    (∀ id ∈ report.root.referencedProofs, report.root.proofId ≠ some id → id ∈ report.resolved.map ResolvedProof.id) ∧
    ∀ parent ∈ report.resolved, ∀ id ∈ parent.report.referencedProofs, report.root.proofId ≠ some id →
      id ∈ report.resolved.map ResolvedProof.id
  ancestors : report.ancestors.Perm report.entries
  sorted : report.ancestors.Pairwise fun earlier later =>
    earlier.depth < later.depth ∨ earlier.depth = later.depth ∧ utf8 earlier.id < utf8 later.id

theorem referencePath_iff {report : ResolutionReport} {id : String} {length : Nat} :
    ReferencePath report id length ↔
      Path report.root.referencedProofs (closedNodes report.resolved report.unresolved) id length := by
  constructor
  · intro path
    induction path with
    | direct named => exact .source named
    | @through parent id length _ resolved named inductionHypothesis =>
      exact @Path.step _ _ _ parent.closed id length inductionHypothesis
        (List.mem_append_left _ (List.mem_map_of_mem resolved)) named
  · intro path
    induction path with
    | source named => exact .direct named
    | step _ member child inductionHypothesis =>
      rcases List.mem_append.mp member with isResolved | isUnresolved
      · obtain ⟨parent, resolved, rfl⟩ := List.mem_map.mp isResolved
        exact .through inductionHypothesis resolved child
      · -- unresolved references have no children
        obtain ⟨reference, _, rfl⟩ := List.mem_map.mp isUnresolved
        cases child

section
variable {primitives : Primitives} {orders : Bytes → HashOrder} {store : ArtifactStore} {ctx : VerifyCtx}
  {maxTransitiveDepth : UInt64} {root : VerifyReport} {search : Resolution}
  (searching : Resolving primitives orders store ctx maxTransitiveDepth root search) (empty : search.queue = [])
include searching

theorem Resolving.once : (recordedIds search.resolved search.unresolved).Nodup := by
  have nodup := searching.workList.nodup
  rwa [State.nodes, Resolution.toState, map_node_closedNodes] at nodup

theorem Resolving.notRoot {id : String} (named : root.proofId = some id) :
    id ∉ recordedIds search.resolved search.unresolved := by
  intro recorded
  rw [← map_node_closedNodes] at recorded
  exact searching.workList.disjoint id recorded (by rw [named]; exact List.mem_singleton.mpr rfl)

include empty

/-- Depths are distances. -/
theorem Resolving.isLeast {entry : Closed String} (member : entry ∈ closedNodes search.resolved search.unresolved) :
    IsLeast { length | ReferencePath ⟨root, search.resolved, search.unresolved⟩ entry.node length } entry.depth := by
  simp only [referencePath_iff]
  exact searching.workList.isLeast_depth empty member

/-- Every reference followed is the root or recorded. -/
theorem Resolving.recorded {id : String}
    (named : id ∈ root.referencedProofs ∨ ∃ parent ∈ search.resolved, id ∈ parent.report.referencedProofs)
    (notRoot : root.proofId ≠ some id) : id ∈ recordedIds search.resolved search.unresolved := by
  have met : ∃ level, Met root.proofId.toList search.toState id level := by
    rcases named with direct | ⟨parent, resolved, named⟩
    · exact ⟨1, searching.workList.sourcesMet id direct⟩
    · exact ⟨_, searching.workList.childrenMet parent.closed
        (List.mem_append_left _ (List.mem_map_of_mem resolved)) id named⟩
  obtain ⟨level, met⟩ := met
  rcases met.of_empty empty with isRoot | ⟨entry, member, rfl, _⟩
  · rw [Option.mem_toList] at isRoot
    exact absurd isRoot notRoot
  · rw [← map_node_closedNodes]
    exact List.mem_map_of_mem member

/-- Nothing is left unresolved exactly when all references that were followed are resolved. -/
theorem Resolving.complete_iff :
    search.unresolved = [] ↔
      (∀ id ∈ root.referencedProofs, root.proofId ≠ some id → id ∈ search.resolved.map ResolvedProof.id) ∧
      ∀ parent ∈ search.resolved, ∀ id ∈ parent.report.referencedProofs, root.proofId ≠ some id →
        id ∈ search.resolved.map ResolvedProof.id := by
  constructor
  · intro settled
    have recorded : recordedIds search.resolved search.unresolved = search.resolved.map ResolvedProof.id := by
      rw [settled, recordedIds, List.map_nil, List.append_nil]
    rw [← recorded]
    exact ⟨fun id named => searching.recorded empty (.inl named),
      fun parent member id named => searching.recorded empty (.inr ⟨parent, member, named⟩)⟩
  · rintro ⟨direct, through⟩
    rw [List.eq_nil_iff_forall_not_mem]
    intro reference member
    -- what is unresolved was named, and is neither the root nor resolved
    have recorded : reference.closed ∈ closedNodes search.resolved search.unresolved :=
      List.mem_append_right _ (List.mem_map_of_mem member)
    have unresolved : reference.id ∈ search.unresolved.map UnresolvedRef.id := List.mem_map_of_mem member
    have notRoot : root.proofId ≠ some reference.id := fun named =>
      searching.notRoot named (List.mem_append_right _ unresolved)
    have notResolved : reference.id ∉ search.resolved.map ResolvedProof.id := fun resolved =>
      (List.nodup_append.mp searching.once).2.2 _ resolved _ unresolved rfl
    obtain ⟨length, path⟩ : ∃ length, ReferencePath ⟨root, search.resolved, search.unresolved⟩ reference.id length :=
      ⟨_, (searching.isLeast empty recorded).1⟩
    cases path with
    | direct named => exact notResolved (direct _ named notRoot)
    | through _ parentResolved named => exact notResolved (through _ parentResolved _ named notRoot)

theorem Resolving.searchCorrect : SearchCorrect ⟨root, search.resolved, search.unresolved⟩ where
  once := searching.once
  notRoot := fun _ => searching.notRoot
  resolvedDepth := by
    intro proof member
    have closed : proof.closed ∈ closedNodes search.resolved search.unresolved :=
      List.mem_append_left _ (List.mem_map_of_mem member)
    exact searching.isLeast empty closed
  unresolvedDepth := by
    intro reference member
    have closed : reference.closed ∈ closedNodes search.resolved search.unresolved :=
      List.mem_append_right _ (List.mem_map_of_mem member)
    exact searching.isLeast empty closed
  complete := by
    rw [ResolutionReport.complete, List.isEmpty_iff]
    exact searching.complete_iff empty
  ancestors := ancestors_perm searching.once
  sorted := ancestors_strict searching.once

end

/-- On every store the search ends, asks the store at most as often as the budget says, and returns a correct
    result; it fails only where the root itself has no report. -/
theorem resolveProofChain_correct (primitives : Primitives) (orders : Bytes → HashOrder) (store : ArtifactStore)
    (ctx : VerifyCtx) (maxTransitiveDepth : UInt64) (bytes : Bytes) :
    (∀ failure, verifyProof primitives (orders bytes) ctx bytes = .error failure →
      resolveProofChain primitives orders store ctx maxTransitiveDepth bytes = .error failure) ∧
    ∀ root, verifyProof primitives (orders bytes) ctx bytes = .ok root →
      ∃ search, resolveSearch primitives orders store ctx maxTransitiveDepth bytes = .ok (root, search) ∧
        resolveProofChain primitives orders store ctx maxTransitiveDepth bytes =
          .ok ⟨root, search.resolved, search.unresolved⟩ ∧
        search.reads.length ≤ maxTransitiveDepth.toNat * ctx.limits.maxReferencedProofs.toNat + 1 ∧
        SearchCorrect ⟨root, search.resolved, search.unresolved⟩ := by
  constructor
  · intro failure failed
    rw [resolveProofChain, resolveSearch, failed, error_bind, error_bind]
  · intro root verified
    obtain ⟨search, done, searching, empty⟩ := @resolveSearch_done primitives orders store ctx maxTransitiveDepth
      root bytes verified
    refine ⟨search, done, ?_, ?_, searching.searchCorrect empty⟩
    · rw [resolveProofChain, done, ok_bind]
    · have bounded := searching.readsBounded
      rw [toNat_budget] at bounded
      omega

/-! ## One reference -/

def leafId : String := "prf:v1:UnSGkqI3aU9uPa1h1V-QYedfwTgmm8Un6Gff2uRqMvw"

def leafProof : Proof := { bareProof with proofId := leafId }

/-- A proof that names the leaf. -/
def linkingProof : Proof :=
  { bareProof with
    proofId := "prf:v1:yX_JOjkBY1B70l4eB-6dhr-9PhIol9NbAKjCRJFssN0"
    referencedProofs := [leafId] }

/-- The leaf with another date under the same id. -/
def tamperedProof : Proof := { leafProof with createdAt := 1700000001 }

def leafDigest : Bytes :=
  [0x52, 0x74, 0x86, 0x92, 0xa2, 0x37, 0x69, 0x4f, 0x6e, 0x3d, 0xad, 0x61, 0xd5, 0x5f, 0x90, 0x61,
   0xe7, 0x5f, 0xc1, 0x38, 0x26, 0x9b, 0xc5, 0x27, 0xe8, 0x67, 0xdf, 0xda, 0xe4, 0x6a, 0x32, 0xfc]

def linkingDigest : Bytes :=
  [0xc9, 0x7f, 0xc9, 0x3a, 0x39, 0x01, 0x63, 0x50, 0x7b, 0xd2, 0x5e, 0x1e, 0x07, 0xee, 0x9d, 0x86,
   0xbf, 0xbd, 0x3e, 0x12, 0x28, 0x97, 0xd3, 0x5b, 0x00, 0xa8, 0xc2, 0x44, 0x91, 0x6c, 0xb0, 0xdd]

def tamperedDigest : Bytes :=
  [0x18, 0x49, 0xfc, 0xf3, 0xc1, 0xf6, 0xd2, 0x36, 0x6f, 0x03, 0x98, 0x4d, 0xe3, 0xbc, 0x78, 0x87,
   0x63, 0x3b, 0xa6, 0xa0, 0xc3, 0xa7, 0x21, 0xcb, 0xa0, 0x8b, 0x94, 0x68, 0x6f, 0xef, 0x0f, 0x33]

/-- The digests of the three bindings; without members a binding holds no digest itself. -/
def linkedPrimitives : Primitives :=
  Primitives.ofTable
    [(encodeCanonical (bindingOf (Primitives.ofTable [] []) leafProof), leafDigest),
     (encodeCanonical (bindingOf (Primitives.ofTable [] []) linkingProof), linkingDigest),
     (encodeCanonical (bindingOf (Primitives.ofTable [] []) tamperedProof), tamperedDigest)] []

def bytesOf (proof : Proof) : Bytes := ((proofToCbor proof).toOption.map encodeCanonical).getD []

/-- A store that holds these bytes under the id of the leaf. -/
def leafStore (bytes : Bytes) : ArtifactStore := fun id => .ok (if id = leafId then some bytes else none)

theorem linkingProof_valid :
    ((verifyProof linkedPrimitives .inserted VerifyCtx.default (bytesOf linkingProof)).map
      fun report => report.cryptographicValidity) = .ok .valid := by
  decide +kernel

theorem linkingProof_resolved :
    ∃ report, resolveProofChain linkedPrimitives (fun _ => .inserted) (leafStore (bytesOf leafProof)) VerifyCtx.default
        1 (bytesOf linkingProof) = .ok report ∧ report.complete = true ∧ SearchCorrect report := by
  have complete : ((resolveProofChain linkedPrimitives (fun _ => .inserted) (leafStore (bytesOf leafProof))
      VerifyCtx.default 1 (bytesOf linkingProof)).map fun report =>
        (report.complete, report.resolved.map ResolvedProof.id)) = .ok (true, [leafId]) := by decide +kernel
  obtain ⟨fails, succeeds⟩ := resolveProofChain_correct linkedPrimitives (fun _ => .inserted)
    (leafStore (bytesOf leafProof)) VerifyCtx.default 1 (bytesOf linkingProof)
  obtain ⟨report, done, found⟩ := map_eq_ok.mp complete
  obtain ⟨root, verified, _⟩ := map_eq_ok.mp linkingProof_valid
  obtain ⟨search, _, returned, _, correct⟩ := succeeds root verified
  rw [returned] at done
  cases done
  exact ⟨_, returned, congrArg Prod.fst found, correct⟩

end ProofEngine
