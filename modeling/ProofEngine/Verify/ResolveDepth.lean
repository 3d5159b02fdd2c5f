import ProofEngine.Verify.ResolveSearch

/-! # Searching deeper

Two searches for the same root that differ in the depth they may go to run alike until the shallower one refuses a
reference for its depth or for the budget.  From there on it reads nothing more, because what waits in its queue is at
least as deep and the budget stays spent.  So a deeper search keeps what was found and only adds to it. -/

namespace ProofEngine

open Text BreadthFirst

/-- The store was asked for the reference and did not produce it. -/
def UnresolvedRef.askedFor (reference : UnresolvedRef) : Bool :=
  !(reference.reason = .depthExceeded || reference.reason = .overBudget)

/-- Everything that was recorded is still there. -/
structure Resolution.Keeps (earlier later : Resolution) : Prop where
  resolved : earlier.resolved <+: later.resolved
  unresolved : earlier.unresolved <+: later.unresolved

theorem Resolution.Keeps.refl (search : Resolution) : search.Keeps search := ⟨List.prefix_rfl, List.prefix_rfl⟩

theorem Resolution.Keeps.trans {first second third : Resolution} (before : first.Keeps second)
    (after : second.Keeps third) : first.Keeps third :=
  ⟨before.resolved.trans after.resolved, before.unresolved.trans after.unresolved⟩

section
variable {primitives : Primitives} {orders : Bytes → HashOrder} {store : ArtifactStore} {ctx : VerifyCtx}
  {maxTransitiveDepth : UInt64}

/-! ## What a run keeps -/

theorem Turn.keeps {search next : Resolution} {queue : List (String × Nat)} {id : String} {depth : Nat}
    (turn : Turn primitives orders store ctx maxTransitiveDepth { search with queue } id depth next) :
    search.Keeps next := by
  cases turn with
  | seen visited => exact ⟨List.prefix_rfl, List.prefix_rfl⟩
  | unread fresh why => exact ⟨List.prefix_rfl, List.prefix_append _ _⟩
  | failed fresh inDepth within why => exact ⟨List.prefix_rfl, List.prefix_append _ _⟩
  | resolved fresh inDepth within fetched => exact ⟨List.prefix_append _ _, List.prefix_rfl⟩

theorem resolveLoop_keeps (inputs : checkInputs ctx = .ok ()) {fuel : Nat} {search final : Resolution}
    (done : resolveLoop primitives orders store ctx maxTransitiveDepth fuel search = .ok final) :
    search.Keeps final := by
  induction fuel generalizing search with
  | zero => cases done
  | succ fuel inductionHypothesis =>
    rw [resolveLoop] at done
    split at done
    · cases done
      exact .refl _
    · rename_i id depth queue popped
      obtain ⟨next, one, turn⟩ := @resolveReference_turn primitives orders store ctx maxTransitiveDepth inputs
        { search with queue } id depth
      rw [one, ok_bind] at done
      exact turn.keeps.trans (inductionHypothesis done)

/-! ## A search that reads nothing more -/

/-- The budget is spent, or whatever waits is too deep. -/
def Resolution.Spent (ctx : VerifyCtx) (maxTransitiveDepth : UInt64) (search : Resolution) : Prop :=
  (budget ctx.limits maxTransitiveDepth).toNat ≤ search.resolved.length + search.unresolved.length ∨
    ∀ item ∈ search.queue, maxTransitiveDepth.toNat < item.2

/-- What the store made of the references it was asked for. -/
structure Resolution.SameReads (earlier later : Resolution) : Prop where
  resolved : later.resolved = earlier.resolved
  askedFor : later.unresolved.filter UnresolvedRef.askedFor = earlier.unresolved.filter UnresolvedRef.askedFor

theorem Turn.spent {search next : Resolution} {queue : List (String × Nat)} {id : String} {depth : Nat}
    (popped : search.queue = (id, depth) :: queue) (spent : search.Spent ctx maxTransitiveDepth)
    (turn : Turn primitives orders store ctx maxTransitiveDepth { search with queue } id depth next) :
    next.Spent ctx maxTransitiveDepth ∧ search.SameReads next := by
  have deeper : (∀ item ∈ search.queue, maxTransitiveDepth.toNat < item.2) →
      maxTransitiveDepth.toNat < depth ∧ ∀ item ∈ queue, maxTransitiveDepth.toNat < item.2 := by
    rw [popped]
    intro deep
    exact ⟨deep (id, depth) List.mem_cons_self, fun item member => deep item (List.mem_cons_of_mem _ member)⟩
  have stays : ∀ inDepth : depth ≤ maxTransitiveDepth.toNat,
      search.resolved.length + search.unresolved.length < (budget ctx.limits maxTransitiveDepth).toNat → False := by
    intro inDepth within
    rcases spent with exhausted | deep
    · omega
    · exact absurd (deeper deep).1 (by omega)
  cases turn with
  | seen visited => exact ⟨spent.imp (fun exhausted => exhausted) fun deep => (deeper deep).2, rfl, rfl⟩
  | failed fresh inDepth within why => exact (stays inDepth within).elim
  | resolved fresh inDepth within fetched => exact (stays inDepth within).elim
  | @unread fresh reason why =>
    have silent : UnresolvedRef.askedFor ⟨id, depth, reason⟩ = false := by
      rcases why with ⟨rfl, _⟩ | ⟨rfl, _⟩
      · rfl
      · rfl
    refine ⟨spent.imp (fun exhausted => ?_) fun deep => (deeper deep).2, rfl, ?_⟩
    · simp only [List.length_append, List.length_singleton]
      omega
    · rw [List.filter_append, List.filter_cons, if_neg (by rw [silent]; exact Bool.false_ne_true), List.filter_nil,
        List.append_nil]

theorem resolveLoop_spent (inputs : checkInputs ctx = .ok ()) {fuel : Nat} {search final : Resolution}
    (spent : search.Spent ctx maxTransitiveDepth)
    (done : resolveLoop primitives orders store ctx maxTransitiveDepth fuel search = .ok final) :
    search.SameReads final := by
  induction fuel generalizing search with
  | zero => cases done
  | succ fuel inductionHypothesis =>
    rw [resolveLoop] at done
    split at done
    · cases done
      exact ⟨rfl, rfl⟩
    · rename_i id depth queue popped
      obtain ⟨next, one, turn⟩ := @resolveReference_turn primitives orders store ctx maxTransitiveDepth inputs
        { search with queue } id depth
      rw [one, ok_bind] at done
      obtain ⟨nextSpent, same⟩ := turn.spent popped spent
      have later := inductionHypothesis nextSpent done
      exact ⟨later.resolved.trans same.resolved, later.askedFor.trans same.askedFor⟩

/-! ## Two searches -/

variable {deeperDepth : UInt64}

theorem budget_mono (limits : Limits) (deeper : maxTransitiveDepth ≤ deeperDepth) :
    (budget limits maxTransitiveDepth).toNat ≤ (budget limits deeperDepth).toNat := by
  have levels := UInt64.le_iff_toNat_le.mp deeper
  have product := Nat.mul_le_mul_right limits.maxReferencedProofs.toNat levels
  rw [toNat_budget, toNat_budget]
  omega

/-- The shallower search refuses the reference before it asks the store. -/
def Resolution.Refuses (ctx : VerifyCtx) (maxTransitiveDepth : UInt64) (search : Resolution) (id : String)
    (depth : Nat) : Prop :=
  id ∉ search.visited ∧ (maxTransitiveDepth.toNat < depth ∨
    (budget ctx.limits maxTransitiveDepth).toNat ≤ search.resolved.length + search.unresolved.length)

/-- Unless the shallower search refuses the reference, the depths it may go to do not show. -/
theorem resolveReference_deeper (deeper : maxTransitiveDepth ≤ deeperDepth) {search : Resolution} {id : String}
    {depth : Nat} (willing : ¬ search.Refuses ctx maxTransitiveDepth id depth) :
    resolveReference primitives orders store ctx deeperDepth search id depth =
      resolveReference primitives orders store ctx maxTransitiveDepth search id depth := by
  have levels := UInt64.le_iff_toNat_le.mp deeper
  have budgets := budget_mono ctx.limits deeper
  rw [resolveReference, resolveReference]
  by_cases visited : search.visited.contains id = true
  · rw [if_pos visited, if_pos visited]
  · have fresh : id ∉ search.visited := fun member => visited (List.contains_iff_mem.mpr member)
    have bounds := mt (And.intro fresh) willing
    rw [not_or, not_lt, not_le] at bounds
    rw [if_neg visited, if_neg visited]
    dsimp only
    rw [if_neg (by omega), if_neg (by omega), if_neg (by omega), if_neg (by omega)]

/-- What the results of the two searches have to do with each other. -/
structure Resolution.Deepens (shallow deep : Resolution) : Prop where
  resolved : shallow.resolved <+: deep.resolved
  askedFor : shallow.unresolved.filter UnresolvedRef.askedFor <+: deep.unresolved.filter UnresolvedRef.askedFor
  complete : shallow.unresolved = [] → deep = shallow

variable {root : VerifyReport}

theorem resolveLoop_deeper (inputs : checkInputs ctx = .ok ()) (deeper : maxTransitiveDepth ≤ deeperDepth)
    {fuel otherFuel : Nat} {search shallow deep : Resolution}
    (searching : Resolving primitives orders store ctx maxTransitiveDepth root search)
    (done : resolveLoop primitives orders store ctx maxTransitiveDepth fuel search = .ok shallow)
    (other : resolveLoop primitives orders store ctx deeperDepth otherFuel search = .ok deep) :
    shallow.Deepens deep := by
  induction fuel generalizing search otherFuel with
  | zero => cases done
  | succ fuel inductionHypothesis =>
    cases otherFuel with
    | zero => cases other
    | succ otherFuel =>
      have kept := resolveLoop_keeps inputs other
      rw [resolveLoop] at done other
      split at done
      · rename_i empty
        rw [empty] at other
        cases done
        cases other
        exact ⟨List.prefix_rfl, List.prefix_rfl, fun _ => rfl⟩
      · rename_i id depth queue popped
        rw [popped] at other
        obtain ⟨next, one, turn⟩ := @resolveReference_turn primitives orders store ctx maxTransitiveDepth inputs
          { search with queue } id depth
        dsimp only at other
        rw [one, ok_bind] at done
        by_cases refuses : Resolution.Refuses ctx maxTransitiveDepth { search with queue } id depth
        · -- the shallower search stops reading here
          obtain ⟨fresh, why⟩ := refuses
          have ascending := searching.workList.ascending
          rw [Resolution.toState, popped] at ascending
          have spent : search.Spent ctx maxTransitiveDepth := by
            rcases why with deep | exhausted
            · refine .inr fun item member => ?_
              rw [popped] at member
              rcases List.mem_cons.mp member with rfl | later
              · exact deep
              · exact lt_of_lt_of_le deep (List.rel_of_pairwise_cons ascending later)
            · exact .inl exhausted
          obtain ⟨nextSpent, same⟩ := turn.spent popped spent
          have rest := resolveLoop_spent inputs nextSpent done
          refine ⟨?_, ?_, ?_⟩
          · rw [rest.resolved, same.resolved]
            exact kept.resolved
          · rw [rest.askedFor, same.askedFor]
            exact kept.unresolved.filter _
          · intro complete
            have unrefused := (resolveLoop_keeps inputs done).unresolved
            rw [complete, List.prefix_nil] at unrefused
            cases turn with
            | seen visited => exact absurd visited fresh
            | unread => exact absurd unrefused (by simp)
            | failed => exact absurd unrefused (by simp)
            | resolved fresh inDepth within fetched =>
              rcases why with deep | exhausted
              · omega
              · exact absurd within (by omega)
        · rw [resolveReference_deeper deeper refuses, one, ok_bind] at other
          exact inductionHypothesis (searching.turn popped turn) done other

end

end ProofEngine
