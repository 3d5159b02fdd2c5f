import ProofEngine.Verify.ResolveAuthentic

/-! # Descendants among candidates

The candidates are put into a store of their own, under the ids they claim, and each is resolved against this
store and the caller's.  A candidate that names the target is listed once for every time it was passed, whether
or not it verifies, and also when the target lies just beyond the depth bound; other than that the list is
sound. -/

namespace ProofEngine

open StableSort Text

section
variable (primitives : Primitives) (orders : Bytes → HashOrder) (store : ArtifactStore) (ctx : VerifyCtx)
  (maxTransitiveDepth : UInt64)

/-- The id in the report on these bytes. -/
def reportedId (bytes : Bytes) : Option String :=
  match verifyProof primitives (orders bytes) ctx bytes with
  | .ok report => report.proofId
  | .error _ => none

/-- The candidates by the ids they claim. -/
def candidateStore (candidates : List Bytes) : ArtifactStore :=
  fun id => .ok (candidates.find? fun bytes => reportedId primitives orders ctx bytes = some id)

/-- Where references of candidates are looked up. -/
def referenceStore (candidates : List Bytes) : ArtifactStore :=
  unionStore (candidateStore primitives orders ctx candidates) store

/-- References lead from the proof these bytes spell to `id`, through proofs in the store that claim the id they
    are held under, in so many steps. -/
inductive LinkPath (bytes : Bytes) : String → Nat → Prop where
  | direct {proof : Proof} {id : String}
      (spelled : (decodeStrict bytes ctx.limits >>= cborToProof ctx.limits) = .ok proof)
      (named : id ∈ proof.referencedProofs) : LinkPath bytes id 1
  | through {proof : Proof} {held : Bytes} {id : String} {length : Nat}
      (reached : LinkPath bytes proof.proofId length) (found : store proof.proofId = .ok (some held))
      (spelled : (decodeStrict held ctx.limits >>= cborToProof ctx.limits) = .ok proof)
      (named : id ∈ proof.referencedProofs) : LinkPath bytes id (length + 1)

/-- The list is strictly ascending, and each id on it is recomputed from a cryptographically valid candidate
    other than the target that reaches the target within the bound. -/
structure DescendantsSound (target : String) (candidates : List Bytes) (ids : List String) : Prop where
  ascending : ids.Pairwise fun earlier later => utf8 earlier < utf8 later
  each : ∀ id ∈ ids, id ≠ target ∧ ∃ bytes ∈ candidates, Recomputes primitives ctx id bytes ∧
    (∃ report, verifyProof primitives (orders bytes) ctx bytes = .ok report ∧
      report.cryptographicValidity = .valid) ∧
    ∃ length ≤ maxTransitiveDepth.toNat,
      LinkPath (referenceStore primitives orders store ctx candidates) ctx bytes target length

/-- The id is not the target, and what the store holds under it, resolved, names the target. -/
def isDescendant (target id : String) : Bool :=
  id ≠ target && decide (namesTarget primitives orders store ctx maxTransitiveDepth target id = .ok true)

/-- The id a candidate claims is that of a descendant. -/
def isListed (target : String) (candidates : List Bytes) (bytes : Bytes) : Bool :=
  (reportedId primitives orders ctx bytes).any
    (isDescendant primitives orders (referenceStore primitives orders store ctx candidates) ctx maxTransitiveDepth
      target)

end

/-! ## The store of candidates -/

theorem MemoryStore.put_ok {store next : MemoryStore} {id : String} {cbor : Bytes}
    (done : store.put id cbor = .ok next) :
    (store.inner.lookup id = none ∨ store.inner.lookup id = some cbor) ∧
      ∀ other, next.inner.lookup other = if other = id then some cbor else store.inner.lookup other := by
  simp only [put] at done
  split at done
  · cases done
  · split at done
    · cases done
    · split at done
      · rename_i previous found
        split at done
        · cases done
        · rename_i same
          rw [not_not] at same
          cases done
          refine ⟨.inr (same ▸ found), ?_⟩
          intro other
          split
          · rename_i here
            rw [here, found, same]
          · rfl
      · rename_i missing
        cases done
        refine ⟨.inl missing, ?_⟩
        intro other
        rw [List.lookup_cons]
        by_cases here : other = id
        · simp [here]
        · rw [if_neg here, beq_false_of_ne here]

section
variable {primitives : Primitives} {orders : Bytes → HashOrder} {store : ArtifactStore} {ctx : VerifyCtx}
  {maxTransitiveDepth : UInt64} {target : String} {candidates : List Bytes}

/-- What the loop over the candidates has built after `added`. -/
structure CandidatesCollected (primitives : Primitives) (orders : Bytes → HashOrder) (ctx : VerifyCtx)
    (added : List Bytes) (state : MemoryStore × List String) : Prop where
  ids : state.2 = added.filterMap (reportedId primitives orders ctx)
  holds : ∀ id bytes, state.1.inner.lookup id = some bytes ↔
    bytes ∈ added ∧ reportedId primitives orders ctx bytes = some id

theorem CandidatesCollected.add {added : List Bytes} {state next : MemoryStore × List String} {bytes : Bytes}
    (collected : CandidatesCollected primitives orders ctx added state)
    (done : addCandidate primitives orders ctx state bytes = .ok next) :
    CandidatesCollected primitives orders ctx (added ++ [bytes]) next := by
  obtain ⟨report, verified, done⟩ := bind_eq_ok.mp done
  have reported : reportedId primitives orders ctx bytes = report.proofId := by
    rw [reportedId, verified]
  cases named : report.proofId with
  | none =>
    -- a candidate that does not parse is passed over
    rw [named] at done
    cases done
    rw [named] at reported
    refine ⟨?_, ?_⟩
    · rw [List.filterMap_append, collected.ids]
      simp [reported]
    · intro id other
      rw [collected.holds, List.mem_append, List.mem_singleton]
      constructor
      · rintro ⟨member, claims⟩
        exact ⟨.inl member, claims⟩
      · rintro ⟨member | rfl, claims⟩
        · exact ⟨member, claims⟩
        · rw [reported] at claims
          cases claims
  | some id =>
    rw [named] at done reported
    simp only at done
    split at done
    · cases done
    · rename_i held put
      cases done
      obtain ⟨unlike, lookup⟩ := MemoryStore.put_ok put
      refine ⟨?_, ?_⟩
      · rw [List.filterMap_append, collected.ids]
        simp [reported]
      · intro other cbor
        rw [lookup, List.mem_append, List.mem_singleton]
        split
        · rename_i here
          subst here
          constructor
          · intro same
            cases same
            exact ⟨.inr rfl, reported⟩
          · rintro ⟨member | rfl, claims⟩
            · -- an earlier candidate under this id has the same bytes
              have before := (collected.holds other cbor).mpr ⟨member, claims⟩
              rcases unlike with missing | same
              · rw [missing] at before
                cases before
              · exact same.symm.trans before
            · rfl
        · rename_i elsewhere
          rw [collected.holds]
          constructor
          · rintro ⟨member, claims⟩
            exact ⟨.inl member, claims⟩
          · rintro ⟨member | rfl, claims⟩
            · exact ⟨member, claims⟩
            · rw [reported] at claims
              exact absurd (Option.some.inj claims).symm elsewhere

theorem collected_foldlM {added : List Bytes} {state final : MemoryStore × List String}
    (collected : CandidatesCollected primitives orders ctx added state)
    (done : candidates.foldlM (addCandidate primitives orders ctx) state = .ok final) :
    CandidatesCollected primitives orders ctx (added ++ candidates) final := by
  induction candidates generalizing added state with
  | nil =>
    cases done
    rwa [List.append_nil]
  | cons bytes candidates inductionHypothesis =>
    rw [List.foldlM_cons, bind_eq_ok] at done
    obtain ⟨next, here, rest⟩ := done
    have later := inductionHypothesis (collected.add here) rest
    rwa [List.append_assoc, List.singleton_append] at later

theorem collected_nil : CandidatesCollected primitives orders ctx [] (MemoryStore.new, []) where
  ids := rfl
  holds := by simp [MemoryStore.new]

section
variable {state : MemoryStore × List String} (collected : CandidatesCollected primitives orders ctx candidates state)
include collected

/-- Candidates that claim one id are the same bytes. -/
theorem CandidatesCollected.injective {bytes other : Bytes} {id : String} (member : bytes ∈ candidates)
    (otherMember : other ∈ candidates) (claims : reportedId primitives orders ctx bytes = some id)
    (otherClaims : reportedId primitives orders ctx other = some id) : bytes = other := by
  have here := (collected.holds id bytes).mpr ⟨member, claims⟩
  have there := (collected.holds id other).mpr ⟨otherMember, otherClaims⟩
  exact Option.some.inj (here.symm.trans there)

theorem CandidatesCollected.get_eq : state.1.get = candidateStore primitives orders ctx candidates := by
  funext id
  rw [MemoryStore.get, candidateStore]
  congr 1
  apply Option.ext
  intro bytes
  rw [collected.holds]
  constructor
  · rintro ⟨member, claims⟩
    have listed : (candidates.find? fun bytes => reportedId primitives orders ctx bytes = some id).isSome := by
      rw [List.find?_isSome]
      exact ⟨bytes, member, decide_eq_true claims⟩
    obtain ⟨found, search⟩ := Option.isSome_iff_exists.mp listed
    have foundClaims : decide (reportedId primitives orders ctx found = Option.some id) = true :=
      @List.find?_some _ (fun bytes => decide (reportedId primitives orders ctx bytes = Option.some id)) _ _ search
    rw [search, collected.injective (List.mem_of_find?_eq_some search) member (of_decide_eq_true foundClaims) claims]
  · intro search
    have claims : decide (reportedId primitives orders ctx bytes = some id) = true :=
      @List.find?_some _ (fun bytes => decide (reportedId primitives orders ctx bytes = some id)) _ _ search
    exact ⟨List.mem_of_find?_eq_some search, of_decide_eq_true claims⟩

end

/-! ## The list -/

theorem selectDescendants_eq {ids out : List String}
    (done : selectDescendants primitives orders store ctx maxTransitiveDepth target ids = .ok out) :
    out = ids.filter (isDescendant primitives orders store ctx maxTransitiveDepth target) := by
  induction ids generalizing out with
  | nil =>
    cases done
    rfl
  | cons id ids inductionHypothesis =>
    rw [selectDescendants] at done
    split at done
    · rename_i isTarget
      rw [List.filter_cons_of_neg (by simp [isDescendant, isTarget]), inductionHypothesis done]
    · rename_i other
      obtain ⟨found, names, rest⟩ := bind_eq_ok.mp done
      obtain ⟨later, laterDone, returned⟩ := bind_eq_ok.mp rest
      cases returned
      rw [inductionHypothesis laterDone]
      cases found with
      | true => rw [List.filter_cons_of_pos (by simp [isDescendant, other, names]), if_pos rfl]
      | false =>
        rw [List.filter_cons_of_neg (by simp [isDescendant, other, names])]
        rfl

/-- The result is the claimed ids of the listed candidates, in order. -/
theorem descendantsOf_eq {ids : List String}
    (done : descendantsOf primitives orders store ctx maxTransitiveDepth target candidates = .ok ids) :
    ∃ state, CandidatesCollected primitives orders ctx candidates state ∧
      ids = sortOn utf8 ((candidates.filter (isListed primitives orders store ctx maxTransitiveDepth target
        candidates)).filterMap (reportedId primitives orders ctx)) := by
  obtain ⟨⟨held, claimed⟩, folded, rest⟩ := bind_eq_ok.mp done
  obtain ⟨out, selected, returned⟩ := bind_eq_ok.mp rest
  cases returned
  have collected := collected_foldlM collected_nil folded
  rw [List.nil_append] at collected
  refine ⟨_, collected, ?_⟩
  have stores := collected.get_eq
  have claimedIds := collected.ids
  simp only at stores claimedIds
  rw [selectDescendants_eq selected, stores, claimedIds, List.filter_filterMap, List.filterMap_filter]
  congr 1
  apply List.filterMap_congr
  intro bytes _
  rw [isListed, referenceStore]
  cases reportedId primitives orders ctx bytes with
  | none => rfl
  | some id => rw [Option.filter_some, Option.any_some]

/-! ## What is named is reached -/

theorem spelled_of_reference {order : HashOrder} {bytes : Bytes} {report : VerifyReport} {id : String}
    (verified : verifyProof primitives order ctx bytes = .ok report) (named : id ∈ report.referencedProofs) :
    ∃ proof, (decodeStrict bytes ctx.limits >>= cborToProof ctx.limits) = .ok proof ∧
      id ∈ proof.referencedProofs ∧ report.proofId = some proof.proofId := by
  cases verifyProof_ran verified with
  | unparsed failed => cases named
  | misshapen decoded failed => cases named
  | completed stages =>
    rw [stages.reported] at named ⊢
    exact ⟨_, bind_eq_ok.mpr ⟨_, stages.decoded, stages.parsed⟩, named, rfl⟩

section
variable {bytes : Bytes} {root : VerifyReport} {search : Resolution}
  (verified : verifyProof primitives (orders bytes) ctx bytes = .ok root)
  (searching : Resolving primitives orders store ctx maxTransitiveDepth root search)
include verified searching

/-- Paths through resolved proofs are paths through what the store holds. -/
theorem Resolving.linkPath {id : String} {length : Nat}
    (path : ReferencePath ⟨root, search.resolved, search.unresolved⟩ id length) :
    LinkPath store ctx bytes id length := by
  induction path with
  | direct named =>
    obtain ⟨proof, spelled, inProof, _⟩ := spelled_of_reference verified named
    exact .direct spelled inProof
  | @through parent id length _ resolved named inductionHypothesis =>
    obtain ⟨⟨held, found, heldVerified, claims⟩, _⟩ := searching.fetched parent resolved
    obtain ⟨proof, spelled, inProof, reported⟩ := spelled_of_reference heldVerified named
    obtain same : parent.id = proof.proofId := Option.some.inj (claims.symm.trans reported)
    rw [same] at found inductionHypothesis
    exact .through inductionHypothesis found spelled inProof

omit verified in
/-- What is recorded lies at most one step beyond the bound. -/
theorem Resolving.depth_le (empty : search.queue = []) {ancestor : Ancestor}
    (member : ancestor ∈ ResolutionReport.entries ⟨root, search.resolved, search.unresolved⟩) :
    ancestor.depth ≤ maxTransitiveDepth.toNat + 1 ∧
      ReferencePath ⟨root, search.resolved, search.unresolved⟩ ancestor.id ancestor.depth := by
  have correct := searching.searchCorrect empty
  rcases List.mem_append.mp member with isResolved | isUnresolved
  · obtain ⟨proof, resolved, rfl⟩ := List.mem_map.mp isResolved
    exact ⟨Nat.le_succ_of_le (searching.fetched proof resolved).2.2, (correct.resolvedDepth proof resolved).1⟩
  · obtain ⟨reference, unresolved, rfl⟩ := List.mem_map.mp isUnresolved
    obtain ⟨path, least⟩ := correct.unresolvedDepth reference unresolved
    refine ⟨?_, path⟩
    -- the last step of a path leaves the root or a proof within the bound
    obtain ⟨length, other⟩ : ∃ length, ReferencePath ⟨root, search.resolved, search.unresolved⟩ reference.id length :=
      ⟨_, path⟩
    cases other with
    | direct named => exact le_trans (least (ReferencePath.direct named)) (Nat.le_add_left 1 _)
    | @through parent _ _ _ resolved named =>
      have shorter := least (ReferencePath.through (correct.resolvedDepth parent resolved).1 resolved named)
      exact le_trans shorter (Nat.succ_le_succ (searching.fetched parent resolved).2.2)

end

/-- A target that is named is reached in at most one step more than the bound. -/
theorem namesTarget_linkPath {id : String}
    (names : namesTarget primitives orders store ctx maxTransitiveDepth target id = .ok true) :
    ∃ bytes, store id = .ok (some bytes) ∧
      ∃ length ≤ maxTransitiveDepth.toNat + 1, LinkPath store ctx bytes target length := by
  rw [namesTarget] at names
  split at names
  · cases names
  · cases names
  · rename_i bytes held
    refine ⟨bytes, held, ?_⟩
    obtain ⟨report, resolved, named⟩ := bind_eq_ok.mp names
    -- the resolution is that of a search that has ended
    obtain ⟨⟨root, search⟩, done, returned⟩ := bind_eq_ok.mp resolved
    cases returned
    obtain ⟨verified, searching, empty⟩ := resolveSearch_searching done
    have any := Except.ok.inj named
    rw [List.any_eq_true] at any
    obtain ⟨ancestor, member, isTarget⟩ := any
    have recorded := (ancestors_perm searching.once).mem_iff.mp member
    obtain ⟨depthLe, path⟩ := searching.depth_le empty recorded
    rw [of_decide_eq_true isTarget] at path
    exact ⟨ancestor.depth, depthLe, searching.linkPath verified path⟩

theorem unionStore_held {first second : ArtifactStore} {id : String} {held bytes : Bytes}
    (found : unionStore first second id = .ok (some held)) (inFirst : first id = .ok (some bytes)) : held = bytes := by
  simp only [unionStore, inFirst, ok_bind, bind_eq_ok] at found
  obtain ⟨fromSecond, _, found⟩ := found
  cases fromSecond with
  | none =>
    cases found
    rfl
  | some other =>
    simp only at found
    split at found
    · cases found
    · cases found
      rfl

section
variable {state : MemoryStore × List String} (collected : CandidatesCollected primitives orders ctx candidates state)
include collected

theorem CandidatesCollected.candidateStore_eq {bytes : Bytes} {id : String} (member : bytes ∈ candidates)
    (claims : reportedId primitives orders ctx bytes = some id) :
    candidateStore primitives orders ctx candidates id = .ok (some bytes) := by
  rw [← collected.get_eq, MemoryStore.get, (collected.holds id bytes).mpr ⟨member, claims⟩]

/-- A listed candidate reaches the target in at most one step more than the bound. -/
theorem CandidatesCollected.listed_linkPath {bytes : Bytes} (member : bytes ∈ candidates)
    (listed : isListed primitives orders store ctx maxTransitiveDepth target candidates bytes = true) :
    ∃ length ≤ maxTransitiveDepth.toNat + 1,
      LinkPath (referenceStore primitives orders store ctx candidates) ctx bytes target length := by
  rw [isListed, Option.any_eq_true] at listed
  obtain ⟨id, claims, descends⟩ := listed
  rw [isDescendant, Bool.and_eq_true, decide_eq_true_eq, decide_eq_true_eq] at descends
  obtain ⟨held, found, path⟩ := namesTarget_linkPath descends.2
  rwa [unionStore_held found (collected.candidateStore_eq member claims)] at path

end

end

/-! ## When the list is sound -/

section
variable {primitives : Primitives} {orders : Bytes → HashOrder} {store : ArtifactStore} {ctx : VerifyCtx}
  {maxTransitiveDepth : UInt64} {target : String} {candidates : List Bytes}

/-- A cryptographically valid report carries the recomputed id. -/
theorem recomputes_iff_of_valid {order : HashOrder} {bytes : Bytes} {report : VerifyReport} {id : String}
    (verified : verifyProof primitives order ctx bytes = .ok report) (valid : report.cryptographicValidity = .valid) :
    Recomputes primitives ctx id bytes ↔ report.proofId = some id := by
  cases verifyProof_ran verified with
  | unparsed failed =>
    revert valid
    simp [finalize, stageValid, cryptoStages, CheckRecord.fail]
  | misshapen decoded failed =>
    revert valid
    simp [finalize, stageValid, cryptoStages, CheckRecord.fail]
  | @completed value proof _ recomputed _ _ stages =>
    have spelled : (decodeStrict bytes ctx.limits >>= cborToProof ctx.limits) = .ok proof :=
      bind_eq_ok.mpr ⟨_, stages.decoded, stages.parsed⟩
    have same := (stages.cryptoValid_iff.mp valid).1
    rw [report_of_claims verified spelled, Option.some.injEq, ← same]
    constructor
    · rintro ⟨proof', spelled', recomputes⟩
      rw [spelled] at spelled'
      cases spelled'
      exact Except.ok.inj (stages.named.symm.trans recomputes)
    · rintro rfl
      exact ⟨proof, spelled, stages.named⟩

theorem nodup_filterMap_iff {α β : Type} {claim : α → Option β} {items : List α}
    (claimed : ∀ item ∈ items, ∃ value, claim item = some value)
    (injective : ∀ item ∈ items, ∀ other ∈ items, claim item = claim other → item = other) :
    (items.filterMap claim).Nodup ↔ items.Nodup := by
  induction items with
  | nil => simp
  | cons item items inductionHypothesis =>
    obtain ⟨value, here⟩ := claimed item List.mem_cons_self
    have later := inductionHypothesis (fun other member => claimed other (List.mem_cons_of_mem _ member))
      fun left leftMember right rightMember =>
        injective left (List.mem_cons_of_mem _ leftMember) right (List.mem_cons_of_mem _ rightMember)
    rw [List.filterMap_cons_some here, List.nodup_cons, List.nodup_cons, later, List.mem_filterMap]
    refine and_congr_left fun _ => not_congr ⟨?_, fun member => ⟨item, member, here⟩⟩
    rintro ⟨other, member, same⟩
    rwa [injective item List.mem_cons_self other (List.mem_cons_of_mem _ member) (here.trans same.symm)]

section
variable {state : MemoryStore × List String} (collected : CandidatesCollected primitives orders ctx candidates state)
include collected

theorem CandidatesCollected.listed_nodup :
    (sortOn utf8 ((candidates.filter (isListed primitives orders store ctx maxTransitiveDepth target
      candidates)).filterMap (reportedId primitives orders ctx))).Pairwise
        (fun earlier later => utf8 earlier < utf8 later) ↔
      (candidates.filter (isListed primitives orders store ctx maxTransitiveDepth target candidates)).Nodup := by
  have claimed : ∀ bytes ∈ candidates.filter (isListed primitives orders store ctx maxTransitiveDepth target
      candidates), ∃ id, reportedId primitives orders ctx bytes = some id := by
    intro bytes member
    have listed := (List.mem_filter.mp member).2
    rw [isListed, Option.any_eq_true] at listed
    obtain ⟨id, claims, _⟩ := listed
    exact ⟨id, claims⟩
  rw [← nodup_filterMap_iff claimed]
  · constructor
    · intro strict
      exact (sortOn_perm utf8 _).nodup_iff.mp (strict.imp fun less same => absurd (same ▸ less) (lt_irrefl _))
    · intro distinct
      exact sortOn_strict (distinct.map utf8_injective)
  · intro bytes member other otherMember same
    obtain ⟨id, claims⟩ := claimed bytes member
    exact collected.injective (List.mem_of_mem_filter member) (List.mem_of_mem_filter otherMember) claims
      (same ▸ claims)

end

end

/-- The descendants found are sound and free of repeats exactly when, among the candidates that are listed, none
    was passed twice, all are cryptographically valid, and for none the target is exactly one reference beyond
    the bound. -/
theorem descendantsOf_sound_iff (primitives : Primitives) (orders : Bytes → HashOrder) (store : ArtifactStore)
    (ctx : VerifyCtx) (maxTransitiveDepth : UInt64) (target : String) (candidates : List Bytes) (ids : List String)
    (done : descendantsOf primitives orders store ctx maxTransitiveDepth target candidates = .ok ids) :
    DescendantsSound primitives orders store ctx maxTransitiveDepth target candidates ids ↔
      (candidates.filter (isListed primitives orders store ctx maxTransitiveDepth target candidates)).Nodup ∧
      ∀ bytes ∈ candidates, isListed primitives orders store ctx maxTransitiveDepth target candidates bytes = true →
        (∃ report, verifyProof primitives (orders bytes) ctx bytes = .ok report ∧
          report.cryptographicValidity = .valid) ∧
        ¬ IsLeast { length | LinkPath (referenceStore primitives orders store ctx candidates) ctx bytes target length }
          (maxTransitiveDepth.toNat + 1) := by
  obtain ⟨state, collected, rfl⟩ := descendantsOf_eq done
  constructor
  · rintro ⟨ascending, each⟩
    refine ⟨collected.listed_nodup.mp ascending, ?_⟩
    intro bytes member listed
    have claimed := listed
    rw [isListed, Option.any_eq_true] at claimed
    obtain ⟨id, claims, _⟩ := claimed
    have onList : id ∈ sortOn utf8 ((candidates.filter (isListed primitives orders store ctx maxTransitiveDepth target
        candidates)).filterMap (reportedId primitives orders ctx)) := by
      rw [mem_sortOn, List.mem_filterMap]
      exact ⟨bytes, List.mem_filter.mpr ⟨member, listed⟩, claims⟩
    obtain ⟨_, other, otherMember, recomputes, ⟨report, verified, valid⟩, length, within, path⟩ := each id onList
    -- the candidate the id is recomputed from claims it too, so it is this one
    have otherClaims : reportedId primitives orders ctx other = some id := by
      rw [reportedId, verified]
      exact (recomputes_iff_of_valid verified valid).mp recomputes
    obtain rfl := collected.injective member otherMember claims otherClaims
    refine ⟨⟨report, verified, valid⟩, ?_⟩
    intro least
    exact absurd (least.2 path) (by omega)
  · rintro ⟨distinct, each⟩
    refine ⟨collected.listed_nodup.mpr distinct, ?_⟩
    intro id onList
    rw [mem_sortOn, List.mem_filterMap] at onList
    obtain ⟨bytes, filtered, claims⟩ := onList
    obtain ⟨member, listed⟩ := List.mem_filter.mp filtered
    obtain ⟨⟨report, verified, valid⟩, notBeyond⟩ := each bytes member listed
    have other : id ≠ target := by
      rw [isListed, claims, Option.any_some, isDescendant, Bool.and_eq_true, decide_eq_true_eq] at listed
      exact listed.1
    have recomputes : Recomputes primitives ctx id bytes := by
      rw [recomputes_iff_of_valid verified valid]
      rwa [reportedId, verified] at claims
    refine ⟨other, bytes, member, recomputes, ⟨report, verified, valid⟩, ?_⟩
    -- were all paths longer than the bound, the one found would be a shortest one
    by_contra beyond
    have longer : ∀ length, LinkPath (referenceStore primitives orders store ctx candidates) ctx bytes target length →
        maxTransitiveDepth.toNat + 1 ≤ length := by
      intro length path
      by_contra within
      exact beyond ⟨length, by omega, path⟩
    obtain ⟨length, close, path⟩ := collected.listed_linkPath member listed
    obtain rfl : length = maxTransitiveDepth.toNat + 1 := le_antisymm close (longer length path)
    exact notBeyond ⟨path, longer⟩

theorem linkingProof_descends :
    ∃ ids, descendantsOf linkedPrimitives (fun _ => .inserted) (leafStore (bytesOf leafProof)) VerifyCtx.default 1
        leafId [bytesOf linkingProof] = .ok ids ∧ ids = [linkingProof.proofId] ∧
      DescendantsSound linkedPrimitives (fun _ => .inserted) (leafStore (bytesOf leafProof)) VerifyCtx.default 1
        leafId [bytesOf linkingProof] ids := by
  have found : descendantsOf linkedPrimitives (fun _ => .inserted) (leafStore (bytesOf leafProof)) VerifyCtx.default 1
      leafId [bytesOf linkingProof] = .ok [linkingProof.proofId] := by decide +kernel
  have spelled : (decodeStrict (bytesOf linkingProof) VerifyCtx.default.limits >>=
      cborToProof VerifyCtx.default.limits) = .ok linkingProof := by decide +kernel
  refine ⟨_, found, rfl, (descendantsOf_sound_iff _ _ _ _ _ _ _ _ found).mpr ⟨?_, ?_⟩⟩
  · exact (List.nodup_singleton _).filter _
  · intro bytes member _
    rw [List.mem_singleton.mp member]
    refine ⟨map_eq_ok.mp linkingProof_valid, ?_⟩
    -- the one reference is a path within the bound
    intro least
    have one := least.2 (LinkPath.direct spelled (List.mem_singleton.mpr rfl))
    revert one
    decide

/-- A link whose claimed id is not its own. -/
def forgedLink : Proof := { linkingProof with proofId := "prf:v1:x" }

/-- A candidate passed twice is listed twice, and one that does not verify is listed under the id it claims. -/
theorem unsoundCandidates_listed :
    (∃ ids, descendantsOf linkedPrimitives (fun _ => .inserted) (leafStore (bytesOf leafProof)) VerifyCtx.default 1
        leafId [bytesOf linkingProof, bytesOf linkingProof] = .ok ids ∧
      ¬ DescendantsSound linkedPrimitives (fun _ => .inserted) (leafStore (bytesOf leafProof)) VerifyCtx.default 1
        leafId [bytesOf linkingProof, bytesOf linkingProof] ids) ∧
    ∃ ids, descendantsOf linkedPrimitives (fun _ => .inserted) (leafStore (bytesOf leafProof)) VerifyCtx.default 1
        leafId [bytesOf forgedLink] = .ok ids ∧
      ¬ DescendantsSound linkedPrimitives (fun _ => .inserted) (leafStore (bytesOf leafProof)) VerifyCtx.default 1
        leafId [bytesOf forgedLink] ids := by
  have twice : descendantsOf linkedPrimitives (fun _ => .inserted) (leafStore (bytesOf leafProof)) VerifyCtx.default 1
      leafId [bytesOf linkingProof, bytesOf linkingProof] = .ok [linkingProof.proofId, linkingProof.proofId] := by
    decide +kernel
  have forged : descendantsOf linkedPrimitives (fun _ => .inserted) (leafStore (bytesOf leafProof)) VerifyCtx.default 1
      leafId [bytesOf forgedLink] = .ok ["prf:v1:x"] := by decide +kernel
  have spelled : (decodeStrict (bytesOf forgedLink) VerifyCtx.default.limits >>=
      cborToProof VerifyCtx.default.limits) = .ok forgedLink := by decide +kernel
  have recomputed : recomputedProofId linkedPrimitives forgedLink ≠ .ok "prf:v1:x" := by decide +kernel
  refine ⟨⟨_, twice, ?_⟩, _, forged, ?_⟩
  · intro sound
    exact lt_irrefl _ (List.rel_of_pairwise_cons sound.ascending List.mem_cons_self)
  · intro sound
    obtain ⟨_, bytes, member, ⟨proof, read, recomputes⟩, _⟩ := sound.each _ List.mem_cons_self
    rw [List.mem_singleton.mp member, spelled] at read
    cases read
    exact recomputed recomputes

end ProofEngine
