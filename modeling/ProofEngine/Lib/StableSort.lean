import Mathlib.Data.List.Sort
import Mathlib.Data.List.Destutter

/-! # Stable sorting by a key

A stable sort is determined by its input and its key, so insertion sort stands for
any stable sorting routine.  The lemmas say how `sortOn` interacts with permutation,
`map` and already sorted input; `sortOn_eq_of_strict` is the uniqueness rule used to
recognise a list that was sorted elsewhere. -/

namespace ProofEngine.StableSort

variable {α β κ : Type*} [LinearOrder κ]

/-- Stable ascending sort by `key`. -/
def sortOn (key : α → κ) (items : List α) : List α :=
  items.insertionSort (fun left right => key left ≤ key right)

@[simp] theorem sortOn_nil (key : α → κ) : sortOn key [] = [] := rfl

theorem sortOn_cons (key : α → κ) (item : α) (items : List α) :
    sortOn key (item :: items) =
      (sortOn key items).orderedInsert (fun left right => key left ≤ key right) item := rfl

theorem sortOn_perm (key : α → κ) (items : List α) : (sortOn key items).Perm items :=
  List.perm_insertionSort _ items

@[simp] theorem mem_sortOn {key : α → κ} {items : List α} {item : α} :
    item ∈ sortOn key items ↔ item ∈ items :=
  (sortOn_perm key items).mem_iff

@[simp] theorem length_sortOn (key : α → κ) (items : List α) :
    (sortOn key items).length = items.length :=
  (sortOn_perm key items).length_eq

theorem sortOn_pairwise (key : α → κ) (items : List α) :
    (sortOn key items).Pairwise (fun left right => key left ≤ key right) := by
  have total : Std.Total (fun left right : α => key left ≤ key right) := ⟨fun _ _ => le_total _ _⟩
  have trans : IsTrans α (fun left right => key left ≤ key right) := ⟨fun _ _ _ => le_trans⟩
  exact List.pairwise_insertionSort _ items

theorem sortOn_of_pairwise {key : α → κ} {items : List α}
    (sorted : items.Pairwise (fun left right => key left ≤ key right)) : sortOn key items = items :=
  sorted.insertionSort_eq

theorem sortOn_of_strict {key : α → κ} {items : List α}
    (sorted : items.Pairwise (fun left right => key left < key right)) : sortOn key items = items :=
  sortOn_of_pairwise (sorted.imp le_of_lt)

/-- Sorting one more item into a sorted list only inserts it. -/
theorem sortOn_cons_of_strict {key : α → κ} {items : List α} (item : α)
    (sorted : items.Pairwise (fun left right => key left < key right)) :
    ∃ before after, before ++ after = items ∧ sortOn key (item :: items) = before ++ item :: after := by
  refine ⟨items.takeWhile fun other => ¬ key item ≤ key other,
    items.dropWhile fun other => ¬ key item ≤ key other, List.takeWhile_append_dropWhile, ?_⟩
  rw [sortOn_cons, sortOn_of_strict sorted, List.orderedInsert_eq_take_drop]

/-- A common item can be taken out of two sorted lists. -/
theorem sortOn_cons_cancel {key : α → κ} {item : α} {items others : List α} (absent : item ∉ items)
    (otherAbsent : item ∉ others) (same : sortOn key (item :: items) = sortOn key (item :: others)) :
    sortOn key items = sortOn key others := by
  classical
  rw [sortOn_cons, sortOn_cons] at same
  have erased := congrArg (List.erase · item) same
  simpa only [List.erase_orderedInsert_of_notMem (mt mem_sortOn.mp absent),
    List.erase_orderedInsert_of_notMem (mt mem_sortOn.mp otherAbsent)] using erased

theorem sortOn_idem (key : α → κ) (items : List α) :
    sortOn key (sortOn key items) = sortOn key items :=
  sortOn_of_pairwise (sortOn_pairwise key items)

theorem sortOn_map (key : β → κ) (f : α → β) (items : List α) :
    sortOn key (items.map f) = (sortOn (fun item => key (f item)) items).map f :=
  (List.map_insertionSort _ _ f items (fun _ _ _ _ => Iff.rfl)).symm

theorem sortOn_congr {key other : α → κ} {items : List α}
    (agree : ∀ item ∈ items, key item = other item) : sortOn key items = sortOn other items := by
  have same := List.map_insertionSort (fun left right => key left ≤ key right)
    (fun left right => other left ≤ other right) id items
    (fun left leftMember right rightMember => by
      simp only [id, agree left leftMember, agree right rightMember])
  simpa [sortOn] using same

theorem sortOn_strict {key : α → κ} {items : List α} (distinct : (items.map key).Nodup) :
    (sortOn key items).Pairwise (fun left right => key left < key right) := by
  have keysDistinct : ((sortOn key items).map key).Nodup :=
    (((sortOn_perm key items).map key).nodup_iff).mpr distinct
  have separated := List.pairwise_map.mp keysDistinct
  exact (sortOn_pairwise key items).imp₂ (fun _ _ le ne => lt_of_le_of_ne le ne) separated

/-- A strictly ascending list is the sorted form of each of its permutations. -/
theorem sortOn_eq_of_strict {key : α → κ} {items sorted : List α}
    (strict : sorted.Pairwise (fun left right => key left < key right))
    (perm : items.Perm sorted) : sortOn key items = sorted := by
  have distinct : (sorted.map key).Nodup :=
    List.pairwise_map.mpr (strict.imp fun less => less.ne)
  have inputDistinct : (items.map key).Nodup := ((perm.map key).nodup_iff).mpr distinct
  refine List.Perm.eq_of_pairwise ?_ (sortOn_strict inputDistinct) strict ((sortOn_perm key items).trans perm)
  intro left right _ _ less more
  exact absurd (less.trans more) (lt_irrefl _)

/-- Under an injective key the sorted form does not depend on the order of the input. -/
theorem sortOn_eq_of_perm {key : α → κ} (injective : Function.Injective key) {items others : List α}
    (perm : items.Perm others) : sortOn key items = sortOn key others := by
  refine List.Perm.eq_of_pairwise ?_ (sortOn_pairwise key items) (sortOn_pairwise key others)
    ((sortOn_perm key items).trans (perm.trans (sortOn_perm key others).symm))
  intro left right _ _ le ge
  exact injective (le_antisymm le ge)

/-- Without repeated keys the sorted form does not depend on the order of the input. -/
theorem sortOn_eq_of_perm_nodup {key : α → κ} {items others : List α} (distinct : (others.map key).Nodup)
    (perm : items.Perm others) : sortOn key items = sortOn key others :=
  sortOn_eq_of_strict (sortOn_strict distinct) (perm.trans (sortOn_perm key others).symm)

/-- A sorted list without equal neighbours is strictly ascending. -/
theorem strict_of_isChain {key : α → κ} {items : List α}
    (weak : items.Pairwise (fun left right => key left ≤ key right))
    (chain : items.IsChain (fun left right => key left ≠ key right)) :
    items.Pairwise (fun left right => key left < key right) := by
  induction items with
  | nil => exact .nil
  | cons first rest inductionHypothesis =>
    obtain ⟨firstLe, restLe⟩ := List.pairwise_cons.mp weak
    refine List.pairwise_cons.mpr ⟨?_, inductionHypothesis restLe chain.tail⟩
    cases rest with
    | nil => intro item member; cases member
    | cons second rest =>
      have different : key first ≠ key second := chain.rel
      have firstLess := lt_of_le_of_ne (firstLe second List.mem_cons_self) different
      intro item member
      cases member with
      | head => exact firstLess
      | tail _ member => exact lt_of_lt_of_le firstLess ((List.pairwise_cons.mp restLe).1 item member)

/-- Sorting and dropping repeats returns the input only when it was strictly ascending. -/
theorem strict_of_destutter_sortOn {key : α → κ} {items : List α}
    [DecidableRel fun left right : α => key left ≠ key right]
    (fixed : (sortOn key items).destutter (fun left right => key left ≠ key right) = items) :
    items.Pairwise (fun left right => key left < key right) := by
  have lengths : ((sortOn key items).destutter (fun left right => key left ≠ key right)).length =
      (sortOn key items).length := by rw [fixed, length_sortOn]
  have whole := (List.destutter_sublist _ (sortOn key items)).eq_of_length lengths
  have sorted : sortOn key items = items := whole.symm.trans fixed
  have chain := List.isChain_destutter (fun left right => key left ≠ key right) (sortOn key items)
  rw [fixed] at chain
  have weak := sortOn_pairwise key items
  rw [sorted] at weak
  exact strict_of_isChain weak chain

theorem destutter_sortOn_of_strict {key : α → κ} {items : List α}
    [DecidableRel fun left right : α => key left ≠ key right]
    (strict : items.Pairwise (fun left right => key left < key right)) :
    (sortOn key items).destutter (fun left right => key left ≠ key right) = items := by
  have chain : items.IsChain (fun left right => key left ≠ key right) := (strict.imp fun less => less.ne).isChain
  rw [sortOn_of_strict strict]
  exact List.destutter_of_isChain _ items chain

/-! ## Sorting and keeping the first item of each key -/

/-- Stable sort, then only the first item of each run of equal keys. -/
def sortDedup (key : α → κ) (items : List α) : List α :=
  (sortOn key items).destutter (fun left right => key left ≠ key right)

theorem sortDedup_sublist (key : α → κ) (items : List α) :
    (sortDedup key items).Sublist (sortOn key items) :=
  List.destutter_sublist _ _

theorem mem_of_mem_sortDedup {key : α → κ} {items : List α} {item : α}
    (member : item ∈ sortDedup key items) : item ∈ items :=
  mem_sortOn.mp ((sortDedup_sublist key items).subset member)

theorem sortDedup_strict (key : α → κ) (items : List α) :
    (sortDedup key items).Pairwise (fun left right => key left < key right) :=
  strict_of_isChain ((sortOn_pairwise key items).sublist (sortDedup_sublist key items))
    (List.isChain_destutter _ _)

theorem sortDedup_key_inj {key : α → κ} {items : List α} {left right : α} (leftMember : left ∈ sortDedup key items)
    (rightMember : right ∈ sortDedup key items) (same : key left = key right) : left = right := by
  have distinct : ((sortDedup key items).map key).Nodup :=
    List.pairwise_map.mpr ((sortDedup_strict key items).imp fun less => less.ne)
  exact List.inj_on_of_nodup_map distinct leftMember rightMember same

theorem exists_mem_destutter' {key : α → κ} {first : α} {items : List α} {item : α} (member : item ∈ first :: items) :
    ∃ kept ∈ items.destutter' (fun left right => key left ≠ key right) first, key kept = key item := by
  induction items generalizing first with
  | nil => exact ⟨first, by simp, by rw [List.mem_singleton.mp member]⟩
  | cons second items inductionHypothesis =>
    by_cases same : key first = key second
    · rw [List.destutter'_cons_neg _ (not_not.mpr same)]
      rcases List.mem_cons.mp member with isFirst | member
      · exact ⟨first, List.mem_destutter' _ _ first, by rw [isFirst]⟩
      · rcases List.mem_cons.mp member with isSecond | member
        · -- a dropped item has the key of the item before it
          exact ⟨first, List.mem_destutter' _ _ first, by rw [isSecond, same]⟩
        · exact inductionHypothesis (List.mem_cons_of_mem _ member)
    · rw [List.destutter'_cons_pos _ same]
      rcases List.mem_cons.mp member with rfl | member
      · exact ⟨item, List.mem_cons_self, rfl⟩
      · obtain ⟨kept, keptMember, keyIs⟩ := inductionHypothesis member
        exact ⟨kept, List.mem_cons_of_mem _ keptMember, keyIs⟩

/-- Every key keeps an item. -/
theorem exists_mem_sortDedup {key : α → κ} {items : List α} {item : α} (member : item ∈ items) :
    ∃ kept ∈ sortDedup key items, key kept = key item := by
  rw [← @mem_sortOn _ _ _ key] at member
  rw [sortDedup]
  cases sorted : sortOn key items with
  | nil =>
    rw [sorted] at member
    cases member
  | cons first rest =>
    rw [sorted] at member
    exact exists_mem_destutter' member

theorem mem_destutter'_of_new {key : α → κ} {first item : α} {before after : List α}
    (new : ∀ earlier ∈ first :: before, key earlier ≠ key item) :
    item ∈ (before ++ item :: after).destutter' (fun left right => key left ≠ key right) first := by
  induction before generalizing first with
  | nil =>
    have different : key first ≠ key item := new first List.mem_cons_self
    rw [List.nil_append, List.destutter', if_pos different]
    exact List.mem_cons_of_mem _ (List.mem_destutter' _ _ item)
  | cons second before inductionHypothesis =>
    obtain ⟨firstNew, restNew⟩ := List.forall_mem_cons.mp new
    obtain ⟨secondNew, laterNew⟩ := List.forall_mem_cons.mp restNew
    rw [List.cons_append]
    by_cases same : key first = key second
    · rw [List.destutter'_cons_neg _ (not_not.mpr same)]
      exact inductionHypothesis (List.forall_mem_cons.mpr ⟨firstNew, laterNew⟩)
    · rw [List.destutter'_cons_pos _ same]
      exact List.mem_cons_of_mem _ (inductionHypothesis restNew)

/-- The first item of a list is the one its key keeps. -/
theorem mem_sortDedup_cons (key : α → κ) (item : α) (items : List α) : item ∈ sortDedup key (item :: items) := by
  rw [sortDedup, sortOn_cons, List.orderedInsert_eq_take_drop]
  -- stability: only items with a smaller key come before it
  have smaller : ∀ earlier ∈ (sortOn key items).takeWhile (fun other => ¬ key item ≤ key other),
      key earlier ≠ key item := by
    intro earlier member same
    have above := List.all_eq_true.mp List.all_takeWhile earlier member
    simp [same] at above
  cases before : (sortOn key items).takeWhile (fun other => ¬ key item ≤ key other) with
  | nil => exact List.mem_destutter' _ _ item
  | cons first before' =>
    rw [before] at smaller
    exact mem_destutter'_of_new smaller

/-- Where a key names one item, sorting and keeping the first depends only on which items there are. -/
theorem sortDedup_eq_of_mem_iff {key : α → κ} {items others : List α}
    (functional : ∀ left ∈ items, ∀ right ∈ items, key left = key right → left = right)
    (same : ∀ item, item ∈ items ↔ item ∈ others) : sortDedup key items = sortDedup key others := by
  have whole : ∀ {list : List α}, (∀ item, item ∈ items ↔ item ∈ list) →
      ∀ item, item ∈ sortDedup key list ↔ item ∈ items := by
    intro list agree item
    refine ⟨fun member => (agree item).mpr (mem_of_mem_sortDedup member), fun member => ?_⟩
    obtain ⟨kept, keptMember, keyIs⟩ := @exists_mem_sortDedup _ _ _ key _ _ ((agree item).mp member)
    rwa [← functional kept ((agree kept).mpr (mem_of_mem_sortDedup keptMember)) item member keyIs]
  have nodup : ∀ list : List α, (sortDedup key list).Nodup :=
    fun list => (sortDedup_strict key list).imp fun less same => less.ne (congrArg key same)
  refine List.Perm.eq_of_pairwise ?_ (sortDedup_strict key items) (sortDedup_strict key others)
    ((List.perm_ext_iff_of_nodup (nodup items) (nodup others)).mpr fun item => ?_)
  · intro left right _ _ less more
    exact absurd (less.trans more) (lt_irrefl _)
  · rw [whole (fun _ => Iff.rfl), whole same]

/-- Lists with the same keys up to order agree up to order in whatever the key determines. -/
theorem perm_map_of_perm_keys {γ : Type*} {key : α → β} {content : α → γ} {items others : List α}
    (determines : ∀ item ∈ items, ∀ other ∈ others, key item = key other → content item = content other)
    (perm : (items.map key).Perm (others.map key)) : (items.map content).Perm (others.map content) := by
  induction items generalizing others with
  | nil =>
    have empty : others = [] := by simpa using perm.symm.eq_nil
    rw [empty]
  | cons item items inductionHypothesis =>
    obtain ⟨here, later⟩ := List.forall_mem_cons.mp determines
    have present : key item ∈ others.map key := perm.subset List.mem_cons_self
    obtain ⟨other, otherMember, same⟩ := List.mem_map.mp present
    -- Take the partner of the first item out of the other list and go on with the rest.
    obtain ⟨before, after, rfl⟩ := List.append_of_mem otherMember
    have rest : (items.map key).Perm ((before ++ after).map key) := by
      have moved : ((before ++ other :: after).map key).Perm (key other :: (before ++ after).map key) := by
        simp
      rw [List.map_cons, ← same] at perm
      exact (perm.trans moved).cons_inv
    have restContent := inductionHypothesis (fun item member other otherMember =>
      later item member other (by
        simp only [List.mem_append, List.mem_cons] at otherMember ⊢
        tauto)) rest
    have contents : content item = content other := here other (by simp) same.symm
    rw [List.map_cons, List.map_append, List.map_cons, contents]
    refine (restContent.cons _).trans ?_
    rw [List.map_append]
    exact List.perm_middle.symm

end ProofEngine.StableSort
