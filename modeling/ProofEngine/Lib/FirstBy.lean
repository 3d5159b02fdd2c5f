import Mathlib.Data.List.Induction
import Mathlib.Data.List.Nodup

/-! # The first under each key

A table that is filled in order and never overwritten: of the items with one key it keeps the first. -/

namespace ProofEngine.FirstBy

variable {α β κ : Type*} [DecidableEq κ]

/-- Adds an item unless its key is taken. -/
def insertNew (key : α → κ) (kept : List α) (item : α) : List α :=
  if key item ∈ kept.map key then kept else kept ++ [item]

/-- The table after these items. -/
def firstBy (key : α → κ) (items : List α) : List α := items.foldl (insertNew key) []

variable {key : α → κ} {items others kept : List α} {item : α}

theorem insertNew_of_mem (taken : key item ∈ kept.map key) : insertNew key kept item = kept := if_pos taken

theorem insertNew_of_notMem (free : key item ∉ kept.map key) : insertNew key kept item = kept ++ [item] :=
  if_neg free

theorem firstBy_append (key : α → κ) (items others : List α) :
    firstBy key (items ++ others) = others.foldl (insertNew key) (firstBy key items) :=
  List.foldl_append

theorem firstBy_concat (key : α → κ) (items : List α) (item : α) :
    firstBy key (items ++ [item]) = insertNew key (firstBy key items) item :=
  firstBy_append key items [item]

/-- What is kept was given. -/
theorem mem_of_mem_firstBy (member : item ∈ firstBy key items) : item ∈ items := by
  induction items using List.reverseRecOn with
  | nil => cases member
  | append_singleton items last inductionHypothesis =>
    rw [firstBy_concat, insertNew] at member
    split at member
    · exact List.mem_append_left _ (inductionHypothesis member)
    · rcases List.mem_append.mp member with earlier | here
      · exact List.mem_append_left _ (inductionHypothesis earlier)
      · exact List.mem_append_right _ here

/-- Every key that was given is kept. -/
theorem mem_keys {k : κ} : k ∈ (firstBy key items).map key ↔ k ∈ items.map key := by
  induction items using List.reverseRecOn with
  | nil => rfl
  | append_singleton items last inductionHypothesis =>
    rw [firstBy_concat, List.map_append, List.mem_append, ← inductionHypothesis, List.map_singleton, List.mem_singleton]
    by_cases taken : key last ∈ (firstBy key items).map key
    · rw [insertNew_of_mem taken]
      constructor
      · exact .inl
      · rintro (earlier | rfl)
        · exact earlier
        · exact taken
    · rw [insertNew_of_notMem taken, List.map_append, List.mem_append, List.map_singleton, List.mem_singleton]

theorem exists_mem_firstBy (member : item ∈ items) : ∃ first ∈ firstBy key items, key first = key item :=
  List.mem_map.mp (mem_keys.mpr (List.mem_map_of_mem member))

/-- No key is kept twice. -/
theorem nodup_keys (key : α → κ) (items : List α) : ((firstBy key items).map key).Nodup := by
  induction items using List.reverseRecOn with
  | nil => exact List.nodup_nil
  | append_singleton items last inductionHypothesis =>
    rw [firstBy_concat]
    by_cases taken : key last ∈ (firstBy key items).map key
    · rwa [insertNew_of_mem taken]
    · rw [insertNew_of_notMem taken, List.map_append, List.map_singleton, ← List.concat_eq_append]
      exact inductionHypothesis.concat taken

/-- Where a key names one item, all items are kept. -/
theorem mem_firstBy (determined : ∀ left ∈ items, ∀ right ∈ items, key left = key right → left = right) :
    item ∈ firstBy key items ↔ item ∈ items := by
  constructor
  · exact mem_of_mem_firstBy
  · intro member
    obtain ⟨first, kept, same⟩ := @exists_mem_firstBy _ _ _ key _ _ member
    rwa [determined first (mem_of_mem_firstBy kept) item member same] at kept

/-- Lists with the same keys keep the same items, where a key names one item. -/
theorem firstBy_perm (determined : ∀ left ∈ items, ∀ right ∈ others, key left = key right → left = right)
    (sameKeys : ∀ k, k ∈ items.map key ↔ k ∈ others.map key) : (firstBy key items).Perm (firstBy key others) := by
  have within : ∀ {left right : List α}, (∀ first ∈ left, ∀ second ∈ right, key first = key second → first = second) →
      (∀ k ∈ left.map key, k ∈ right.map key) → ∀ item ∈ firstBy key left, item ∈ firstBy key right := by
    intro left right determined keys item member
    have given := mem_of_mem_firstBy member
    have there := mem_keys.mpr (keys _ (List.mem_map_of_mem given))
    obtain ⟨first, kept, same⟩ := List.mem_map.mp there
    rwa [determined item given first (mem_of_mem_firstBy kept) same.symm]
  refine (List.perm_ext_iff_of_nodup (.of_map key (nodup_keys key items)) (.of_map key (nodup_keys key others))).mpr ?_
  intro item
  constructor
  · exact within determined (fun k => (sameKeys k).mp) item
  · exact within (fun first member second other same => (determined second other first member same.symm).symm)
      (fun k => (sameKeys k).mpr) item

theorem insertNew_map (image : β → α) (kept : List β) (item : β) :
    insertNew key (kept.map image) (image item) = (insertNew (key ∘ image) kept item).map image := by
  rw [insertNew, insertNew, List.map_map]
  by_cases taken : (key ∘ image) item ∈ kept.map (key ∘ image)
  · rw [if_pos taken]
    exact if_pos taken
  · rw [if_neg taken, List.map_append]
    exact if_neg taken

/-- The images under one key are kept as what they are images of. -/
theorem firstBy_map (image : β → α) (items : List β) :
    firstBy key (items.map image) = (firstBy (key ∘ image) items).map image := by
  induction items using List.reverseRecOn with
  | nil => rfl
  | append_singleton items last inductionHypothesis =>
    rw [List.map_append, List.map_singleton, firstBy_concat, firstBy_concat, inductionHypothesis, insertNew_map]

end ProofEngine.FirstBy
