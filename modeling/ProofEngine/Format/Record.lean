import ProofEngine.Format.CborRoundTrip
import ProofEngine.Format.Schema

/-! # Closed records

A record is a map with fixed text keys.  Parsers look every field up and reject keys they
do not know; on input in canonical order that pins the whole map down
(`sortMaps_record_of_fields`).  The other direction, looking fields up in a record that was
sorted, is `findField_sortMaps_record`. -/

namespace ProofEngine

open StableSort Text CborValue

/-! ## Looking fields up -/

theorem isKey_iff {key : String} {value : CborValue} : isKey key value = true ↔ value = .text key := by
  cases value <;> simp [isKey]

theorem mem_of_findField {entries : Entries} {key : String} {value : CborValue}
    (found : findField entries key = some value) : (CborValue.text key, value) ∈ entries := by
  simp only [findField, Option.map_eq_some_iff] at found
  obtain ⟨⟨entryKey, entryValue⟩, entryFound, rfl⟩ := found
  -- the search returns an entry with this key
  have isIt : isKey key entryKey = true := by simpa using List.find?_some entryFound
  have member := List.mem_of_find?_eq_some entryFound
  rwa [isKey_iff.mp isIt] at member

/-- No two entries have the same text key. -/
def UniqueKeys (entries : Entries) : Prop :=
  entries.Pairwise fun left right => left.1 ≠ right.1

theorem findField_of_mem {entries : Entries} {key : String} {value : CborValue}
    (unique : UniqueKeys entries) (member : (CborValue.text key, value) ∈ entries) :
    findField entries key = some value := by
  induction entries with
  | nil => cases member
  | cons entry entries inductionHypothesis =>
    obtain ⟨different, restUnique⟩ := List.pairwise_cons.mp unique
    cases member with
    | head => simp [findField, isKey]
    | tail _ member =>
      have other : isKey key entry.1 = false := by
        rw [Bool.eq_false_iff, ne_eq, isKey_iff]
        exact different _ member
      have rest := inductionHypothesis restUnique member
      simpa [findField, other] using rest

theorem findField_eq_none {entries : Entries} {key : String} :
    findField entries key = none ↔ ∀ entry ∈ entries, entry.1 ≠ .text key := by
  simp [findField, isKey_iff]

theorem Ascending.uniqueKeys {entries : Entries} (ascending : Ascending entries) : UniqueKeys entries :=
  ascending.imp fun less same => less.ne (by rw [same])

/-! ## Field parsers read backwards -/

section
variable {entries : Entries} {key : String}

/-- The length rule of every text field. -/
def BoundedText (s : String) : Prop := s.isEmpty = false ∧ len s ≤ 1024

instance (s : String) : Decidable (BoundedText s) := inferInstanceAs (Decidable (_ ∧ _))

theorem not_outOfBounds {s : String} : ¬ (s.isEmpty || decide (1024 < len s)) = true ↔ BoundedText s := by
  simp [BoundedText]

theorem requireField_eq_ok {value : CborValue} :
    requireField entries key = .ok value ↔ findField entries key = some value := by
  unfold requireField
  cases findField entries key <;> simp [schemaError]

theorem textField_eq_ok {s : String} :
    textField entries key = .ok s ↔ findField entries key = some (.text s) ∧ BoundedText s := by
  simp only [textField, bind_eq_ok, requireField_eq_ok]
  constructor
  · rintro ⟨value, found, done⟩
    cases value with
    | text t =>
      simp only at done
      split at done
      · contradiction
      · rename_i bounded
        cases done
        exact ⟨found, not_outOfBounds.mp bounded⟩
    | _ => contradiction
  · rintro ⟨found, bounded⟩
    exact ⟨.text s, found, if_neg (not_outOfBounds.mpr bounded)⟩

theorem uintField_eq_ok {n : UInt64} :
    uintField entries key = .ok n ↔ findField entries key = some (.uint n) := by
  simp only [uintField, bind_eq_ok, requireField_eq_ok]
  constructor
  · rintro ⟨value, found, done⟩
    cases value with
    | uint m =>
      cases done
      exact found
    | _ => contradiction
  · intro found
    exact ⟨.uint n, found, rfl⟩

theorem optTextOrNil_eq_ok {optional : Option String} :
    optTextOrNil entries key = .ok optional ↔
      findField entries key = some (textOrNil optional) ∧ ∀ s ∈ optional, BoundedText s := by
  simp only [optTextOrNil, bind_eq_ok, requireField_eq_ok]
  constructor
  · rintro ⟨value, found, done⟩
    cases value with
    | null =>
      cases done
      exact ⟨found, by simp⟩
    | text t =>
      simp only at done
      split at done
      · contradiction
      · rename_i bounded
        cases done
        exact ⟨found, by simpa using not_outOfBounds.mp bounded⟩
    | _ => contradiction
  · rintro ⟨found, bounded⟩
    cases optional with
    | none => exact ⟨.null, found, rfl⟩
    | some s => exact ⟨.text s, found, if_neg (not_outOfBounds.mpr (bounded s rfl))⟩

/-- A reference is bounded text of its own kind. -/
def BoundedRef (lead : String) (optional : Option String) : Prop :=
  ∀ s ∈ optional, BoundedText s ∧ startsWith s lead = true

theorem optRefOrNil_eq_ok {lead : String} {optional : Option String} :
    optRefOrNil entries key lead = .ok optional ↔
      findField entries key = some (textOrNil optional) ∧ BoundedRef lead optional := by
  simp only [optRefOrNil, bind_eq_ok, optTextOrNil_eq_ok]
  constructor
  · rintro ⟨value, ⟨found, bounded⟩, done⟩
    cases value with
    | none =>
      cases done
      exact ⟨found, by simp [BoundedRef]⟩
    | some s =>
      simp only at done
      split at done
      · rename_i starts
        cases done
        refine ⟨found, ?_⟩
        intro t member
        cases member
        exact ⟨bounded s rfl, starts⟩
      · contradiction
  · rintro ⟨found, bounded⟩
    cases optional with
    | none => exact ⟨none, ⟨found, by simp⟩, rfl⟩
    | some s =>
      refine ⟨some s, ⟨found, fun t member => (bounded t member).1⟩, ?_⟩
      simp only
      rw [if_pos (bounded s rfl).2]

theorem optUintOrNil_eq_ok {optional : Option UInt64} :
    optUintOrNil entries key = .ok optional ↔ findField entries key = some (uintOrNil optional) := by
  simp only [optUintOrNil, bind_eq_ok, requireField_eq_ok]
  constructor
  · rintro ⟨value, found, done⟩
    cases value with
    | null =>
      cases done
      exact found
    | uint m =>
      cases done
      exact found
    | _ => contradiction
  · intro found
    cases optional with
    | none => exact ⟨.null, found, rfl⟩
    | some n => exact ⟨.uint n, found, rfl⟩

theorem checkVersion_eq_ok {nothing : Unit} :
    checkVersion entries = .ok nothing ↔ findField entries "v" = some (.uint 1) := by
  simp only [checkVersion, bind_eq_ok, requireField_eq_ok]
  constructor
  · rintro ⟨value, found, done⟩
    cases value with
    | uint n =>
      simp only at done
      split at done
      · rename_i one
        rw [← one]
        exact found
      · contradiction
    | _ => contradiction
  · intro found
    exact ⟨.uint 1, found, rfl⟩

theorem checkClosed_eq_ok {allowed : List String} {what : String} {nothing : Unit} :
    checkClosed allowed what entries = .ok nothing ↔
      ∀ entry ∈ entries, ∃ key ∈ allowed, entry.1 = .text key := by
  induction entries with
  | nil => simp [checkClosed]
  | cons entry entries inductionHypothesis =>
    obtain ⟨entryKey, value⟩ := entry
    cases entryKey with
    | text text =>
      by_cases known : text ∈ allowed <;>
        simp [checkClosed, known, inductionHypothesis, schemaError]
    | _ => simp [checkClosed, schemaError]

theorem memberMap_eq_ok {what : String} {limits : Limits} {value : CborValue} :
    memberMap what limits value = .ok entries ↔
      value = .map entries ∧ entries.length ≤ limits.maxMapEntries.toNat := by
  cases value with
  | map pairs =>
    by_cases large : limits.maxMapEntries.toNat < pairs.length
    · simp only [memberMap, large, if_true, limitError, CborValue.map.injEq]
      constructor
      · intro done
        contradiction
      · rintro ⟨rfl, small⟩
        omega
    · simp only [memberMap, large, if_false, Except.ok.injEq, CborValue.map.injEq]
      constructor
      · rintro rfl
        exact ⟨rfl, by omega⟩
      · rintro ⟨rfl, _⟩
        rfl
  | _ => simp [memberMap, schemaError]

end

/-! ## Records -/

theorem sortMaps_record (fields : List (String × CborValue)) :
    (record fields).sortMaps = .map (sortOn (fun entry => encodeCanonical entry.1)
      (fields.map fun field => (.text field.1, field.2.sortMaps))) := by
  rw [record, sortMaps_map, List.map_map]
  rfl

section
variable {fields : List (String × CborValue)} {entries : Entries} (names : List String)

theorem uniqueKeys_record (keys : fields.map Prod.fst = names) (distinct : names.Nodup) :
    UniqueKeys (fields.map fun field => (CborValue.text field.1, field.2.sortMaps)) := by
  rw [← keys] at distinct
  refine List.pairwise_map.mpr ((List.pairwise_map.mp distinct).imp ?_)
  intro left right different same
  exact different (CborValue.text.inj same)

theorem uniqueKeys_sortMaps_record (sorted : (record fields).sortMaps = .map entries)
    (keys : fields.map Prod.fst = names) (distinct : names.Nodup) : UniqueKeys entries := by
  rw [sortMaps_record, CborValue.map.injEq] at sorted
  rw [← sorted]
  exact ((sortOn_perm _ _).pairwise_iff (fun different => Ne.symm different)).mpr
    (uniqueKeys_record names keys distinct)

/-- Fields of a sorted record are those of the record, sorted. -/
theorem findField_sortMaps_record (sorted : (record fields).sortMaps = .map entries)
    (keys : fields.map Prod.fst = names) (distinct : names.Nodup) :
    ∀ field ∈ fields, findField entries field.1 = some field.2.sortMaps := by
  intro field member
  refine findField_of_mem (uniqueKeys_sortMaps_record names sorted keys distinct) ?_
  rw [sortMaps_record, CborValue.map.injEq] at sorted
  rw [← sorted, mem_sortOn]
  exact List.mem_map.mpr ⟨field, member, rfl⟩

theorem findField_sortMaps_record_none (sorted : (record fields).sortMaps = .map entries)
    (keys : fields.map Prod.fst = names) {key : String} (absent : key ∉ names) :
    findField entries key = none := by
  rw [sortMaps_record, CborValue.map.injEq] at sorted
  rw [findField_eq_none, ← sorted]
  intro entry member same
  obtain ⟨field, fieldMember, rfl⟩ := List.mem_map.mp (mem_sortOn.mp member)
  cases same
  exact absent (keys ▸ List.mem_map_of_mem fieldMember)

theorem closed_sortMaps_record (sorted : (record fields).sortMaps = .map entries)
    (keys : fields.map Prod.fst = names) : ∀ entry ∈ entries, ∃ key ∈ names, entry.1 = .text key := by
  rw [sortMaps_record, CborValue.map.injEq] at sorted
  rw [← sorted]
  intro entry member
  obtain ⟨field, fieldMember, rfl⟩ := List.mem_map.mp (mem_sortOn.mp member)
  exact ⟨field.1, keys ▸ List.mem_map_of_mem fieldMember, rfl⟩

/-- A sorted record as a parser sees it. -/
theorem sortMaps_record_entries (keys : fields.map Prod.fst = names) (distinct : names.Nodup) :
    ∃ entries, (record fields).sortMaps = .map entries ∧ entries.length = names.length ∧
      UniqueKeys entries ∧ (∀ entry ∈ entries, ∃ key ∈ names, entry.1 = .text key) ∧
      ∀ field ∈ fields, findField entries field.1 = some field.2.sortMaps := by
  have sorted := sortMaps_record fields
  refine ⟨_, sorted, ?_, uniqueKeys_sortMaps_record names sorted keys distinct,
    closed_sortMaps_record names sorted keys, findField_sortMaps_record names sorted keys distinct⟩
  simp [← keys]

/-- A closed map in canonical order is the record of its fields. -/
theorem sortMaps_record_of_fields (ascending : Ascending entries)
    (keys : fields.map Prod.fst = names) (distinct : names.Nodup)
    (closed : ∀ entry ∈ entries, ∃ key ∈ names, entry.1 = .text key)
    (found : ∀ field ∈ fields, findField entries field.1 = some field.2.sortMaps) :
    (record fields).sortMaps = .map entries := by
  -- every field is found in the map, and the map has no other keys
  have present : ∀ entry, entry ∈ fields.map (fun field => (CborValue.text field.1, field.2.sortMaps)) ↔
      entry ∈ entries := by
    intro entry
    constructor
    · intro member
      obtain ⟨field, fieldMember, rfl⟩ := List.mem_map.mp member
      exact mem_of_findField (found field fieldMember)
    · intro member
      obtain ⟨key, keyMember, entryKey⟩ := closed entry member
      rw [← keys] at keyMember
      obtain ⟨field, fieldMember, rfl⟩ := List.mem_map.mp keyMember
      have here : findField entries field.1 = some entry.2 :=
        findField_of_mem ascending.uniqueKeys (by rw [← entryKey]; exact member)
      have same : entry.2 = field.2.sortMaps :=
        Option.some.inj (here.symm.trans (found field fieldMember))
      exact List.mem_map.mpr ⟨field, fieldMember, Prod.ext entryKey.symm same.symm⟩
  -- the same entries without repetition, so the same up to order; sorting settles the order
  have perm : (fields.map fun field => (CborValue.text field.1, field.2.sortMaps)).Perm entries :=
    (List.perm_ext_iff_of_nodup
      ((uniqueKeys_record names keys distinct).imp fun different same => different (by rw [same]))
      (ascending.uniqueKeys.imp fun different same => different (by rw [same]))).mpr present
  rw [sortMaps_record, sortOn_eq_of_strict ascending perm]

end

end ProofEngine
