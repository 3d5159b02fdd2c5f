import ProofEngine.Format.Record

/-! # Member schemas

For every member schema two lemmas about canonical values: what the parser accepts is the
sorted encoding of what it returns, and the sorted encoding of an admissible member is
parsed back to it.  The bounds a parser checks are collected in `Bounded` structures. -/

namespace ProofEngine

open StableSort Text CborValue

/-! ## Metadata, context and claim fields -/

/-- The length rule of a text value. -/
def MetaValue.Bounded : MetaValue → Prop
  | .text s => len s ≤ 1024
  | _ => True

theorem metaValueFromCbor_eq_ok {value : CborValue} {parsed : MetaValue} :
    metaValueFromCbor value = .ok parsed ↔ value = metaValueToCbor parsed ∧ parsed.Bounded := by
  cases value with
  | text s =>
    by_cases long : 1024 < len s
    · simp only [metaValueFromCbor, long, if_true, schemaError]
      constructor
      · intro done
        contradiction
      · rintro ⟨same, bounded⟩
        cases parsed with
        | text t =>
          cases same
          simp only [MetaValue.Bounded] at bounded
          omega
        | _ => cases same
    · simp only [metaValueFromCbor, long, if_false, Except.ok.injEq]
      constructor
      · rintro rfl
        exact ⟨rfl, not_lt.mp long⟩
      · rintro ⟨same, _⟩
        cases parsed with
        | text t =>
          cases same
          rfl
        | _ => cases same
  | uint n => cases parsed <;> simp [metaValueFromCbor, metaValueToCbor, MetaValue.Bounded]
  | bool b => cases parsed <;> simp [metaValueFromCbor, metaValueToCbor, MetaValue.Bounded]
  | _ => cases parsed <;> simp [metaValueFromCbor, metaValueToCbor, schemaError]

/-- Entries as they stand in a map. -/
def metaEntries (entries : List (String × MetaValue)) : Entries :=
  entries.map fun entry => (.text entry.1, metaValueToCbor entry.2)

theorem record_metaToFields (entries : List (String × MetaValue)) :
    record (metaToFields entries) = .map (metaEntries entries) := by
  simp [record, metaToFields, metaEntries]

theorem sortMaps_metaValueToCbor (value : MetaValue) : (metaValueToCbor value).sortMaps = metaValueToCbor value := by
  cases value <;> rfl

theorem metaFromEntries_cons {what : String} {seen : List String} {key : String} {value : CborValue}
    {entries : Entries} {parsed : List (String × MetaValue)} :
    metaFromEntries what seen ((.text key, value) :: entries) = .ok parsed ↔
      len key ≤ 64 ∧ key ∉ seen ∧ ∃ first others, value = metaValueToCbor first ∧ first.Bounded ∧
        metaFromEntries what (key :: seen) entries = .ok others ∧ parsed = (key, first) :: others := by
  by_cases bad : (decide (64 < len key) || seen.contains key) = true
  · rw [metaFromEntries, if_pos bad]
    simp only [Bool.or_eq_true, decide_eq_true_eq, List.contains_iff_mem] at bad
    constructor
    · intro done
      contradiction
    · rintro ⟨short, fresh, _⟩
      rcases bad with long | repeated
      · omega
      · exact absurd repeated fresh
  · rw [metaFromEntries, if_neg bad]
    simp only [Bool.or_eq_true, decide_eq_true_eq, List.contains_iff_mem, not_or, not_lt] at bad
    simp only [bind_eq_ok, metaValueFromCbor_eq_ok]
    constructor
    · rintro ⟨first, ⟨same, bounded⟩, others, othersDone, done⟩
      cases done
      exact ⟨bad.1, bad.2, first, others, same, bounded, othersDone, rfl⟩
    · rintro ⟨_, _, first, others, same, bounded, othersDone, rfl⟩
      exact ⟨first, ⟨same, bounded⟩, others, othersDone, rfl⟩

theorem metaFromEntries_eq_ok {what : String} {seen : List String} {entries : Entries}
    {parsed : List (String × MetaValue)} :
    metaFromEntries what seen entries = .ok parsed ↔
      entries = metaEntries parsed ∧ (∀ entry ∈ parsed, len entry.1 ≤ 64 ∧ entry.2.Bounded) ∧
        (parsed.map Prod.fst).Nodup ∧ ∀ entry ∈ parsed, entry.1 ∉ seen := by
  -- the list of keys seen grows along the entries
  induction entries generalizing seen parsed with
  | nil => cases parsed <;> simp [metaFromEntries, metaEntries]
  | cons entry entries inductionHypothesis =>
    obtain ⟨entryKey, value⟩ := entry
    cases entryKey with
    | text key =>
      rw [metaFromEntries_cons]
      constructor
      · rintro ⟨short, fresh, first, others, rfl, firstBounded, othersDone, rfl⟩
        obtain ⟨rfl, bounded, distinct, unseen⟩ := inductionHypothesis.mp othersDone
        refine ⟨rfl, List.forall_mem_cons.mpr ⟨⟨short, firstBounded⟩, bounded⟩, ?_, ?_⟩
        · refine List.nodup_cons.mpr ⟨fun repeated => ?_, distinct⟩
          obtain ⟨entry, member, same⟩ := List.mem_map.mp repeated
          exact unseen entry member (by rw [same]; exact List.mem_cons_self)
        · refine List.forall_mem_cons.mpr ⟨fresh, fun entry member repeated => ?_⟩
          exact unseen entry member (List.mem_cons_of_mem _ repeated)
      · rintro ⟨same, bounded, distinct, unseen⟩
        cases parsed with
        | nil => simp [metaEntries] at same
        | cons first parsed =>
          simp only [metaEntries, List.map_cons, List.cons.injEq, Prod.mk.injEq,
            CborValue.text.injEq] at same
          obtain ⟨⟨rfl, rfl⟩, rfl⟩ := same
          obtain ⟨firstBounded, restBounded⟩ := List.forall_mem_cons.mp bounded
          obtain ⟨firstFresh, restDistinct⟩ := List.nodup_cons.mp distinct
          obtain ⟨unseenFirst, unseenRest⟩ := List.forall_mem_cons.mp unseen
          refine ⟨firstBounded.1, unseenFirst, first.2, parsed, rfl, firstBounded.2,
            inductionHypothesis.mpr ⟨rfl, restBounded, restDistinct, ?_⟩, rfl⟩
          intro entry member repeated
          rcases List.mem_cons.mp repeated with same | repeated
          · exact firstFresh (same ▸ List.mem_map_of_mem member)
          · exact unseenRest entry member repeated
    | _ => cases parsed <;> simp [metaFromEntries, schemaError, metaEntries]

/-- The bounds on metadata and context. -/
structure BoundedMeta (entries : List (String × MetaValue)) : Prop where
  count : entries.length ≤ 16
  each : ∀ entry ∈ entries, len entry.1 ≤ 64 ∧ entry.2.Bounded
  distinct : (entries.map Prod.fst).Nodup

theorem metaField_eq_ok {entries : Entries} {what : String} {parsed : List (String × MetaValue)} :
    metaField entries what = .ok parsed ↔
      findField entries what = some (record (metaToFields parsed)) ∧ BoundedMeta parsed := by
  simp only [metaField, bind_eq_ok, requireField_eq_ok, record_metaToFields]
  constructor
  · rintro ⟨value, found, done⟩
    cases value with
    | map pairs =>
      simp only at done
      split at done
      · contradiction
      · rename_i small
        obtain ⟨rfl, each, distinct, _⟩ := metaFromEntries_eq_ok.mp done
        exact ⟨found, by simpa [metaEntries] using small, each, distinct⟩
    | _ => contradiction
  · rintro ⟨found, bounded⟩
    refine ⟨_, found, ?_⟩
    have small : ¬ 16 < (metaEntries parsed).length := by
      simpa [metaEntries] using bounded.count
    simp only [small, if_false]
    exact metaFromEntries_eq_ok.mpr ⟨rfl, bounded.each, bounded.distinct, by simp⟩

/-- Keys in the order of their encodings. -/
def OrderedMeta (entries : List (String × MetaValue)) : Prop :=
  entries.Pairwise fun left right =>
    encodeCanonical (.text left.1) < encodeCanonical (.text right.1)

theorem map_sortMaps_metaToFields (entries : List (String × MetaValue)) :
    (metaToFields entries).map (fun field => (CborValue.text field.1, field.2.sortMaps)) = metaEntries entries := by
  simp [metaToFields, metaEntries, sortMaps_metaValueToCbor]

theorem sortMaps_metaToFields {entries : List (String × MetaValue)} (ordered : OrderedMeta entries) :
    (record (metaToFields entries)).sortMaps = record (metaToFields entries) := by
  rw [sortMaps_record, map_sortMaps_metaToFields, record_metaToFields, sortOn_of_strict]
  exact List.pairwise_map.mpr ordered

/-! ## Hash references -/

/-- What `HashRef::new` guarantees. -/
structure HashRef.Bounded (hash : HashRef) : Prop where
  version : hash.v = 1
  length : hash.digest.length = hash.alg.digestLen

theorem hashRefNew_eq_ok {alg : HashAlgorithm} {digest : Bytes} {hash : HashRef} :
    HashRef.new alg digest = .ok hash ↔ hash.alg = alg ∧ hash.digest = digest ∧ hash.Bounded := by
  simp only [HashRef.new]
  split
  · rename_i wrong
    constructor
    · intro done
      contradiction
    · rintro ⟨rfl, rfl, bounded⟩
      exact absurd bounded.length wrong
  · rename_i right
    constructor
    · intro done
      cases done
      exact ⟨rfl, rfl, rfl, not_not.mp right⟩
    · rintro ⟨rfl, rfl, bounded⟩
      rw [← bounded.version]

theorem findDigest_eq_some {entries : Entries} (unique : UniqueKeys entries) {digest : Bytes} :
    findDigest entries = some digest ↔ findField entries "digest" = some (.bytes digest) := by
  -- the scan takes the first entry that fits, and unique keys leave one
  have sound : ∀ found, findDigest entries = some found →
      findField entries "digest" = some (.bytes found) := by
    intro found done
    obtain ⟨entry, member, here⟩ := List.exists_of_findSome?_eq_some done
    obtain ⟨key, value⟩ := entry
    simp only at here
    split at here
    · rename_i isDigest
      rw [isKey_iff] at isDigest
      split at here
      · rename_i b
        cases here
        cases isDigest
        exact findField_of_mem unique member
      · contradiction
    · contradiction
  refine ⟨sound digest, fun found => ?_⟩
  have member := mem_of_findField found
  cases result : findDigest entries with
  | none =>
    have nowhere := List.findSome?_eq_none_iff.mp result _ member
    simp [isKey] at nowhere
  | some other =>
    have same := (sound other result).symm.trans found
    cases same
    rfl

theorem hashrefFromCbor_bounded {value : CborValue} {hash : HashRef}
    (done : hashrefFromCbor value = .ok hash) : hash.Bounded := by
  cases value with
  | map entries =>
    simp only [hashrefFromCbor, bind_eq_ok] at done
    obtain ⟨_, _, _, _, _, _, alg, _, done⟩ := done
    split at done
    · exact (hashRefNew_eq_ok.mp done).2.2
    · contradiction
  | _ => contradiction

section
variable {limits : Limits}

theorem Canonical.ascending {entries : Entries} (canonical : Canonical limits (.map entries)) :
    Ascending entries :=
  ascending_of_distinct canonical.self.ordered canonical.self.distinct

/-- A field of a canonical map is canonical, so sorting does not change it. -/
theorem Canonical.findField {entries : Entries} (canonical : Canonical limits (.map entries))
    {key : String} {value : CborValue} (found : findField entries key = some value) :
    Canonical limits value :=
  ((everywhere_map.mp canonical).2 _ (mem_of_findField found)).2

theorem Canonical.findField_sortMaps {entries : Entries} (canonical : Canonical limits (.map entries))
    {key : String} {value : CborValue} (found : ProofEngine.findField entries key = some value) :
    ProofEngine.findField entries key = some value.sortMaps := by
  rw [(canonical.findField found).sortMaps_eq, found]

theorem hashrefFromCbor_canonical {value : CborValue} (canonical : Canonical limits value)
    {hash : HashRef} (done : hashrefFromCbor value = .ok hash) : (hashrefToCbor hash).sortMaps = value := by
  have bounded := hashrefFromCbor_bounded done
  cases value with
  | map entries =>
    simp only [hashrefFromCbor, bind_eq_ok, checkClosed_eq_ok, checkVersion_eq_ok, uintField_eq_ok,
      HashAlgorithm.fromCborEnum_eq_ok] at done
    obtain ⟨_, closed, _, version, _, algFound, alg, rfl, done⟩ := done
    split at done
    · rename_i digest digestFound
      obtain ⟨rfl, rfl, _⟩ := hashRefNew_eq_ok.mp done
      rw [findDigest_eq_some canonical.ascending.uniqueKeys] at digestFound
      have closed : ∀ entry ∈ entries, ∃ key ∈ ["alg", "digest", "v"], entry.1 = .text key := by
        intro entry member
        obtain ⟨key, known, same⟩ := closed entry member
        exact ⟨key, by revert known; simp; tauto, same⟩
      refine sortMaps_record_of_fields ["alg", "digest", "v"] canonical.ascending rfl (by decide) closed ?_
      simp only [List.forall_mem_cons, List.not_mem_nil, false_implies, implies_true, and_true]
      refine ⟨algFound, digestFound, ?_⟩
      rw [bounded.version]
      exact version
    · contradiction
  | _ => contradiction

theorem hashrefFromCbor_sortMaps {hash : HashRef} (bounded : hash.Bounded) :
    hashrefFromCbor (hashrefToCbor hash).sortMaps = .ok hash := by
  obtain ⟨entries, sorted, _, unique, closed, found⟩ : ∃ entries,
      (hashrefToCbor hash).sortMaps = .map entries ∧ _ :=
    sortMaps_record_entries ["alg", "digest", "v"] rfl (by decide)
  simp only [List.forall_mem_cons, List.not_mem_nil, false_implies, implies_true, and_true,
    bounded.version] at found
  obtain ⟨algFound, digestFound, version⟩ := found
  -- a record has its own keys and no others
  have known : ∀ entry ∈ entries, ∃ key ∈ ["v", "alg", "digest"], entry.1 = .text key := by
    intro entry member
    obtain ⟨key, known, same⟩ := closed entry member
    exact ⟨key, by revert known; simp; tauto, same⟩
  rw [sorted, hashrefFromCbor]
  simp only [bind_eq_ok]
  refine ⟨(), checkClosed_eq_ok.mpr known, (), checkVersion_eq_ok.mpr version, _,
    uintField_eq_ok.mpr algFound, _, HashAlgorithm.fromCborEnum_eq_ok.mpr rfl, ?_⟩
  rw [(findDigest_eq_some unique).mpr digestFound]
  exact hashRefNew_eq_ok.mpr ⟨rfl, rfl, bounded⟩

/-! ## Claims -/

/-- The bounds on a claim; the size counts the type entry. -/
structure Claim.Bounded (claim : Claim) : Prop where
  typeText : claim.claimType.isEmpty = false ∧ len claim.claimType ≤ 128
  count : claim.fields.length + 1 ≤ 16
  each : ∀ field ∈ claim.fields, field.1 ≠ "type" ∧ field.2.Bounded
  distinct : (claim.fields.map Prod.fst).Nodup

theorem claimTypeFromCbor_eq_ok {value : CborValue} {s : String} :
    claimTypeFromCbor value = .ok s ↔ value = .text s ∧ s.isEmpty = false ∧ len s ≤ 128 := by
  cases value with
  | text t =>
    by_cases bad : (t.isEmpty || decide (128 < len t)) = true
    · rw [claimTypeFromCbor, if_pos bad]
      simp only [Bool.or_eq_true, decide_eq_true_eq] at bad
      constructor
      · intro done
        contradiction
      · rintro ⟨same, nonempty, short⟩
        cases same
        rcases bad with empty | long
        · rw [nonempty] at empty
          contradiction
        · omega
    · rw [claimTypeFromCbor, if_neg bad]
      simp only [Bool.or_eq_true, decide_eq_true_eq, not_or, not_lt, Bool.not_eq_true] at bad
      constructor
      · intro done
        cases done
        exact ⟨rfl, bad⟩
      · rintro ⟨same, _⟩
        cases same
        rfl
  | _ => simp [claimTypeFromCbor, schemaError]

/-- A run over entries none of which is the type, followed by any others. -/
theorem claimFromEntries_append {seen : List String} {claimType : Option String}
    {fields : List (String × MetaValue)} (each : ∀ field ∈ fields, field.1 ≠ "type" ∧ field.2.Bounded)
    (distinct : (fields.map Prod.fst).Nodup) (unseen : ∀ field ∈ fields, field.1 ∉ seen)
    {others : Entries} {found : Option String} {later : List (String × MetaValue)}
    (othersDone : claimFromEntries ((fields.map Prod.fst).reverse ++ seen) claimType others =
      .ok (found, later)) :
    claimFromEntries seen claimType (metaEntries fields ++ others) = .ok (found, fields ++ later) := by
  induction fields generalizing seen with
  | nil => exact othersDone
  | cons field fields inductionHypothesis =>
    obtain ⟨key, value⟩ := field
    obtain ⟨⟨notType, bounded⟩, restEach⟩ := List.forall_mem_cons.mp each
    obtain ⟨fresh, restDistinct⟩ := List.nodup_cons.mp distinct
    obtain ⟨keyUnseen, restUnseen⟩ := List.forall_mem_cons.mp unseen
    -- the keys are distinct, so this one does not come again
    have stillUnseen : ∀ field ∈ fields, field.1 ∉ key :: seen := by
      intro field member repeated
      rcases List.mem_cons.mp repeated with same | repeated
      · exact fresh (List.mem_map.mpr ⟨field, member, same⟩)
      · exact restUnseen field member repeated
    have rest := inductionHypothesis restEach restDistinct stillUnseen (by simpa using othersDone)
    have parsed := metaValueFromCbor_eq_ok.mpr ⟨rfl, bounded⟩
    simp only [metaEntries, List.map_cons, List.cons_append, claimFromEntries]
    rw [if_neg (by simpa using keyUnseen), if_neg notType, parsed]
    simp only [metaEntries] at rest
    simp [rest]

/-- What a run over claim entries returns, and that it saw every entry. -/
theorem claimFromEntries_sound {seen : List String} {claimType found : Option String}
    {entries : Entries} {fields : List (String × MetaValue)}
    (done : claimFromEntries seen claimType entries = .ok (found, fields)) :
    (∀ field ∈ fields, field.1 ≠ "type" ∧ field.2.Bounded) ∧ (fields.map Prod.fst).Nodup ∧
      (∀ field ∈ fields, field.1 ∉ seen) ∧
      ((found = claimType ∧ entries = metaEntries fields) ∨
        ∃ s, found = some s ∧ (s.isEmpty = false ∧ len s ≤ 128) ∧ "type" ∉ seen ∧
          entries.Perm ((.text "type", .text s) :: metaEntries fields)) := by
  induction entries generalizing seen claimType found fields with
  | nil =>
    cases done
    exact ⟨by simp, by simp, by simp, .inl ⟨rfl, rfl⟩⟩
  | cons entry entries inductionHypothesis =>
    obtain ⟨entryKey, value⟩ := entry
    cases entryKey with
    | text key =>
      rw [claimFromEntries] at done
      split at done
      · contradiction
      · rename_i keyUnseen
        simp only [List.contains_iff_mem] at keyUnseen
        split at done
        · rename_i isType
          subst isType
          simp only [bind_eq_ok, claimTypeFromCbor_eq_ok] at done
          obtain ⟨s, ⟨rfl, bounded⟩, done⟩ := done
          obtain ⟨each, distinct, unseen, whole⟩ := inductionHypothesis done
          refine ⟨each, distinct, fun field member repeated =>
            unseen field member (List.mem_cons_of_mem _ repeated), .inr ⟨s, ?_⟩⟩
          -- The type key is now among the seen ones, so the rest holds no second one.
          rcases whole with ⟨rfl, rfl⟩ | ⟨_, _, _, again, _⟩
          · exact ⟨rfl, bounded, keyUnseen, List.Perm.refl _⟩
          · exact absurd List.mem_cons_self again
        · rename_i notType
          simp only [bind_eq_ok, metaValueFromCbor_eq_ok] at done
          obtain ⟨first, ⟨rfl, bounded⟩, ⟨later, others⟩, othersDone, done⟩ := done
          cases done
          obtain ⟨each, distinct, unseen, whole⟩ := inductionHypothesis othersDone
          refine ⟨List.forall_mem_cons.mpr ⟨⟨notType, bounded⟩, each⟩, ?_, ?_, ?_⟩
          · refine List.nodup_cons.mpr ⟨fun repeated => ?_, distinct⟩
            obtain ⟨field, member, same⟩ := List.mem_map.mp repeated
            exact unseen field member (same ▸ List.mem_cons_self)
          · exact List.forall_mem_cons.mpr ⟨keyUnseen, fun field member repeated =>
              unseen field member (List.mem_cons_of_mem _ repeated)⟩
          · rcases whole with ⟨same, rfl⟩ | ⟨s, same, typeBounded, typeUnseen, perm⟩
            · exact .inl ⟨same, rfl⟩
            · refine .inr ⟨s, same, typeBounded, fun repeated =>
                typeUnseen (List.mem_cons_of_mem _ repeated), ?_⟩
              exact (perm.cons _).trans (List.Perm.swap _ _ _)
    | _ => contradiction

theorem cborToClaim_sound {value : CborValue} {claim : Claim} (done : cborToClaim value = .ok claim) :
    claim.Bounded ∧ ∃ entries, value = .map entries ∧
      entries.Perm ((.text "type", .text claim.claimType) :: metaEntries claim.fields) := by
  cases value with
  | map entries =>
    simp only [cborToClaim] at done
    split at done
    · contradiction
    · rename_i small
      simp only [bind_eq_ok] at done
      obtain ⟨⟨found, fields⟩, entriesDone, done⟩ := done
      cases found with
      | none => contradiction
      | some claimType =>
        cases done
        obtain ⟨each, distinct, _, whole⟩ := claimFromEntries_sound entriesDone
        rcases whole with ⟨absent, _⟩ | ⟨s, same, typeBounded, _, perm⟩
        · contradiction
        · cases same
          have count := perm.length_eq
          simp only [Bool.or_eq_true, decide_eq_true_eq, not_or, not_lt] at small
          simp only [metaEntries, List.length_cons, List.length_map] at count
          exact ⟨⟨typeBounded, by simp only; omega, each, distinct⟩, entries, rfl, perm⟩
  | _ => contradiction

theorem sortMaps_claimFields (claim : Claim) :
    (("type", CborValue.text claim.claimType) :: metaToFields claim.fields).map
      (fun field => (CborValue.text field.1, field.2.sortMaps)) =
        (.text "type", .text claim.claimType) :: metaEntries claim.fields := by
  simp [metaToFields, metaEntries, sortMaps_metaValueToCbor, CborValue.sortMaps]

theorem cborToClaim_canonical {value : CborValue} (canonical : Canonical limits value) {claim : Claim}
    (done : cborToClaim value = .ok claim) : (claimToCbor claim).sortMaps = value := by
  obtain ⟨_, entries, rfl, perm⟩ := cborToClaim_sound done
  rw [claimToCbor, sortMaps_record, sortMaps_claimFields, sortOn_eq_of_strict canonical.ascending perm.symm]

/-- The type entry of a sorted claim stands somewhere among the fields, which keep their order. -/
theorem claimToCbor_sortMaps {claim : Claim} (ordered : OrderedMeta claim.fields) :
    ∃ before after, before ++ after = claim.fields ∧
      (claimToCbor claim).sortMaps =
        .map (metaEntries before ++ (.text "type", .text claim.claimType) :: metaEntries after) := by
  obtain ⟨before, after, whole, sorted⟩ := sortOn_cons_of_strict ("type", .text claim.claimType) ordered
  refine ⟨before, after, whole, ?_⟩
  rw [claimToCbor, sortMaps_record, sortMaps_claimFields]
  -- in key order the fields stay sorted; only the type entry is inserted
  have mapped := sortOn_map (fun entry : CborValue × CborValue => encodeCanonical entry.1)
    (fun entry : String × MetaValue => (CborValue.text entry.1, metaValueToCbor entry.2))
    (("type", .text claim.claimType) :: claim.fields)
  simp only [List.map_cons, sorted, List.map_append] at mapped
  exact congrArg CborValue.map mapped

theorem cborToClaim_sortMaps {claim : Claim} (bounded : claim.Bounded) (ordered : OrderedMeta claim.fields) :
    cborToClaim (claimToCbor claim).sortMaps = .ok claim := by
  obtain ⟨before, after, whole, sorted⟩ := claimToCbor_sortMaps ordered
  obtain ⟨typeText, count, each, distinct⟩ := bounded
  rw [← whole] at count each distinct
  obtain ⟨eachBefore, eachAfter⟩ := List.forall_mem_append.mp each
  rw [List.map_append, List.nodup_append] at distinct
  obtain ⟨distinctBefore, distinctAfter, disjoint⟩ := distinct
  -- the loop meets the fields before the type, the type, and the fields after it
  have afterDone : claimFromEntries ("type" :: (before.map Prod.fst).reverse) (some claim.claimType)
      (metaEntries after ++ []) = .ok (some claim.claimType, after ++ []) := by
    refine claimFromEntries_append eachAfter distinctAfter ?_ rfl
    intro field member repeated
    rcases List.mem_cons.mp repeated with isType | inBefore
    · exact (eachAfter field member).1 isType
    · exact disjoint _ (List.mem_reverse.mp inBefore) _ (List.mem_map_of_mem member) rfl
  have typeDone : claimFromEntries ((before.map Prod.fst).reverse ++ []) none
      ((.text "type", .text claim.claimType) :: metaEntries after) = .ok (some claim.claimType, after) := by
    have typeUnseen : "type" ∉ (before.map Prod.fst).reverse ++ [] := by
      simp only [List.append_nil, List.mem_reverse, List.mem_map, not_exists, not_and]
      exact fun field member => (eachBefore field member).1
    rw [claimFromEntries, if_neg (by simpa using typeUnseen), if_pos rfl,
      claimTypeFromCbor_eq_ok.mpr ⟨rfl, typeText⟩]
    simpa using afterDone
  have done := claimFromEntries_append eachBefore distinctBefore (by simp) typeDone
  have small : ¬ (decide (16 < (metaEntries before ++ (CborValue.text "type", .text claim.claimType) ::
      metaEntries after).length) || (metaEntries before ++ (CborValue.text "type", .text claim.claimType) ::
      metaEntries after).isEmpty) = true := by
    simp only [List.length_append] at count
    simp [metaEntries]
    omega
  rw [sorted, cborToClaim, if_neg small, done]
  simp [whole]

end

end ProofEngine
