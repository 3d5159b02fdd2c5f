import ProofEngine.Format.CborHead

/-! # Canonical form of values

`parts` lists a value with everything nested in it, map keys included, so that "at any
level" is a quantifier over `parts`.  The encoding does not see the stored order of map
entries (`encodeValue_sortMaps`), and on values whose entries are stored in order it is
plain concatenation (`encodeValue_map_of_ordered`). -/

namespace ProofEngine

open StableSort Text

/-! ## Lists of values as lists -/

theorem encodeItems_eq (items : List CborValue) : encodeItems items = items.flatMap encodeValue := by
  induction items with
  | nil => rfl
  | cons item items inductionHypothesis => simp [encodeItems, inductionHypothesis]

theorem encodePairs_eq (pairs : List (CborValue × CborValue)) :
    encodePairs pairs = pairs.map fun pair => (encodeValue pair.1, encodeValue pair.2) := by
  induction pairs with
  | nil => rfl
  | cons pair pairs inductionHypothesis => simp [encodePairs, inductionHypothesis]

theorem sortMapsItems_eq (items : List CborValue) : sortMapsItems items = items.map CborValue.sortMaps := by
  induction items with
  | nil => rfl
  | cons item items inductionHypothesis => simp [sortMapsItems, inductionHypothesis]

theorem sortMapsPairs_eq (pairs : List (CborValue × CborValue)) :
    sortMapsPairs pairs = pairs.map fun pair => (pair.1.sortMaps, pair.2.sortMaps) := by
  induction pairs with
  | nil => rfl
  | cons pair pairs inductionHypothesis => simp [sortMapsPairs, inductionHypothesis]

namespace CborValue

/-- Induction with hypotheses for the members of arrays and for the keys and values of maps. -/
theorem inductOn {motive : CborValue → Prop} (value : CborValue)
    (uint : ∀ n, motive (.uint n)) (nint : ∀ n, motive (.nint n)) (text : ∀ s, motive (.text s))
    (bytes : ∀ b, motive (.bytes b))
    (array : ∀ items, (∀ item ∈ items, motive item) → motive (.array items))
    (map : ∀ pairs, (∀ pair ∈ pairs, motive pair.1 ∧ motive pair.2) → motive (.map pairs))
    (bool : ∀ b, motive (.bool b)) (null : motive .null) : motive value := by
  refine @CborValue.rec motive (fun items => ∀ item ∈ items, motive item)
    (fun pairs => ∀ pair ∈ pairs, motive pair.1 ∧ motive pair.2)
    (fun pair => motive pair.1 ∧ motive pair.2)
    uint nint text bytes array map bool null ?_ ?_ ?_ ?_ ?_ value
  · intro item member
    cases member
  · intro first rest firstHolds restHold item member
    cases member with
    | head => exact firstHolds
    | tail _ member => exact restHold item member
  · intro pair member
    cases member
  · intro first rest firstHolds restHold pair member
    cases member with
    | head => exact firstHolds
    | tail _ member => exact restHold pair member
  · intro key entry keyHolds entryHolds
    exact ⟨keyHolds, entryHolds⟩

/-! ## Equality is decidable -/

mutual

def same : CborValue → CborValue → Bool
  | .uint left, .uint right => left == right
  | .nint left, .nint right => left == right
  | .text left, .text right => left == right
  | .bytes left, .bytes right => left == right
  | .array left, .array right => sameItems left right
  | .map left, .map right => samePairs left right
  | .bool left, .bool right => left == right
  | .null, .null => true
  | _, _ => false

def sameItems : List CborValue → List CborValue → Bool
  | [], [] => true
  | left :: lefts, right :: rights => left.same right && sameItems lefts rights
  | _, _ => false

def samePairs : List (CborValue × CborValue) → List (CborValue × CborValue) → Bool
  | [], [] => true
  | (leftKey, left) :: lefts, (rightKey, right) :: rights =>
    leftKey.same rightKey && left.same right && samePairs lefts rights
  | _, _ => false

end

theorem sameItems_iff {lefts rights : List CborValue}
    (each : ∀ left ∈ lefts, ∀ right, left.same right = true ↔ left = right) :
    sameItems lefts rights = true ↔ lefts = rights := by
  induction lefts generalizing rights with
  | nil => cases rights <;> simp [sameItems]
  | cons left lefts inductionHypothesis =>
    obtain ⟨here, later⟩ := List.forall_mem_cons.mp each
    cases rights with
    | nil => simp [sameItems]
    | cons right rights => simp [sameItems, here right, inductionHypothesis later]

theorem samePairs_iff {lefts rights : List (CborValue × CborValue)}
    (each : ∀ left ∈ lefts, (∀ right, left.1.same right = true ↔ left.1 = right) ∧
      ∀ right, left.2.same right = true ↔ left.2 = right) :
    samePairs lefts rights = true ↔ lefts = rights := by
  induction lefts generalizing rights with
  | nil => cases rights <;> simp [samePairs]
  | cons left lefts inductionHypothesis =>
    obtain ⟨here, later⟩ := List.forall_mem_cons.mp each
    cases rights with
    | nil => simp [samePairs]
    | cons right rights =>
      simp [samePairs, here.1 right.1, here.2 right.2, inductionHypothesis later, Prod.ext_iff]

theorem same_iff (left right : CborValue) : left.same right = true ↔ left = right := by
  induction left using CborValue.inductOn generalizing right with
  | array items inductionHypothesis =>
    cases right with
    | array others => simp [same, sameItems_iff inductionHypothesis]
    | _ => simp [same]
  | map pairs inductionHypothesis =>
    cases right with
    | map others => simp [same, samePairs_iff inductionHypothesis]
    | _ => simp [same]
  | _ => cases right <;> simp [same]

instance : DecidableEq CborValue :=
  fun left right => decidable_of_iff _ (same_iff left right)

/-! ## Parts -/

mutual

/-- The value and every value nested in it. -/
def parts : CborValue → List CborValue
  | .array items => .array items :: partsItems items
  | .map pairs => .map pairs :: partsPairs pairs
  | .uint n => [.uint n]
  | .nint n => [.nint n]
  | .text s => [.text s]
  | .bytes b => [.bytes b]
  | .bool b => [.bool b]
  | .null => [.null]

def partsItems : List CborValue → List CborValue
  | [] => []
  | item :: items => item.parts ++ partsItems items

def partsPairs : List (CborValue × CborValue) → List CborValue
  | [] => []
  | (key, value) :: pairs => key.parts ++ value.parts ++ partsPairs pairs

end

theorem mem_partsItems {part : CborValue} {items : List CborValue} :
    part ∈ partsItems items ↔ ∃ item ∈ items, part ∈ item.parts := by
  induction items with
  | nil => simp [partsItems]
  | cons item items inductionHypothesis => simp [partsItems, inductionHypothesis]

theorem mem_partsPairs {part : CborValue} {pairs : List (CborValue × CborValue)} :
    part ∈ partsPairs pairs ↔ ∃ pair ∈ pairs, part ∈ pair.1.parts ∨ part ∈ pair.2.parts := by
  induction pairs with
  | nil => simp [partsPairs]
  | cons pair pairs inductionHypothesis => simp [partsPairs, inductionHypothesis, or_assoc]

theorem self_mem_parts (value : CborValue) : value ∈ value.parts := by
  cases value <;> simp [parts]

/-- `node` holds of the value and of every value nested in it. -/
def Everywhere (node : CborValue → Prop) (value : CborValue) : Prop :=
  ∀ part ∈ value.parts, node part

section
variable {node : CborValue → Prop}

theorem Everywhere.self {value : CborValue} (everywhere : value.Everywhere node) : node value :=
  everywhere value value.self_mem_parts

theorem everywhere_array {items : List CborValue} :
    (array items).Everywhere node ↔ node (.array items) ∧ ∀ item ∈ items, item.Everywhere node := by
  simp only [Everywhere, parts, List.forall_mem_cons, mem_partsItems]
  constructor
  · rintro ⟨whole, nested⟩
    exact ⟨whole, fun item member part inside => nested part ⟨item, member, inside⟩⟩
  · rintro ⟨whole, nested⟩
    exact ⟨whole, fun part ⟨item, member, inside⟩ => nested item member part inside⟩

theorem everywhere_map {pairs : List (CborValue × CborValue)} :
    (map pairs).Everywhere node ↔ node (.map pairs) ∧
      ∀ pair ∈ pairs, pair.1.Everywhere node ∧ pair.2.Everywhere node := by
  simp only [Everywhere, parts, List.forall_mem_cons, mem_partsPairs]
  constructor
  · rintro ⟨whole, nested⟩
    exact ⟨whole, fun pair member => ⟨fun part inside => nested part ⟨pair, member, .inl inside⟩,
      fun part inside => nested part ⟨pair, member, .inr inside⟩⟩⟩
  · rintro ⟨whole, nested⟩
    refine ⟨whole, ?_⟩
    rintro part ⟨pair, member, inside | inside⟩
    · exact (nested pair member).1 part inside
    · exact (nested pair member).2 part inside

@[simp] theorem everywhere_uint {n : UInt64} : (uint n).Everywhere node ↔ node (.uint n) :=
  List.forall_mem_singleton

@[simp] theorem everywhere_nint {n : Int64} : (nint n).Everywhere node ↔ node (.nint n) :=
  List.forall_mem_singleton

@[simp] theorem everywhere_text {s : String} : (text s).Everywhere node ↔ node (.text s) :=
  List.forall_mem_singleton

@[simp] theorem everywhere_bytes {b : Bytes} : (bytes b).Everywhere node ↔ node (.bytes b) :=
  List.forall_mem_singleton

@[simp] theorem everywhere_bool {b : Bool} : (bool b).Everywhere node ↔ node (.bool b) :=
  List.forall_mem_singleton

@[simp] theorem everywhere_null : null.Everywhere node ↔ node .null :=
  List.forall_mem_singleton

end

/-! ## Conditions on one part -/

/-- A map stores its entries in the order of their encoded keys. -/
def OrderedEntries : CborValue → Prop
  | .map pairs => pairs.Pairwise fun left right => encodeCanonical left.1 ≤ encodeCanonical right.1
  | _ => True

/-- A map has no two keys with the same encoding. -/
def DistinctEntries : CborValue → Prop
  | .map pairs => (pairs.map fun pair => encodeCanonical pair.1).Nodup
  | _ => True

/-- A `Nint` is negative. -/
def NegativeNint : CborValue → Prop
  | .nint n => n.toInt < 0
  | _ => True

/-- The length that goes into the head of a string or container. -/
def extent : CborValue → Nat
  | .text s => len s
  | .bytes b => b.length
  | .array items => items.length
  | .map pairs => pairs.length
  | _ => 0

/-- A string or container is no longer than a 64-bit length can say. -/
def Addressable (value : CborValue) : Prop := value.extent < 2 ^ 64

instance : DecidablePred DistinctEntries
  | .map pairs => inferInstanceAs (Decidable (pairs.map fun pair => encodeCanonical pair.1).Nodup)
  | .uint _ | .nint _ | .text _ | .bytes _ | .array _ | .bool _ | .null => isTrue trivial

instance : DecidablePred NegativeNint
  | .nint n => inferInstanceAs (Decidable (n.toInt < 0))
  | .uint _ | .map _ | .text _ | .bytes _ | .array _ | .bool _ | .null => isTrue trivial

instance : DecidablePred Addressable :=
  fun value => inferInstanceAs (Decidable (value.extent < 2 ^ 64))

instance (node : CborValue → Prop) [DecidablePred node] (value : CborValue) :
    Decidable (value.Everywhere node) :=
  inferInstanceAs (Decidable (∀ part ∈ value.parts, node part))

/-! ## Sorting maps -/

@[simp] theorem sortMaps_array (items : List CborValue) :
    (array items).sortMaps = .array (items.map sortMaps) := by
  simp [sortMaps, sortMapsItems_eq]

theorem sortMaps_map (pairs : List (CborValue × CborValue)) :
    (map pairs).sortMaps = .map (sortOn (fun pair => encodeCanonical pair.1)
      (pairs.map fun pair => (pair.1.sortMaps, pair.2.sortMaps))) := by
  simp [sortMaps, sortMapsPairs_eq]

end CborValue

open CborValue

theorem encodeValue_map (pairs : List (CborValue × CborValue)) :
    encodeValue (.map pairs) = encodeHead 5 (UInt64.ofNat pairs.length) ++
      joinPairs ((sortOn (fun pair => encodeValue pair.1) pairs).map
        fun pair => (encodeValue pair.1, encodeValue pair.2)) := by
  rw [encodeValue, encodePairs_eq, sortOn_map]

/-- The encoding is the same for every stored order of map entries. -/
theorem encodeValue_sortMaps (value : CborValue) : encodeValue value.sortMaps = encodeValue value := by
  induction value using CborValue.inductOn with
  | uint n => rfl
  | nint n => rfl
  | text s => rfl
  | bytes b => rfl
  | bool b => rfl
  | null => rfl
  | array items inductionHypothesis =>
    simp only [sortMaps_array, encodeValue, encodeItems_eq, List.length_map, List.flatMap_map]
    congr 1
    exact List.flatMap_congr inductionHypothesis
  | map pairs inductionHypothesis =>
    -- sorting inside a key does not change the key it is sorted by
    have keys : ∀ pair ∈ pairs, encodeValue pair.1.sortMaps = encodeValue pair.1 :=
      fun pair member => (inductionHypothesis pair member).1
    simp only [sortMaps_map, encodeCanonical]
    -- Both sides sort by the encoded key, and by the hypothesis on keys those are the same bytes.
    rw [encodeValue_map, encodeValue_map, sortOn_idem, sortOn_map, sortOn_congr keys, List.map_map,
      List.length_map, length_sortOn]
    congr 2
    refine List.map_congr_left fun pair member => ?_
    have holds := inductionHypothesis pair (mem_sortOn.mp member)
    simp only [Function.comp_apply, holds.1, holds.2]

namespace CborValue

/-- Sorting maps stores every map in order. -/
theorem orderedEntries_sortMaps (value : CborValue) : value.sortMaps.Everywhere OrderedEntries := by
  induction value using CborValue.inductOn with
  | uint n => simp [sortMaps, OrderedEntries]
  | nint n => simp [sortMaps, OrderedEntries]
  | text s => simp [sortMaps, OrderedEntries]
  | bytes b => simp [sortMaps, OrderedEntries]
  | bool b => simp [sortMaps, OrderedEntries]
  | null => simp [sortMaps, OrderedEntries]
  | array items inductionHypothesis =>
    rw [sortMaps_array]
    exact everywhere_array.mpr ⟨trivial, by simpa using inductionHypothesis⟩
  | map pairs inductionHypothesis =>
    rw [sortMaps_map]
    refine everywhere_map.mpr ⟨sortOn_pairwise _ _, ?_⟩
    intro pair member
    obtain ⟨original, originalMember, rfl⟩ := List.mem_map.mp (mem_sortOn.mp member)
    exact inductionHypothesis original originalMember

/-- Ordered values are not changed by sorting. -/
theorem sortMaps_eq_self {value : CborValue} (ordered : value.Everywhere OrderedEntries) :
    value.sortMaps = value := by
  induction value using CborValue.inductOn with
  | uint n => rfl
  | nint n => rfl
  | text s => rfl
  | bytes b => rfl
  | bool b => rfl
  | null => rfl
  | array items inductionHypothesis =>
    have nested := (everywhere_array.mp ordered).2
    rw [sortMaps_array, List.map_congr_left fun item member =>
      inductionHypothesis item member (nested item member), List.map_id']
  | map pairs inductionHypothesis =>
    obtain ⟨here, nested⟩ := everywhere_map.mp ordered
    have fixed : ∀ pair ∈ pairs, (pair.1.sortMaps, pair.2.sortMaps) = pair := fun pair member => by
      rw [(inductionHypothesis pair member).1 (nested pair member).1,
        (inductionHypothesis pair member).2 (nested pair member).2]
    -- entries already in order stay where they are
    have whole : sortOn (fun pair => encodeCanonical pair.1) pairs = pairs := sortOn_of_pairwise here
    rw [sortMaps_map, List.map_congr_left fixed, List.map_id', whole]

/-- A condition that sorting keeps at each part is kept at all parts. -/
theorem everywhere_sortMaps {node : CborValue → Prop}
    (step : ∀ value, node value → node value.sortMaps) {value : CborValue}
    (everywhere : value.Everywhere node) : value.sortMaps.Everywhere node := by
  induction value using CborValue.inductOn with
  | uint n => exact everywhere
  | nint n => exact everywhere
  | text s => exact everywhere
  | bytes b => exact everywhere
  | bool b => exact everywhere
  | null => exact everywhere
  | array items inductionHypothesis =>
    obtain ⟨here, nested⟩ := everywhere_array.mp everywhere
    have sortedHere := step _ here
    rw [sortMaps_array] at sortedHere ⊢
    refine everywhere_array.mpr ⟨sortedHere, fun item member => ?_⟩
    obtain ⟨original, originalMember, rfl⟩ := List.mem_map.mp member
    exact inductionHypothesis original originalMember (nested original originalMember)
  | map pairs inductionHypothesis =>
    obtain ⟨here, nested⟩ := everywhere_map.mp everywhere
    have sortedHere := step _ here
    rw [sortMaps_map] at sortedHere ⊢
    refine everywhere_map.mpr ⟨sortedHere, fun pair member => ?_⟩
    obtain ⟨original, originalMember, rfl⟩ := List.mem_map.mp (mem_sortOn.mp member)
    obtain ⟨keyHolds, entryHolds⟩ := inductionHypothesis original originalMember
    exact ⟨keyHolds (nested original originalMember).1, entryHolds (nested original originalMember).2⟩

theorem negativeNint_sortMaps (value : CborValue) (negative : value.NegativeNint) :
    value.sortMaps.NegativeNint := by
  cases value with
  | map pairs => rw [sortMaps_map]; trivial
  | _ => exact negative

theorem extent_sortMaps (value : CborValue) : value.sortMaps.extent = value.extent := by
  cases value with
  | array items => simp [extent]
  | map pairs => simp [sortMaps_map, extent]
  | _ => rfl

theorem distinctEntries_sortMaps (value : CborValue) (distinct : value.DistinctEntries) :
    value.sortMaps.DistinctEntries := by
  cases value with
  | map pairs =>
    rw [sortMaps_map]
    -- distinct keys stay distinct under a permutation
    have perm := (sortOn_perm (fun pair : CborValue × CborValue => encodeCanonical pair.1)
      (pairs.map fun pair => (pair.1.sortMaps, pair.2.sortMaps))).map fun pair => encodeCanonical pair.1
    have keys : (fun pair : CborValue × CborValue => encodeCanonical pair.1.sortMaps) =
        fun pair => encodeCanonical pair.1 := funext fun pair => encodeValue_sortMaps pair.1
    -- The keys changed by sorting inside them still have the encodings they had.
    simp only [List.map_map, Function.comp_def, keys] at perm
    exact perm.nodup_iff.mpr distinct
  | array items => rw [sortMaps_array]; trivial
  | _ => exact distinct

end CborValue

/-- On values stored in order the encoding of a map is the concatenation of its entries. -/
theorem encodeValue_map_of_ordered {pairs : List (CborValue × CborValue)}
    (ordered : (CborValue.map pairs).OrderedEntries) :
    encodeValue (.map pairs) = encodeHead 5 (UInt64.ofNat pairs.length) ++
      (pairs.flatMap fun pair => [pair.1, pair.2]).flatMap encodeValue := by
  have sorted : sortOn (fun pair => encodeValue pair.1) pairs = pairs := sortOn_of_pairwise ordered
  rw [encodeValue_map, sorted, joinPairs, List.flatMap_map, List.flatMap_assoc]
  simp

end ProofEngine
