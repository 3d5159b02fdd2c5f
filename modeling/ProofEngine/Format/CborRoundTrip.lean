import ProofEngine.Format.CborCanonical

/-! # The decoder accepts the canonical encodings and nothing else

`decodeValue_sound` reads an accepted input backwards: it starts with the encoding of the
value it was decoded to, and that value is in canonical form within the limits.
`decodeValue_encodeValue` is the converse.  Both go by the levels of nesting; the loops
over array items and map entries have their own run lemmas. -/

namespace ProofEngine

open StableSort Text CborValue

/-! ## What the decoder accepts -/

/-- The largest extent the limits allow for a value of this kind. -/
def Limits.extentOf (limits : Limits) : CborValue → UInt64
  | .text _ => limits.maxFieldSize
  | .bytes _ => limits.maxFieldSize
  | .array _ => limits.maxArrayItems
  | .map _ => limits.maxMapEntries
  | _ => 0

/-- The extent of one part is within the limits. -/
def Limits.Admits (limits : Limits) (part : CborValue) : Prop :=
  part.extent ≤ (limits.extentOf part).toNat

instance (limits : Limits) : DecidablePred limits.Admits :=
  fun part => inferInstanceAs (Decidable (part.extent ≤ (limits.extentOf part).toNat))

mutual

/-- The deepest level at which a nested value starts. -/
def CborValue.nesting : CborValue → Nat
  | .array items => nestingItems items
  | .map pairs => nestingPairs pairs
  | .uint _ => 0
  | .nint _ => 0
  | .text _ => 0
  | .bytes _ => 0
  | .bool _ => 0
  | .null => 0

def nestingItems : List CborValue → Nat
  | [] => 0
  | item :: items => max (item.nesting + 1) (nestingItems items)

def nestingPairs : List (CborValue × CborValue) → Nat
  | [] => 0
  | (key, value) :: pairs => max (max (key.nesting + 1) (value.nesting + 1)) (nestingPairs pairs)

end

theorem nestingItems_le {items : List CborValue} {bound : Nat} :
    nestingItems items ≤ bound ↔ ∀ item ∈ items, item.nesting + 1 ≤ bound := by
  induction items with
  | nil => simp [nestingItems]
  | cons first rest inductionHypothesis => simp [nestingItems, inductionHypothesis]

theorem nestingPairs_le {pairs : List (CborValue × CborValue)} {bound : Nat} :
    nestingPairs pairs ≤ bound ↔
      ∀ pair ∈ pairs, pair.1.nesting + 1 ≤ bound ∧ pair.2.nesting + 1 ≤ bound := by
  induction pairs with
  | nil => simp [nestingPairs]
  | cons first rest inductionHypothesis =>
    simp only [nestingPairs, max_le_iff, inductionHypothesis, List.forall_mem_cons]

theorem nesting_sortMaps_le (value : CborValue) : value.sortMaps.nesting ≤ value.nesting := by
  induction value using CborValue.inductOn with
  | uint n => exact le_rfl
  | nint n => exact le_rfl
  | text s => exact le_rfl
  | bytes b => exact le_rfl
  | bool b => exact le_rfl
  | null => exact le_rfl
  | array items inductionHypothesis =>
    rw [sortMaps_array, CborValue.nesting, CborValue.nesting, nestingItems_le]
    intro item member
    obtain ⟨original, originalMember, rfl⟩ := List.mem_map.mp member
    have below := inductionHypothesis original originalMember
    have deepest := nestingItems_le.mp le_rfl original originalMember
    omega
  | map pairs inductionHypothesis =>
    rw [sortMaps_map, CborValue.nesting, CborValue.nesting, nestingPairs_le]
    intro pair member
    obtain ⟨original, originalMember, rfl⟩ := List.mem_map.mp (mem_sortOn.mp member)
    obtain ⟨keyBelow, valueBelow⟩ := inductionHypothesis original originalMember
    obtain ⟨keyDeepest, valueDeepest⟩ := nestingPairs_le.mp le_rfl original originalMember
    exact ⟨(Nat.succ_le_succ keyBelow).trans keyDeepest,
      (Nat.succ_le_succ valueBelow).trans valueDeepest⟩

theorem admits_sortMaps (limits : Limits) (value : CborValue) (admitted : limits.Admits value) :
    limits.Admits value.sortMaps := by
  rw [Limits.Admits, extent_sortMaps]
  cases value with
  | map pairs => exact admitted
  | array items => exact admitted
  | _ => exact admitted

/-- One part as the decoder requires it. -/
structure CanonicalPart (limits : Limits) (part : CborValue) : Prop where
  ordered : part.OrderedEntries
  distinct : part.DistinctEntries
  negative : part.NegativeNint
  admitted : limits.Admits part

/-- A value in canonical form within the limits on extents. -/
def Canonical (limits : Limits) (value : CborValue) : Prop :=
  value.Everywhere (CanonicalPart limits)

theorem Canonical.ordered {limits : Limits} {value : CborValue} (canonical : Canonical limits value) :
    value.Everywhere OrderedEntries :=
  fun part member => (canonical part member).ordered

theorem Canonical.addressable {limits : Limits} {value : CborValue} (canonical : Canonical limits value) :
    value.Everywhere Addressable :=
  fun part member => (canonical part member).admitted.trans_lt (UInt64.toNat_lt _)

theorem Canonical.sortMaps_eq {limits : Limits} {value : CborValue}
    (canonical : Canonical limits value) : value.sortMaps = value :=
  sortMaps_eq_self canonical.ordered

section
variable {limits : Limits}

theorem canonical_uint (n : UInt64) : Canonical limits (.uint n) := by
  simp only [Canonical, everywhere_uint]
  exact ⟨trivial, trivial, trivial, Nat.zero_le _⟩

theorem canonical_bool (b : Bool) : Canonical limits (.bool b) := by
  simp only [Canonical, everywhere_bool]
  exact ⟨trivial, trivial, trivial, Nat.zero_le _⟩

theorem canonical_null : Canonical limits .null := by
  simp only [Canonical, everywhere_null]
  exact ⟨trivial, trivial, trivial, Nat.zero_le _⟩

theorem canonical_nint {n : Int64} (negative : n.toInt < 0) : Canonical limits (.nint n) := by
  simp only [Canonical, everywhere_nint]
  exact ⟨trivial, trivial, negative, Nat.zero_le _⟩

theorem canonical_text {s : String} (admitted : len s ≤ limits.maxFieldSize.toNat) :
    Canonical limits (.text s) := by
  simp only [Canonical, everywhere_text]
  exact ⟨trivial, trivial, trivial, admitted⟩

theorem canonical_bytes {b : Bytes} (admitted : b.length ≤ limits.maxFieldSize.toNat) :
    Canonical limits (.bytes b) := by
  simp only [Canonical, everywhere_bytes]
  exact ⟨trivial, trivial, trivial, admitted⟩

end

/-- Entries in strictly ascending order of their encoded keys. -/
def Ascending (pairs : List (CborValue × CborValue)) : Prop :=
  pairs.Pairwise fun left right => encodeCanonical left.1 < encodeCanonical right.1

theorem Ascending.ordered {pairs : List (CborValue × CborValue)} (ascending : Ascending pairs) :
    (CborValue.map pairs).OrderedEntries :=
  ascending.imp le_of_lt

theorem Ascending.distinct {pairs : List (CborValue × CborValue)} (ascending : Ascending pairs) :
    (CborValue.map pairs).DistinctEntries :=
  List.pairwise_map.mpr (ascending.imp fun less => less.ne)

theorem ascending_of_distinct {pairs : List (CborValue × CborValue)}
    (ordered : (CborValue.map pairs).OrderedEntries)
    (distinct : (CborValue.map pairs).DistinctEntries) : Ascending pairs :=
  ordered.imp₂ (fun _ _ le ne => lt_of_le_of_ne le ne) (List.pairwise_map.mp distinct)

/-! ## Accepted input, read backwards -/

section
variable {limits : Limits} {nested : Bytes → Result (CborValue × Bytes)}

/-- `buf` is the encoding of `value`, in canonical form, followed by `rest`. -/
def Accepted (limits : Limits) (buf : Bytes) (value : CborValue) (rest : Bytes) : Prop :=
  buf = encodeValue value ++ rest ∧ Canonical limits value

theorem readLen_eq_ok {info : UInt8} {limit : UInt64} {what : String} {buf rest : Bytes} {len : Nat}
    (done : readLen info limit what buf = .ok (len, rest)) :
    ∃ arg : UInt64, arg.toNat = len ∧ len ≤ limit.toNat ∧ info = headInfo arg ∧
      buf = headWord arg ++ rest := by
  simp only [readLen, bind_eq_ok] at done
  obtain ⟨⟨arg, after⟩, argDone, done⟩ := done
  simp only at done
  split at done
  · contradiction
  · rename_i small
    cases done
    obtain ⟨info, whole⟩ := readArg_eq_ok argDone
    exact ⟨arg, rfl, by simpa [UInt64.lt_iff_toNat_lt] using small, info, whole⟩

theorem decodeItems_sound
    (sound : ∀ buf value rest, nested buf = .ok (value, rest) → Accepted limits buf value rest) :
    ∀ {n : Nat} {buf rest : Bytes} {items : List CborValue},
      decodeItems nested n buf = .ok (items, rest) →
        items.length = n ∧ buf = items.flatMap encodeValue ++ rest ∧
          ∀ item ∈ items, Canonical limits item
  | 0, buf, rest, items, done => by
    cases done
    exact ⟨rfl, rfl, by simp⟩
  | n + 1, buf, rest, items, done => by
    simp only [decodeItems, bind_eq_ok] at done
    obtain ⟨⟨item, afterItem⟩, itemDone, ⟨others, afterOthers⟩, othersDone, done⟩ := done
    cases done
    obtain ⟨whole, canonical⟩ := sound _ _ _ itemDone
    obtain ⟨length, restWhole, restCanonical⟩ := decodeItems_sound sound othersDone
    simp only at whole restWhole
    refine ⟨by rw [List.length_cons, length], ?_, ?_⟩
    · rw [whole, restWhole, List.flatMap_cons, List.append_assoc]
    · intro other member
      cases member with
      | head => exact canonical
      | tail _ member => exact restCanonical other member

theorem checkKeyOrder_eq_ok {previous : Option Bytes} {key : Bytes}
    (done : checkKeyOrder previous key = .ok ()) : ∀ bound ∈ previous, bound < key := by
  cases previous with
  | none => simp
  | some previous =>
    simp only [checkKeyOrder] at done
    split_ifs at done with equal below
    intro bound member
    cases member
    exact lt_of_le_of_ne (not_lt.mp below) (Ne.symm equal)

/-- The key order check against the previous key alone makes the whole run ascending. -/
theorem decodePairs_sound
    (sound : ∀ buf value rest, nested buf = .ok (value, rest) → Accepted limits buf value rest) :
    ∀ {n : Nat} {previous : Option Bytes} {buf rest : Bytes} {pairs : List (CborValue × CborValue)},
      decodePairs nested n previous buf = .ok (pairs, rest) →
        pairs.length = n ∧
          buf = (pairs.flatMap fun pair => [pair.1, pair.2]).flatMap encodeValue ++ rest ∧
          (∀ pair ∈ pairs, Canonical limits pair.1 ∧ Canonical limits pair.2) ∧
          Ascending pairs ∧ ∀ bound ∈ previous, ∀ pair ∈ pairs, bound < encodeCanonical pair.1
  -- Recursion on the entry count; the last conjunct is the invariant that links an entry to the
  -- previous key, and transitivity lifts it to all later entries.
  | 0, previous, buf, rest, pairs, done => by
    cases done
    exact ⟨rfl, rfl, by simp, List.Pairwise.nil, by simp⟩
  | n + 1, previous, buf, rest, pairs, done => by
    simp only [decodePairs, bind_eq_ok] at done
    obtain ⟨⟨key, afterKey⟩, keyDone, ⟨value, afterValue⟩, valueDone, _, orderDone,
      ⟨others, afterOthers⟩, othersDone, done⟩ := done
    cases done
    obtain ⟨keyWhole, keyCanonical⟩ := sound _ _ _ keyDone
    obtain ⟨valueWhole, valueCanonical⟩ := sound _ _ _ valueDone
    have above := checkKeyOrder_eq_ok orderDone
    -- The run over the other entries starts with this key as its previous key.
    obtain ⟨length, restWhole, restCanonical, ascending, restAbove⟩ := decodePairs_sound sound othersDone
    have keyBelow : ∀ pair ∈ others, encodeCanonical key < encodeCanonical pair.1 :=
      restAbove _ rfl
    simp only at keyWhole valueWhole restWhole
    refine ⟨by rw [List.length_cons, length], ?_, ?_, List.pairwise_cons.mpr ⟨keyBelow, ascending⟩, ?_⟩
    · rw [keyWhole, valueWhole, restWhole]
      simp
    · intro pair member
      cases member with
      | head => exact ⟨keyCanonical, valueCanonical⟩
      | tail _ member => exact restCanonical pair member
    · intro bound bounded pair member
      cases member with
      | head => exact above bound bounded
      | tail _ member => exact (above bound bounded).trans (keyBelow pair member)

theorem decodeNint_eq_ok {arg : UInt64} {value : CborValue} (done : decodeNint arg = .ok value) :
    encodeValue value = encodeHead 1 arg ∧ Canonical limits value := by
  simp only [decodeNint] at done
  split at done
  · contradiction
  · rename_i inRange
    cases done
    have lower : Int64.minValue.toInt ≤ -1 - (arg.toNat : Int) := not_lt.mp inRange
    -- The guard is the lower end of `i64`, the upper end holds because the value is negative.
    have back : (Int64.ofInt (-1 - (arg.toNat : Int))).toInt = -1 - (arg.toNat : Int) :=
      Int64.toInt_ofInt_of_le lower (by simp; omega)
    refine ⟨?_, canonical_nint (by omega)⟩
    have argument : (-1 - (-1 - (arg.toNat : Int))).toNat = arg.toNat := by omega
    rw [encodeValue, if_neg (by omega), back, argument, UInt64.ofNat_toNat]

theorem decodeText_eq_ok {bytes : Bytes} {value : CborValue} (done : decodeText bytes = .ok value) :
    ∃ s, value = .text s ∧ utf8 s = bytes := by
  simp only [decodeText] at done
  split at done
  · rename_i s spelled
    cases done
    exact ⟨s, rfl, fromUtf8_eq_some.mp spelled⟩
  · contradiction

theorem decodeSimple_eq_ok {info : UInt8} {value : CborValue} (done : decodeSimple info = .ok value) :
    encodeValue value = [UInt8.ofNat 7 <<< 5 ||| info] ∧ Canonical limits value := by
  simp only [decodeSimple] at done
  split_ifs at done with isFalse isTrue isNull
  · cases done
    exact ⟨by rw [isFalse]; rfl, canonical_bool false⟩
  · cases done
    exact ⟨by rw [isTrue]; rfl, canonical_bool true⟩
  · cases done
    exact ⟨by rw [isNull]; rfl, canonical_null⟩

/-- One level of the decoder: an accepted body belongs to the initial byte it was read for. -/
theorem decodeBody_sound
    (sound : ∀ buf value rest, nested buf = .ok (value, rest) → Accepted limits buf value rest)
    {major : Nat} {info : UInt8} {buf rest : Bytes} {value : CborValue}
    (done : decodeBody limits nested major info buf = .ok (value, rest)) :
    Accepted limits ((UInt8.ofNat major <<< 5 ||| info) :: buf) value rest := by
  unfold decodeBody at done
  split at done
  · simp only [bind_eq_ok] at done
    obtain ⟨⟨n, after⟩, argDone, done⟩ := done
    cases done
    obtain ⟨rfl, whole⟩ := readArg_eq_ok argDone
    exact ⟨by simp [encodeValue, encodeHead_eq, whole], canonical_uint n⟩
  · simp only [bind_eq_ok] at done
    obtain ⟨⟨n, after⟩, argDone, decoded, nintDone, done⟩ := done
    cases done
    obtain ⟨rfl, whole⟩ := readArg_eq_ok argDone
    obtain ⟨encoded, canonical⟩ := decodeNint_eq_ok nintDone
    exact ⟨by simp [encoded, encodeHead_eq, whole], canonical⟩
  · simp only [bind_eq_ok] at done
    obtain ⟨⟨len, afterLen⟩, lenDone, ⟨bytes, after⟩, readDone, done⟩ := done
    cases done
    obtain ⟨arg, rfl, small, rfl, whole⟩ := readLen_eq_ok lenDone
    obtain ⟨length, restWhole⟩ := read_eq_ok readDone
    simp only at restWhole length
    refine ⟨?_, canonical_bytes (length.trans_le small)⟩
    simp [encodeValue, encodeHead_eq, whole, restWhole, length]
  · simp only [bind_eq_ok] at done
    obtain ⟨⟨len, afterLen⟩, lenDone, ⟨bytes, after⟩, readDone, decoded, textDone, done⟩ := done
    cases done
    obtain ⟨arg, rfl, small, rfl, whole⟩ := readLen_eq_ok lenDone
    obtain ⟨length, restWhole⟩ := read_eq_ok readDone
    obtain ⟨s, rfl, spelled⟩ := decodeText_eq_ok textDone
    -- The head counts bytes, and so does the length of the decoded text.
    have textLength : Text.len s = arg.toNat := by rw [Text.len, spelled, length]
    simp only at restWhole spelled
    refine ⟨?_, canonical_text (textLength.trans_le small)⟩
    simp [encodeValue, encodeHead_eq, whole, restWhole, textLength, spelled]
  · simp only [bind_eq_ok] at done
    obtain ⟨⟨len, afterLen⟩, lenDone, ⟨items, after⟩, itemsDone, done⟩ := done
    cases done
    obtain ⟨arg, rfl, small, rfl, whole⟩ := readLen_eq_ok lenDone
    obtain ⟨length, restWhole, canonical⟩ := decodeItems_sound sound itemsDone
    simp only at restWhole length
    refine ⟨?_, everywhere_array.mpr ⟨⟨trivial, trivial, trivial, length.trans_le small⟩, canonical⟩⟩
    simp [encodeValue, encodeItems_eq, encodeHead_eq, whole, restWhole, length]
  · simp only [bind_eq_ok] at done
    obtain ⟨⟨len, afterLen⟩, lenDone, ⟨pairs, after⟩, pairsDone, done⟩ := done
    cases done
    obtain ⟨arg, rfl, small, rfl, whole⟩ := readLen_eq_ok lenDone
    obtain ⟨length, restWhole, canonical, ascending, _⟩ := decodePairs_sound sound pairsDone
    simp only at restWhole length
    refine ⟨?_, everywhere_map.mpr
      ⟨⟨ascending.ordered, ascending.distinct, trivial, length.trans_le small⟩, canonical⟩⟩
    rw [encodeValue_map_of_ordered ascending.ordered, encodeHead_eq, whole, restWhole, length]
    simp
  · contradiction
  · simp only [bind_eq_ok] at done
    obtain ⟨decoded, simpleDone, done⟩ := done
    cases done
    obtain ⟨encoded, canonical⟩ := decodeSimple_eq_ok simpleDone
    exact ⟨by rw [encoded]; rfl, canonical⟩
  · contradiction

/-- An accepted input starts with the canonical encoding of the decoded value. -/
theorem decodeValue_sound (limits : Limits) : ∀ (room : Nat) (buf : Bytes) (value : CborValue)
    (rest : Bytes), decodeValue limits room buf = .ok (value, rest) → Accepted limits buf value rest
  | 0, _, _, _, done => by simp [decodeValue] at done
  | _ + 1, [], _, _, done => by simp [decodeValue] at done
  | room + 1, initial :: buf, value, rest, done => by
    -- The nested decoder runs with one level less, which is where the recursion goes.
    have accepted := decodeBody_sound (decodeValue_sound limits room) done
    rwa [initialByte_split] at accepted

theorem decodeStrict_sound {bytes : Bytes} {limits : Limits} {value : CborValue}
    (done : decodeStrict bytes limits = .ok value) :
    bytes = encodeCanonical value ∧ Canonical limits value := by
  simp only [decodeStrict] at done
  split at done
  · contradiction
  · simp only [bind_eq_ok] at done
    obtain ⟨⟨decoded, rest⟩, valueDone, done⟩ := done
    obtain ⟨whole, canonical⟩ := decodeValue_sound _ _ _ _ _ valueDone
    simp only [ne_eq, ite_not] at done
    split at done
    · rename_i finished
      cases done
      simp only [finished, List.append_nil] at whole
      exact ⟨whole, canonical⟩
    · contradiction

/-! ## Canonical encodings are accepted -/

theorem decodeItems_encode {items : List CborValue}
    (complete : ∀ item ∈ items, ∀ rest, nested (encodeValue item ++ rest) = .ok (item, rest))
    (rest : Bytes) :
    decodeItems nested items.length (items.flatMap encodeValue ++ rest) = .ok (items, rest) := by
  induction items with
  | nil => rfl
  | cons item items inductionHypothesis =>
    have others := inductionHypothesis fun later member => complete later (List.mem_cons_of_mem _ member)
    simp only [List.length_cons, decodeItems, List.flatMap_cons, List.append_assoc,
      complete item List.mem_cons_self, ok_bind, others]

theorem checkKeyOrder_of_lt {previous : Option Bytes} {key : Bytes}
    (above : ∀ bound ∈ previous, bound < key) : checkKeyOrder previous key = .ok () := by
  cases previous with
  | none => rfl
  | some previous =>
    have less := above previous rfl
    simp only [checkKeyOrder]
    rw [if_neg less.ne', if_neg less.asymm]

theorem decodePairs_encode {pairs : List (CborValue × CborValue)}
    (complete : ∀ pair ∈ pairs, ∀ rest, nested (encodeValue pair.1 ++ rest) = .ok (pair.1, rest) ∧
      nested (encodeValue pair.2 ++ rest) = .ok (pair.2, rest))
    (ascending : Ascending pairs) {previous : Option Bytes}
    (above : ∀ bound ∈ previous, ∀ pair ∈ pairs, bound < encodeCanonical pair.1) (rest : Bytes) :
    decodePairs nested pairs.length previous
      ((pairs.flatMap fun pair => [pair.1, pair.2]).flatMap encodeValue ++ rest) = .ok (pairs, rest) := by
  induction pairs generalizing previous with
  | nil => rfl
  | cons pair pairs inductionHypothesis =>
    obtain ⟨key, value⟩ := pair
    obtain ⟨keyBelow, restAscending⟩ := List.pairwise_cons.mp ascending
    have order := checkKeyOrder_of_lt fun bound bounded => above bound bounded _ List.mem_cons_self
    have restAbove : ∀ bound ∈ some (encodeCanonical key), ∀ later ∈ pairs,
        bound < encodeCanonical later.1 := by
      intro bound bounded
      cases bounded
      exact keyBelow
    have others := inductionHypothesis
      (fun later member => complete later (List.mem_cons_of_mem _ member)) restAscending restAbove
    have keyDone := fun rest => (complete _ List.mem_cons_self rest).1
    have valueDone := fun rest => (complete _ List.mem_cons_self rest).2
    simp only [List.length_cons, decodePairs, List.flatMap_cons, List.append_assoc,
      List.cons_append, List.nil_append, keyDone, valueDone, order, ok_bind, others]

theorem decodeValue_encodeHead {major : UInt8} (majorSmall : major < 8) (n : UInt64) (room : Nat)
    (rest : Bytes) :
    decodeValue limits (room + 1) (encodeHead major n ++ rest) =
      decodeBody limits (decodeValue limits room) major.toNat (headInfo n) (headWord n ++ rest) := by
  rw [encodeHead_eq, List.cons_append, decodeValue, initialByte_major majorSmall (headInfo_lt n),
    initialByte_info majorSmall (headInfo_lt n)]

theorem readLen_headWord {limit : UInt64} {what : String} {extent : Nat} (small : extent ≤ limit.toNat)
    (rest : Bytes) :
    readLen (headInfo (UInt64.ofNat extent)) limit what (headWord (UInt64.ofNat extent) ++ rest) =
      .ok (extent, rest) := by
  have bounded := limit.toNat_lt
  have value : (UInt64.ofNat extent).toNat = extent := UInt64.toNat_ofNat_of_lt' (by rw [UInt64.size]; omega)
  simp only [readLen, readArg_headWord, ok_bind, UInt64.lt_iff_toNat_lt, value]
  rw [if_neg (by omega)]

theorem decodeNint_argument {n : Int64} (negative : n.toInt < 0) :
    decodeNint (UInt64.ofNat (-1 - n.toInt).toNat) = .ok (.nint n) := by
  have lower := n.le_toInt
  have value : (UInt64.ofNat (-1 - n.toInt).toNat).toNat = (-1 - n.toInt).toNat :=
    UInt64.toNat_ofNat_of_lt' (by rw [UInt64.size]; omega)
  have back : -1 - ((-1 - n.toInt).toNat : Int) = n.toInt := by omega
  simp only [decodeNint, value, back, Int64.ofInt_toInt]
  rw [if_neg (by simp; omega)]

/-- The encoding of a canonical value decodes to that value, whatever follows it. -/
theorem decodeValue_encodeValue {value : CborValue} (canonical : Canonical limits value) {room : Nat}
    (depth : value.nesting ≤ room) (rest : Bytes) :
    decodeValue limits (room + 1) (encodeValue value ++ rest) = .ok (value, rest) := by
  -- Induction on the value for every level it can start at; an item one level further in finds
  -- room there because the nesting of the container counts it.
  induction value using CborValue.inductOn generalizing room rest with
  | uint n =>
    rw [encodeValue, decodeValue_encodeHead (by decide)]
    simp [decodeBody, readArg_headWord]
  | nint n =>
    have negative : n.toInt < 0 := canonical.self.negative
    rw [encodeValue, if_neg (by omega), decodeValue_encodeHead (by decide)]
    simp [decodeBody, readArg_headWord, decodeNint_argument negative]
  | text s =>
    have small : len s ≤ limits.maxFieldSize.toNat := canonical.self.admitted
    rw [encodeValue, List.append_assoc, decodeValue_encodeHead (by decide)]
    have spelled : read (len s) (utf8 s ++ rest) = .ok (utf8 s, rest) := read_append rfl
    simp [decodeBody, readLen_headWord small, spelled, decodeText]
  | bytes b =>
    have small : b.length ≤ limits.maxFieldSize.toNat := canonical.self.admitted
    rw [encodeValue, List.append_assoc, decodeValue_encodeHead (by decide)]
    simp [decodeBody, readLen_headWord small, read_append rfl]
  | bool b => cases b <;> rfl
  | null => rfl
  | array items inductionHypothesis =>
    obtain ⟨here, nestedCanonical⟩ := everywhere_array.mp canonical
    have small : items.length ≤ limits.maxArrayItems.toNat := here.admitted
    have shallow := nestingItems_le.mp depth
    have complete : ∀ item ∈ items, ∀ rest,
        decodeValue limits room (encodeValue item ++ rest) = .ok (item, rest) := by
      intro item member rest
      have itemShallow := shallow item member
      cases room with
      | zero => omega
      | succ room =>
        exact inductionHypothesis item member (nestedCanonical item member)
          (Nat.le_of_succ_le_succ itemShallow) rest
    rw [encodeValue, encodeItems_eq, List.append_assoc, decodeValue_encodeHead (by decide)]
    simp [decodeBody, readLen_headWord small, decodeItems_encode complete]
  | map pairs inductionHypothesis =>
    obtain ⟨here, nestedCanonical⟩ := everywhere_map.mp canonical
    have small : pairs.length ≤ limits.maxMapEntries.toNat := here.admitted
    have shallow := nestingPairs_le.mp depth
    have complete : ∀ pair ∈ pairs, ∀ rest,
        decodeValue limits room (encodeValue pair.1 ++ rest) = .ok (pair.1, rest) ∧
          decodeValue limits room (encodeValue pair.2 ++ rest) = .ok (pair.2, rest) := by
      intro pair member rest
      obtain ⟨keyShallow, valueShallow⟩ := shallow pair member
      obtain ⟨keyCanonical, valueCanonical⟩ := nestedCanonical pair member
      obtain ⟨keyDone, valueDone⟩ := inductionHypothesis pair member
      cases room with
      | zero => omega
      | succ room =>
        exact ⟨keyDone keyCanonical (Nat.le_of_succ_le_succ keyShallow) rest,
          valueDone valueCanonical (Nat.le_of_succ_le_succ valueShallow) rest⟩
    have entriesDone : decodePairs (decodeValue limits room) pairs.length none
        ((pairs.flatMap fun pair => [pair.1, pair.2]).flatMap encodeValue ++ rest) = .ok (pairs, rest) :=
      decodePairs_encode complete (ascending_of_distinct here.ordered here.distinct) (by simp) rest
    rw [encodeValue_map_of_ordered here.ordered, List.append_assoc, decodeValue_encodeHead (by decide)]
    simp [decodeBody, readLen_headWord small, entriesDone]

end

/-- A value whose strings, containers, nesting and encoded size the decoder admits. -/
structure WithinLimits (limits : Limits) (value : CborValue) : Prop where
  extents : value.Everywhere limits.Admits
  depth : value.nesting ≤ limits.maxDepth.toNat
  size : (encodeCanonical value).length ≤ limits.maxProofSize.toNat

/-- A canonical value is what its encoding decodes to. -/
theorem decodeStrict_encodeCanonical {limits : Limits} {value : CborValue}
    (canonical : Canonical limits value) (depth : value.nesting ≤ limits.maxDepth.toNat)
    (size : (encodeCanonical value).length ≤ limits.maxProofSize.toNat) :
    decodeStrict (encodeCanonical value) limits = .ok value := by
  have decoded := decodeValue_encodeValue canonical depth []
  rw [List.append_nil] at decoded
  simp only [decodeStrict]
  rw [if_neg (by omega), encodeCanonical, decoded]
  simp

/-- Decoding undoes encoding up to the stored order of map entries. -/
theorem decodeStrict_encodeCanonical_sortMaps {limits : Limits} {value : CborValue}
    (distinct : value.Everywhere DistinctEntries) (negative : value.Everywhere NegativeNint)
    (within : WithinLimits limits value) :
    decodeStrict (encodeCanonical value) limits = .ok value.sortMaps := by
  have canonical : Canonical limits value.sortMaps := fun part member =>
    { ordered := orderedEntries_sortMaps value part member
      distinct := everywhere_sortMaps distinctEntries_sortMaps distinct part member
      negative := everywhere_sortMaps negativeNint_sortMaps negative part member
      admitted := everywhere_sortMaps (admits_sortMaps limits) within.extents part member }
  have same : encodeCanonical value.sortMaps = encodeCanonical value := encodeValue_sortMaps value
  rw [← same]
  refine decodeStrict_encodeCanonical canonical ((nesting_sortMaps_le value).trans within.depth) ?_
  rw [same]
  exact within.size

/-- Decoding an encoding returns the value with every map put in encoded-key order. -/
theorem decodeStrict_undoes_encodeCanonical (limits : Limits) (value : CborValue)
    (distinct : value.Everywhere DistinctEntries) (negative : value.Everywhere NegativeNint)
    (within : WithinLimits limits value) :
    decodeStrict (encodeCanonical value) limits = .ok value.sortMaps ∧
      value.sortMaps.Everywhere OrderedEntries :=
  ⟨decodeStrict_encodeCanonical_sortMaps distinct negative within, orderedEntries_sortMaps value⟩

/-- A map out of order, with a map out of order as one of its keys. -/
def unorderedExample : CborValue :=
  .map [(.text "b", .nint (-500)),
    (.map [(.uint 300, .null), (.uint 1, .bool true)], .array [.bytes [1, 2], .map []]),
    (.text "a", .uint 65536)]

theorem unorderedExample_round_trip :
    unorderedExample.sortMaps ≠ unorderedExample ∧
      decodeStrict (encodeCanonical unorderedExample) Limits.default = .ok unorderedExample.sortMaps ∧
      unorderedExample.sortMaps.Everywhere OrderedEntries :=
  ⟨by decide +kernel,
    decodeStrict_undoes_encodeCanonical Limits.default unorderedExample (by decide +kernel)
      (by decide +kernel) ⟨by decide +kernel, by decide +kernel, by decide +kernel⟩⟩

end ProofEngine
