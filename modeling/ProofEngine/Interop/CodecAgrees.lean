import ProofEngine.Format.CborInjective
import ProofEngine.Interop.MiniCbor

/-! # Two codecs, one language

Both decoders accept the canonical encodings of the values without containers as keys.  One direction
follows the second decoder: what it reads and encodes again is a value of the first, in canonical form.
The other runs it on the canonical encoding of such a value. -/

namespace ProofEngine.Interop

open StableSort Text CborValue

/-! ## Corresponding values -/

mutual

/-- The value as the second codec has it; both kinds of integer become one. -/
def toPython : CborValue → Value
  | .uint n => .int n.toNat
  | .nint n => .int n.toInt
  | .text s => .str s
  | .bytes b => .bytes b
  | .array items => .list (toPythonItems items)
  | .map pairs => .map (toPythonPairs pairs)
  | .bool b => .bool b
  | .null => .none

def toPythonItems : List CborValue → List Value
  | [] => []
  | item :: items => toPython item :: toPythonItems items

def toPythonPairs : List (CborValue × CborValue) → List (Value × Value)
  | [] => []
  | (key, value) :: pairs => (toPython key, toPython value) :: toPythonPairs pairs

end

/-- No container. -/
def Scalar : CborValue → Prop
  | .array _ => False
  | .map _ => False
  | _ => True

/-- A map whose keys are no containers. -/
def ScalarKeys : CborValue → Prop
  | .map pairs => ∀ pair ∈ pairs, Scalar pair.1
  | _ => True

theorem length_toPythonItems (items : List CborValue) : (toPythonItems items).length = items.length := by
  induction items with
  | nil => rfl
  | cons item items inductionHypothesis => rw [toPythonItems, List.length_cons, inductionHypothesis, List.length_cons]

theorem length_toPythonPairs (pairs : List (CborValue × CborValue)) : (toPythonPairs pairs).length = pairs.length := by
  induction pairs with
  | nil => rfl
  | cons pair pairs inductionHypothesis => rw [toPythonPairs, List.length_cons, inductionHypothesis, List.length_cons]

/-! ## Heads -/

theorem head_eq (maj : UInt8) {n : Nat} (small : n < 2 ^ 64) : head maj n = .ok (encodeHead maj (UInt64.ofNat n)) := by
  have value : (UInt64.ofNat n).toNat = n := UInt64.toNat_ofNat_of_lt' small
  have direct : n < 24 → (UInt64.ofNat n).toUInt8 = UInt8.ofNat n := by
    intro short
    apply UInt8.toNat_inj.mp
    rw [UInt64.toNat_toUInt8, value, UInt8.toNat_ofNat']
  have single : Bytes.bigEndian 1 n = [(UInt64.ofNat n).toUInt8] := by
    simp [Bytes.bigEndian]
  simp only [head, encodeHead, UInt64.lt_iff_toNat_lt, UInt64.le_iff_toNat_le, value]
  split_ifs
  all_goals grind

theorem head_lt {maj : UInt8} {n : Nat} {out : Bytes} (done : head maj n = .ok out) : n < 2 ^ 64 := by
  unfold head at done
  split_ifs at done
  all_goals omega

theorem arg_word {ai : UInt8} {width n : Nat} (wide : ¬ ai ≤ 23) (found : argWidth ai = .ok width)
    (fits : n < 256 ^ width) (rest : Bytes) : arg ai (Bytes.bigEndian width n ++ rest) = .ok (n, rest) := by
  have length := Bytes.bigEndian_length width n
  have enough : ¬ (Bytes.bigEndian width n ++ rest).length < width := by simp
  rw [arg, if_neg wide, found, ok_bind, if_neg enough, List.take_left' length, List.drop_left' length,
    Bytes.wordValue_bigEndian, Nat.mod_eq_of_lt fits]

/-- A head the engine reads is read as the same argument, and it passes the test for integers. -/
theorem arg_of_readArg {ai : UInt8} {n : UInt64} {buf rest : Bytes} (done : readArg ai buf = .ok (n, rest)) :
    arg ai buf = .ok (n.toNat, rest) ∧ leastArg ai ≤ n.toNat := by
  simp only [readArg] at done
  split_ifs at done with direct one two four eight
  · cases done
    simp [arg, leastArg, direct]
  · obtain ⟨low, high, rfl⟩ := readWord_eq_ok (by decide) done
    subst one
    exact ⟨arg_word direct rfl high rest, low⟩
  · obtain ⟨low, high, rfl⟩ := readWord_eq_ok (by decide) done
    subst two
    exact ⟨arg_word direct rfl high rest, low⟩
  · obtain ⟨low, high, rfl⟩ := readWord_eq_ok (by decide) done
    subst four
    exact ⟨arg_word direct rfl high rest, low⟩
  · obtain ⟨low, high, rfl⟩ := readWord_eq_ok (by decide) done
    subst eight
    exact ⟨arg_word direct rfl high rest, low⟩

theorem argWidth_le {ai : UInt8} {width : Nat} (found : argWidth ai = .ok width) : width ≤ 8 := by
  unfold argWidth at found
  split_ifs at found
  all_goals
    cases found
    decide

theorem arg_lt {ai : UInt8} {n : Nat} {buf rest : Bytes} (done : arg ai buf = .ok (n, rest)) : n < 2 ^ 64 := by
  unfold arg at done
  split_ifs at done with direct
  · cases done
    exact ai.toNat_lt.trans (by decide)
  · obtain ⟨width, found, done⟩ := bind_eq_ok.mp done
    split_ifs at done
    cases done
    have narrow : (buf.take width).length ≤ 8 := (List.length_take_le _ _).trans (argWidth_le found)
    exact (Bytes.wordValue_lt _).trans_le (Nat.pow_le_pow_right (by decide) narrow)

/-! ## What the second codec accepts -/

/-- Limits that leave only the 64-bit lengths. -/
def unbounded : Limits :=
  { Limits.default with
    maxFieldSize := UInt64.ofNat (2 ^ 64 - 1)
    maxArrayItems := UInt64.ofNat (2 ^ 64 - 1)
    maxMapEntries := UInt64.ofNat (2 ^ 64 - 1) }

/-- `out` is the canonical encoding of a value that corresponds to `v` and fits in `room` levels. -/
structure Rebuilds (room : Nat) (value : CborValue) (v : Value) (out : Bytes) : Prop where
  corresponds : toPython value = v
  canonical : Canonical unbounded value
  nesting : value.nesting < room
  encoded : out = encodeValue value

theorem encAny_of_enc {v : Value} {out : Bytes} (done : enc v = .ok out) : encAny v = .ok out := by
  cases v with
  | list items => cases done
  | map pairs => cases done
  | _ => exact done

section
variable {nested : Bytes → Py (Value × Bytes)} {room : Nat}

theorem decInt_rebuilds {negative : Bool} {ai : UInt8} {buf rest out : Bytes} {v : Value}
    (done : decInt negative ai buf = .ok (v, rest)) (again : encAny v = .ok out) :
    ∃ value, Rebuilds (room + 1) value v out := by
  simp only [decInt, bind_eq_ok] at done
  obtain ⟨⟨n, after⟩, argDone, done⟩ := done
  have small := arg_lt argDone
  simp only at done
  split at done
  · cases done
  · cases negative with
    | false =>
      simp only [Bool.false_eq_true, if_false] at done
      cases done
      have value : (UInt64.ofNat n).toNat = n := UInt64.toNat_ofNat_of_lt' small
      refine ⟨.uint (UInt64.ofNat n), by rw [toPython, value], canonical_uint _, Nat.succ_pos _, ?_⟩
      rw [encAny, enc, if_pos (Int.natCast_nonneg n), Int.toNat_natCast, head_eq 0 small] at again
      cases again
      rfl
    | true =>
      simp only [if_true] at done
      cases done
      have below : ¬ (0 : Int) ≤ -1 - n := by omega
      have argument : (-1 - (-1 - (n : Int))).toNat = n := by omega
      rw [encAny, enc, if_neg below, argument, head_eq 1 small] at again
      split at again
      · cases again
      · cases again
        rename_i range
        -- the encoder's bound is the one of the engine's integers
        have back : (Int64.ofInt (-1 - (n : Int))).toInt = -1 - (n : Int) :=
          Int64.toInt_ofInt_of_le (by simp; omega) (by simp; omega)
        refine ⟨.nint (Int64.ofInt (-1 - n)), by rw [toPython, back], canonical_nint (by omega), Nat.succ_pos _, ?_⟩
        rw [encodeValue, back, if_neg below, argument]

theorem decString_rebuilds {isText : Bool} {ai : UInt8} {buf rest out : Bytes} {v : Value}
    (done : decString isText ai buf = .ok (v, rest)) (again : encAny v = .ok out) :
    ∃ value, Rebuilds (room + 1) value v out := by
  simp only [decString, bind_eq_ok] at done
  obtain ⟨⟨n, after⟩, argDone, done⟩ := done
  have small := arg_lt argDone
  have limit : unbounded.maxFieldSize.toNat = 2 ^ 64 - 1 := rfl
  split_ifs at done with short text
  · split at done
    · rename_i s spelled
      cases done
      have length : len s ≤ n := by
        rw [len, fromUtf8_eq_some.mp spelled]
        exact List.length_take_le _ _
      refine ⟨.text s, rfl, canonical_text (by omega), Nat.succ_pos _, ?_⟩
      simp only [encAny, enc, head_eq 3 (length.trans_lt small)] at again
      cases again
      rfl
    · cases done
  · cases done
    have length : (after.take n).length ≤ n := List.length_take_le _ _
    refine ⟨.bytes (after.take n), rfl, canonical_bytes (by omega), Nat.succ_pos _, ?_⟩
    simp only [encAny, enc, head_eq 2 (length.trans_lt small)] at again
    cases again
    rfl

theorem decItems_rebuilds
    (step : ∀ buf v rest out, nested buf = .ok (v, rest) → encAny v = .ok out →
      ∃ value, Rebuilds room value v out) :
    ∀ {n : Nat} {buf rest out : Bytes} {items : List Value}, decItems nested n buf = .ok (items, rest) →
      encItems items = .ok out → ∃ values, toPythonItems values = items ∧ values.length = n ∧
        (∀ value ∈ values, Canonical unbounded value ∧ value.nesting < room) ∧ out = values.flatMap encodeValue
  | 0, _, _, _, _, done, again => by
    cases done
    cases again
    exact ⟨[], rfl, rfl, by simp, rfl⟩
  | n + 1, _, _, _, _, done, again => by
    simp only [decItems, bind_eq_ok] at done
    obtain ⟨⟨item, _⟩, itemDone, ⟨items, _⟩, itemsDone, done⟩ := done
    cases done
    simp only [encItems, bind_eq_ok] at again
    obtain ⟨bytes, itemAgain, others, itemsAgain, again⟩ := again
    cases again
    obtain ⟨value, rfl, canonical, nesting, rfl⟩ := step _ _ _ _ itemDone itemAgain
    obtain ⟨values, rfl, length, each, rfl⟩ := decItems_rebuilds step itemsDone itemsAgain
    exact ⟨value :: values, rfl, by rw [List.length_cons, length],
      List.forall_mem_cons.mpr ⟨⟨canonical, nesting⟩, each⟩, rfl⟩

theorem checkKey_eq_ok {previous : Option Bytes} {key : Bytes} {nothing : Unit} :
    checkKey previous key = .ok nothing ↔ ∀ bound ∈ previous, bound < key := by
  cases previous with
  | none => simp [checkKey]
  | some previous =>
    simp only [checkKey, Option.mem_some_iff, forall_eq']
    split_ifs with equal below
    · simp [equal]
    · simp [below.asymm]
    · simp [lt_of_le_of_ne (not_lt.mp below) (Ne.symm equal)]

/-- Entries pass in ascending order of their encoded keys only. -/
theorem decPairs_ascending : ∀ {n : Nat} {previous : Option Bytes} {buf rest : Bytes}
    {pairs : List (Value × Value)} {entries : List (Bytes × Py Bytes)},
    decPairs nested n previous buf = .ok (pairs, rest) → encEntries pairs = .ok entries →
      entries.Pairwise (fun left right => left.1 < right.1) ∧
        ∀ bound ∈ previous, ∀ entry ∈ entries, bound < entry.1
  | 0, _, _, _, _, _, done, again => by
    cases done
    cases again
    exact ⟨List.Pairwise.nil, by simp⟩
  | n + 1, previous, _, _, _, _, done, again => by
    simp only [decPairs, bind_eq_ok] at done
    obtain ⟨⟨key, _⟩, _, ⟨value, _⟩, _, keyBytes, keyAgain, _, order, ⟨pairs, _⟩, pairsDone, done⟩ := done
    cases done
    simp only [encEntries, bind_eq_ok] at again
    obtain ⟨_, keyTwice, others, othersAgain, again⟩ := again
    cases again
    cases keyAgain.symm.trans keyTwice
    obtain ⟨ascending, above⟩ := decPairs_ascending pairsDone othersAgain
    have first := checkKey_eq_ok.mp order
    have below : ∀ entry ∈ others, keyBytes < entry.1 := above keyBytes rfl
    refine ⟨List.pairwise_cons.mpr ⟨below, ascending⟩, fun bound bounded => ?_⟩
    exact List.forall_mem_cons.mpr
      ⟨first bound bounded, fun entry member => (first bound bounded).trans (below entry member)⟩

theorem decPairs_rebuilds
    (step : ∀ buf v rest out, nested buf = .ok (v, rest) → encAny v = .ok out →
      ∃ value, Rebuilds room value v out) :
    ∀ {n : Nat} {previous : Option Bytes} {buf rest out : Bytes} {pairs : List (Value × Value)}
      {entries : List (Bytes × Py Bytes)},
      decPairs nested n previous buf = .ok (pairs, rest) → encEntries pairs = .ok entries →
        joinEntries entries = .ok out → ∃ values, toPythonPairs values = pairs ∧ values.length = n ∧
          (∀ pair ∈ values, (Canonical unbounded pair.1 ∧ Canonical unbounded pair.2) ∧
            pair.1.nesting < room ∧ pair.2.nesting < room) ∧
          values.map (fun pair => encodeCanonical pair.1) = entries.map Prod.fst ∧
          out = (values.flatMap fun pair => [pair.1, pair.2]).flatMap encodeValue
  | 0, _, _, _, _, _, _, done, again, joined => by
    cases done
    cases again
    cases joined
    exact ⟨[], rfl, rfl, by simp, rfl, rfl⟩
  | n + 1, _, _, _, _, _, _, done, again, joined => by
    simp only [decPairs, bind_eq_ok] at done
    obtain ⟨⟨key, _⟩, keyDone, ⟨value, _⟩, valueDone, keyBytes, keyAgain, _, _, ⟨pairs, _⟩, pairsDone, done⟩ := done
    cases done
    simp only [encEntries, bind_eq_ok] at again
    obtain ⟨_, keyTwice, others, othersAgain, again⟩ := again
    cases again
    cases keyAgain.symm.trans keyTwice
    simp only [joinEntries, bind_eq_ok] at joined
    obtain ⟨valueBytes, valueAgain, otherBytes, othersJoined, joined⟩ := joined
    cases joined
    obtain ⟨keyValue, rfl, keyCanonical, keyNesting, rfl⟩ := step _ _ _ _ keyDone (encAny_of_enc keyAgain)
    obtain ⟨valueValue, rfl, valueCanonical, valueNesting, rfl⟩ := step _ _ _ _ valueDone valueAgain
    obtain ⟨values, rfl, length, each, keys, rfl⟩ := decPairs_rebuilds step pairsDone othersAgain othersJoined
    refine ⟨(keyValue, valueValue) :: values, rfl, by rw [List.length_cons, length], ?_, ?_, ?_⟩
    · exact List.forall_mem_cons.mpr ⟨⟨⟨keyCanonical, valueCanonical⟩, keyNesting, valueNesting⟩, each⟩
    · rw [List.map_cons, List.map_cons, keys, encodeCanonical]
    · simp

theorem decBody_rebuilds
    (step : ∀ buf v rest out, nested buf = .ok (v, rest) → encAny v = .ok out →
      ∃ value, Rebuilds room value v out)
    {maj : Nat} {ai : UInt8} {buf rest out : Bytes} {v : Value} (done : decBody nested maj ai buf = .ok (v, rest))
    (again : encAny v = .ok out) : ∃ value, Rebuilds (room + 1) value v out := by
  unfold decBody at done
  split at done
  · exact decInt_rebuilds done again
  · exact decInt_rebuilds done again
  · exact decString_rebuilds done again
  · exact decString_rebuilds done again
  · simp only [bind_eq_ok] at done
    obtain ⟨⟨n, after⟩, argDone, ⟨items, _⟩, itemsDone, done⟩ := done
    cases done
    have small := arg_lt argDone
    simp only [encAny, bind_eq_ok] at again
    obtain ⟨lead, leadDone, body, bodyDone, again⟩ := again
    cases again
    rw [head_eq 4 (head_lt leadDone)] at leadDone
    cases leadDone
    obtain ⟨values, rfl, length, each, rfl⟩ := decItems_rebuilds step itemsDone bodyDone
    have admitted : values.length ≤ unbounded.maxArrayItems.toNat := by
      rw [length]
      exact Nat.le_pred_of_lt small
    refine ⟨.array values, by rw [toPython], ?_, ?_, ?_⟩
    · exact everywhere_array.mpr ⟨⟨trivial, trivial, trivial, admitted⟩, fun value member => (each value member).1⟩
    · exact Nat.lt_succ_of_le (nestingItems_le.mpr fun value member => (each value member).2)
    · rw [encodeValue, encodeItems_eq, length_toPythonItems]
  · simp only [bind_eq_ok] at done
    obtain ⟨⟨n, after⟩, argDone, ⟨pairs, _⟩, pairsDone, done⟩ := done
    cases done
    have small := arg_lt argDone
    simp only [encAny, bind_eq_ok] at again
    obtain ⟨entries, entriesDone, _, _, lead, leadDone, body, bodyDone, again⟩ := again
    cases again
    rw [head_eq 5 (head_lt leadDone)] at leadDone
    cases leadDone
    -- the decoder has seen to the order, so sorting changes nothing
    have sorted := (decPairs_ascending pairsDone entriesDone).1
    rw [sortOn_of_strict sorted] at bodyDone
    obtain ⟨values, rfl, length, each, keys, rfl⟩ := decPairs_rebuilds step pairsDone entriesDone bodyDone
    have ascending : Ascending values := by
      have keysSorted := List.pairwise_map.mpr sorted
      rw [← keys] at keysSorted
      exact List.pairwise_map.mp keysSorted
    have admitted : values.length ≤ unbounded.maxMapEntries.toNat := by
      rw [length]
      exact Nat.le_pred_of_lt small
    refine ⟨.map values, by rw [toPython], ?_, ?_, ?_⟩
    · exact everywhere_map.mpr ⟨⟨ascending.ordered, ascending.distinct, trivial, admitted⟩,
        fun pair member => (each pair member).1⟩
    · exact Nat.lt_succ_of_le (nestingPairs_le.mpr fun pair member => (each pair member).2)
    · rw [encodeValue_map_of_ordered ascending.ordered, length_toPythonPairs]
  · split_ifs at done with isFalse isTrue isNone
    · cases done
      cases again
      exact ⟨.bool false, rfl, canonical_bool false, Nat.succ_pos _, rfl⟩
    · cases done
      cases again
      exact ⟨.bool true, rfl, canonical_bool true, Nat.succ_pos _, rfl⟩
    · cases done
      cases again
      exact ⟨.null, rfl, canonical_null, Nat.succ_pos _, rfl⟩
    · cases done
  · cases done

theorem dec_rebuilds : ∀ (room : Nat) (buf : Bytes) (v : Value) (rest out : Bytes),
    dec room buf = .ok (v, rest) → encAny v = .ok out → ∃ value, Rebuilds room value v out
  | 0, _, _, _, _, done, _ => by simp [dec] at done
  | _ + 1, [], _, _, _, done, _ => by simp [dec] at done
  | room + 1, _ :: _, _, _, _, done, again => decBody_rebuilds (dec_rebuilds room) done again

end

/-! ## Limits that fit an input -/

theorem length_encodeValue_pos (value : CborValue) : 0 < (encodeValue value).length := by
  cases value with
  | bool b => cases b <;> exact Nat.succ_pos _
  | null => exact Nat.succ_pos _
  | nint n =>
    rw [encodeValue]
    split
    · simp [encodeHead_eq]
    · simp [encodeHead_eq]
  | _ => simp [encodeValue, encodeHead_eq]

theorem length_le_flatMap_encodeValue (items : List CborValue) : items.length ≤ (items.flatMap encodeValue).length := by
  induction items with
  | nil => exact Nat.le_refl _
  | cons item items inductionHypothesis =>
    have here := length_encodeValue_pos item
    rw [List.flatMap_cons, List.length_append, List.length_cons]
    omega

theorem length_le_of_mem_flatMap {items : List CborValue} {item : CborValue} (member : item ∈ items) :
    (encodeValue item).length ≤ (items.flatMap encodeValue).length := by
  obtain ⟨before, after, rfl⟩ := List.append_of_mem member
  simp only [List.flatMap_append, List.flatMap_cons, List.length_append]
  omega

/-- Nothing in a value is longer than its encoding. -/
theorem everywhere_extent_le {value : CborValue} {bound : Nat} (ordered : value.Everywhere OrderedEntries)
    (fits : (encodeValue value).length ≤ bound) : value.Everywhere fun part => part.extent ≤ bound := by
  induction value using CborValue.inductOn with
  | uint n => exact everywhere_uint.mpr (Nat.zero_le _)
  | nint n => exact everywhere_nint.mpr (Nat.zero_le _)
  | bool b => exact everywhere_bool.mpr (Nat.zero_le _)
  | null => exact everywhere_null.mpr (Nat.zero_le _)
  | text s =>
    simp only [encodeValue, List.length_append] at fits
    exact everywhere_text.mpr ((Nat.le_add_left _ _).trans fits)
  | bytes b =>
    simp only [encodeValue, List.length_append] at fits
    exact everywhere_bytes.mpr ((Nat.le_add_left _ _).trans fits)
  | array items inductionHypothesis =>
    have nested := (everywhere_array.mp ordered).2
    rw [encodeValue, encodeItems_eq, List.length_append] at fits
    have count := length_le_flatMap_encodeValue items
    refine everywhere_array.mpr ⟨show items.length ≤ bound by omega, fun item member => ?_⟩
    have within := length_le_of_mem_flatMap member
    exact inductionHypothesis item member (nested item member) (by omega)
  | map pairs inductionHypothesis =>
    obtain ⟨here, nested⟩ := everywhere_map.mp ordered
    rw [encodeValue_map_of_ordered here, List.length_append] at fits
    have count := length_le_flatMap_encodeValue (pairs.flatMap fun pair => [pair.1, pair.2])
    have twice := length_flatten_entries pairs
    refine everywhere_map.mpr ⟨show pairs.length ≤ bound by omega, fun pair member => ?_⟩
    have keyMember : pair.1 ∈ pairs.flatMap fun pair => [pair.1, pair.2] :=
      List.mem_flatMap.mpr ⟨pair, member, List.mem_cons_self⟩
    have valueMember : pair.2 ∈ pairs.flatMap fun pair => [pair.1, pair.2] :=
      List.mem_flatMap.mpr ⟨pair, member, List.mem_cons_of_mem _ List.mem_cons_self⟩
    have keyWithin := length_le_of_mem_flatMap keyMember
    have valueWithin := length_le_of_mem_flatMap valueMember
    obtain ⟨keyFits, valueFits⟩ := inductionHypothesis pair member
    obtain ⟨keyOrdered, valueOrdered⟩ := nested pair member
    exact ⟨keyFits keyOrdered (by omega), valueFits valueOrdered (by omega)⟩

/-- Limits that leave room for anything of this length. -/
structure Sufficient (limits : Limits) (raw : Bytes) : Prop where
  proofSize : raw.length ≤ limits.maxProofSize.toNat
  fieldSize : raw.length ≤ limits.maxFieldSize.toNat
  arrayItems : raw.length ≤ limits.maxArrayItems.toNat
  mapEntries : raw.length ≤ limits.maxMapEntries.toNat

theorem Canonical.of_sufficient {limits other : Limits} {value : CborValue} (canonical : Canonical other value)
    (sufficient : Sufficient limits (encodeValue value)) : Canonical limits value := by
  have extents := everywhere_extent_le canonical.ordered (Nat.le_refl _)
  intro part member
  have here := canonical part member
  have extent := extents part member
  refine ⟨here.ordered, here.distinct, here.negative, ?_⟩
  cases part with
  | text s => exact extent.trans sufficient.fieldSize
  | bytes b => exact extent.trans sufficient.fieldSize
  | array items => exact extent.trans sufficient.arrayItems
  | map pairs => exact extent.trans sufficient.mapEntries
  | _ => exact Nat.zero_le _

theorem parseStage_eq_ok {α : Type} {result : Py α} {v : α} : parseStage result = .ok v ↔ result = .ok v := by
  cases result with
  | ok found => simp [parseStage]
  | error raised => cases raised <;> simp [parseStage]

theorem checkCanonical_eq_ok {raw : Bytes} {v : Value} : checkCanonical raw = .ok v ↔
    dec (maxDepth + 1) raw = .ok (v, []) ∧ encAny v = .ok raw := by
  simp only [checkCanonical, decStrict, bind_eq_ok, parseStage_eq_ok]
  constructor
  · rintro ⟨_, ⟨⟨found, rest⟩, decoded, strict⟩, out, again, done⟩
    simp only at strict
    split_ifs at strict with finished
    cases strict
    split_ifs at done with same
    cases done
    rw [not_not] at finished same
    exact ⟨finished ▸ decoded, same ▸ again⟩
  · rintro ⟨decoded, again⟩
    exact ⟨v, ⟨(v, []), decoded, rfl⟩, raw, again, if_neg (not_not.mpr rfl)⟩

/-! ## Canonical encodings in the second codec -/

theorem arg_headWord (n : UInt64) (rest : Bytes) :
    arg (headInfo n) (headWord n ++ rest) = .ok (n.toNat, rest) ∧ leastArg (headInfo n) ≤ n.toNat :=
  arg_of_readArg (readArg_headWord n rest)

theorem dec_encodeHead {maj : UInt8} (small : maj < 8) (n : UInt64) (room : Nat) (rest : Bytes) :
    dec (room + 1) (encodeHead maj n ++ rest) = decBody (dec room) maj.toNat (headInfo n) (headWord n ++ rest) := by
  rw [encodeHead_eq, List.cons_append, dec, initialByte_major small (headInfo_lt n),
    initialByte_info small (headInfo_lt n)]

section
variable {limits : Limits}

theorem enc_toPython {value : CborValue} (negative : value.NegativeNint) (addressable : value.Addressable)
    (scalar : Scalar value) : enc (toPython value) = .ok (encodeValue value) := by
  cases value with
  | uint n => simp [toPython, enc, encodeValue, head_eq 0 n.toNat_lt]
  | nint n =>
    have below : n.toInt < 0 := negative
    have lower := n.le_toInt
    rw [toPython, enc, encodeValue, if_neg (by omega), if_neg (by omega), if_neg (by omega), head_eq 1 (by omega)]
  | text s => simp [toPython, enc, encodeValue, head_eq 3 (show len s < 2 ^ 64 from addressable), Except.map]
  | bytes b => simp [toPython, enc, encodeValue, head_eq 2 (show b.length < 2 ^ 64 from addressable), Except.map]
  | bool b => cases b <;> rfl
  | null => rfl
  | array items => exact absurd scalar id
  | map pairs => exact absurd scalar id

theorem encItems_toPython {items : List CborValue}
    (each : ∀ item ∈ items, encAny (toPython item) = .ok (encodeValue item)) :
    encItems (toPythonItems items) = .ok (items.flatMap encodeValue) := by
  induction items with
  | nil => rfl
  | cons item items inductionHypothesis =>
    obtain ⟨here, others⟩ := List.forall_mem_cons.mp each
    rw [toPythonItems, encItems, here, ok_bind, inductionHypothesis others]
    rfl

theorem encEntries_toPython {pairs : List (CborValue × CborValue)}
    (each : ∀ pair ∈ pairs, enc (toPython pair.1) = .ok (encodeValue pair.1) ∧
      encAny (toPython pair.2) = .ok (encodeValue pair.2)) :
    encEntries (toPythonPairs pairs) = .ok (pairs.map fun pair => (encodeValue pair.1, .ok (encodeValue pair.2))) := by
  induction pairs with
  | nil => rfl
  | cons pair pairs inductionHypothesis =>
    obtain ⟨⟨key, value⟩, others⟩ := List.forall_mem_cons.mp each
    rw [toPythonPairs, encEntries, key, ok_bind, inductionHypothesis others, value]
    rfl

theorem checkSorted_of_strict {α : Type} {entries : List (Bytes × α)} {previous : Option Bytes}
    (ascending : entries.Pairwise fun left right => left.1 < right.1)
    (above : ∀ bound ∈ previous, ∀ entry ∈ entries, bound < entry.1) : checkSorted previous entries = .ok () := by
  induction entries generalizing previous with
  | nil => rfl
  | cons entry entries inductionHypothesis =>
    obtain ⟨first, others⟩ := List.pairwise_cons.mp ascending
    have fresh : previous ≠ some entry.1 := fun same =>
      absurd (above entry.1 same entry List.mem_cons_self) (lt_irrefl _)
    have inOrder : ¬ (previous.any fun key => entry.1 < key) = true := by
      cases previous with
      | none => simp
      | some bound => simpa using (above bound rfl entry List.mem_cons_self).asymm
    rw [checkSorted, if_neg fresh, if_neg inOrder]
    refine inductionHypothesis others fun bound bounded => ?_
    cases bounded
    exact first

theorem joinEntries_encoded (pairs : List (CborValue × CborValue)) :
    joinEntries (pairs.map fun pair => (encodeValue pair.1, .ok (encodeValue pair.2))) =
      .ok (joinPairs (pairs.map fun pair => (encodeValue pair.1, encodeValue pair.2))) := by
  induction pairs with
  | nil => rfl
  | cons pair pairs inductionHypothesis =>
    rw [List.map_cons, joinEntries, ok_bind, inductionHypothesis]
    simp [joinPairs]

/-- The second encoder puts the entries of a map in order before it compares neighbours. -/
theorem encAny_toPython {value : CborValue} (distinct : value.Everywhere DistinctEntries)
    (negative : value.Everywhere NegativeNint) (addressable : value.Everywhere Addressable)
    (scalarKeys : value.Everywhere ScalarKeys) : encAny (toPython value) = .ok (encodeValue value) := by
  induction value using CborValue.inductOn with
  | array items inductionHypothesis =>
    have size : items.length < 2 ^ 64 := addressable.self
    have body := encItems_toPython fun item member =>
      inductionHypothesis item member ((everywhere_array.mp distinct).2 item member)
        ((everywhere_array.mp negative).2 item member) ((everywhere_array.mp addressable).2 item member)
        ((everywhere_array.mp scalarKeys).2 item member)
    rw [toPython, encAny, length_toPythonItems, head_eq 4 size, ok_bind, body, ok_bind, encodeValue,
      encodeItems_eq]
  | map pairs inductionHypothesis =>
    have size : pairs.length < 2 ^ 64 := addressable.self
    obtain ⟨here, nestedDistinct⟩ := everywhere_map.mp distinct
    have nestedNegative := (everywhere_map.mp negative).2
    have nestedAddressable := (everywhere_map.mp addressable).2
    obtain ⟨keys, nestedKeys⟩ := everywhere_map.mp scalarKeys
    have entries := encEntries_toPython fun pair member =>
      ⟨enc_toPython (nestedNegative pair member).1.self (nestedAddressable pair member).1.self (keys pair member),
        (inductionHypothesis pair member).2 (nestedDistinct pair member).2 (nestedNegative pair member).2
          (nestedAddressable pair member).2 (nestedKeys pair member).2⟩
    -- sorted by their distinct keys the entries ascend
    have sorted := sortOn_map (Prod.fst : Bytes × Py Bytes → Bytes)
      (fun pair : CborValue × CborValue => (encodeValue pair.1, (.ok (encodeValue pair.2) : Py Bytes))) pairs
    have strict : (sortOn (fun pair => encodeValue pair.1) pairs).Pairwise
        fun left right => encodeValue left.1 < encodeValue right.1 := sortOn_strict here
    have checked : checkSorted none ((sortOn (fun pair => encodeValue pair.1) pairs).map fun pair =>
        (encodeValue pair.1, (.ok (encodeValue pair.2) : Py Bytes))) = .ok () :=
      checkSorted_of_strict (List.pairwise_map.mpr strict) (by simp)
    rw [toPython, encAny, entries, ok_bind, sorted, checked, ok_bind, length_toPythonPairs, head_eq 5 size,
      ok_bind, joinEntries_encoded, ok_bind, encodeValue_map]
  | _ => exact encAny_of_enc (enc_toPython negative.self addressable.self trivial)

theorem Canonical.encAny_toPython {value : CborValue} (canonical : Canonical limits value)
    (scalarKeys : value.Everywhere ScalarKeys) : encAny (toPython value) = .ok (encodeValue value) :=
  Interop.encAny_toPython (fun part member => (canonical part member).distinct)
    (fun part member => (canonical part member).negative) canonical.addressable scalarKeys

theorem decItems_encode {nested : Bytes → Py (Value × Bytes)} {items : List CborValue}
    (complete : ∀ item ∈ items, ∀ rest, nested (encodeValue item ++ rest) = .ok (toPython item, rest)) (rest : Bytes) :
    decItems nested items.length (items.flatMap encodeValue ++ rest) = .ok (toPythonItems items, rest) := by
  induction items with
  | nil => rfl
  | cons item items inductionHypothesis =>
    obtain ⟨here, others⟩ := List.forall_mem_cons.mp complete
    rw [List.length_cons, decItems, List.flatMap_cons, List.append_assoc, here, ok_bind]
    simp only [inductionHypothesis others, ok_bind, toPythonItems]

theorem decPairs_encode {nested : Bytes → Py (Value × Bytes)} {pairs : List (CborValue × CborValue)}
    (complete : ∀ pair ∈ pairs, ∀ rest, nested (encodeValue pair.1 ++ rest) = .ok (toPython pair.1, rest) ∧
      nested (encodeValue pair.2 ++ rest) = .ok (toPython pair.2, rest))
    (keys : ∀ pair ∈ pairs, enc (toPython pair.1) = .ok (encodeValue pair.1)) (ascending : Ascending pairs)
    {previous : Option Bytes} (above : ∀ bound ∈ previous, ∀ pair ∈ pairs, bound < encodeCanonical pair.1)
    (rest : Bytes) :
    decPairs nested pairs.length previous ((pairs.flatMap fun pair => [pair.1, pair.2]).flatMap encodeValue ++ rest) =
      .ok (toPythonPairs pairs, rest) := by
  induction pairs generalizing previous with
  | nil => rfl
  | cons pair pairs inductionHypothesis =>
    obtain ⟨here, others⟩ := List.forall_mem_cons.mp complete
    obtain ⟨keyHere, otherKeys⟩ := List.forall_mem_cons.mp keys
    obtain ⟨below, othersAscending⟩ := List.pairwise_cons.mp ascending
    have order : checkKey previous (encodeValue pair.1) = .ok () :=
      checkKey_eq_ok.mpr fun bound bounded => above bound bounded pair List.mem_cons_self
    have othersAbove : ∀ bound ∈ some (encodeValue pair.1), ∀ later ∈ pairs, bound < encodeCanonical later.1 := by
      intro bound bounded
      cases bounded
      exact below
    simp only [List.length_cons, decPairs, List.flatMap_cons, List.append_assoc, List.cons_append, List.nil_append,
      (here _).1, (here _).2, keyHere, order, ok_bind, inductionHypothesis others otherKeys othersAscending othersAbove,
      toPythonPairs]

/-- The second decoder reads a canonical encoding back, whatever follows it. -/
theorem dec_encodeValue {value : CborValue} (canonical : Canonical limits value)
    (scalarKeys : value.Everywhere ScalarKeys) {room : Nat} (depth : value.nesting ≤ room) (rest : Bytes) :
    dec (room + 1) (encodeValue value ++ rest) = .ok (toPython value, rest) := by
  have addressable : value.extent < 2 ^ 64 := canonical.addressable.self
  have extents : (UInt64.ofNat value.extent).toNat = value.extent := UInt64.toNat_ofNat_of_lt' addressable
  induction value using CborValue.inductOn generalizing room rest with
  | uint n =>
    obtain ⟨read, least⟩ := arg_headWord n rest
    rw [encodeValue, dec_encodeHead (by decide)]
    simp [decBody, decInt, read, not_lt.mpr least, toPython]
  | nint n =>
    have negative : n.toInt < 0 := canonical.self.negative
    have lower := n.le_toInt
    obtain ⟨read, least⟩ := arg_headWord (UInt64.ofNat (-1 - n.toInt).toNat) rest
    have argument : (UInt64.ofNat (-1 - n.toInt).toNat).toNat = (-1 - n.toInt).toNat :=
      UInt64.toNat_ofNat_of_lt' (by rw [UInt64.size]; omega)
    have back : -1 - ((-1 - n.toInt).toNat : Int) = n.toInt := by omega
    rw [encodeValue, if_neg (by omega), dec_encodeHead (by decide)]
    rw [argument] at read least
    simp only [decBody, decInt, UInt8.toNat_one, read, ok_bind, if_neg (not_lt.mpr least), if_true, back, toPython]
  | text s =>
    obtain ⟨read, _⟩ := arg_headWord (UInt64.ofNat (len s)) (utf8 s ++ rest)
    have length : (utf8 s).length = len s := rfl
    rw [show (UInt64.ofNat (len s)).toNat = len s from extents] at read
    rw [encodeValue, List.append_assoc, dec_encodeHead (by decide)]
    simp [decBody, decString, read, toPython, List.take_left' length, List.drop_left' length, length]
  | bytes b =>
    obtain ⟨read, _⟩ := arg_headWord (UInt64.ofNat b.length) (b ++ rest)
    rw [show (UInt64.ofNat b.length).toNat = b.length from extents] at read
    rw [encodeValue, List.append_assoc, dec_encodeHead (by decide)]
    simp [decBody, decString, read, toPython]
  | bool b => cases b <;> rfl
  | null => rfl
  | array items inductionHypothesis =>
    have nested : ∀ item ∈ items, Canonical limits item := (everywhere_array.mp canonical).2
    have nestedKeys := (everywhere_array.mp scalarKeys).2
    have shallow := nestingItems_le.mp depth
    have complete : ∀ item ∈ items, ∀ rest, dec room (encodeValue item ++ rest) = .ok (toPython item, rest) := by
      intro item member rest
      have itemShallow := shallow item member
      have itemAddressable : item.extent < 2 ^ 64 := (nested item member).addressable.self
      cases room with
      | zero => omega
      | succ room =>
        exact inductionHypothesis item member (nested item member) (nestedKeys item member)
          (Nat.le_of_succ_le_succ itemShallow) rest itemAddressable (UInt64.toNat_ofNat_of_lt' itemAddressable)
    obtain ⟨read, _⟩ := arg_headWord (UInt64.ofNat items.length) (items.flatMap encodeValue ++ rest)
    rw [show (UInt64.ofNat items.length).toNat = items.length from extents] at read
    rw [encodeValue, encodeItems_eq, List.append_assoc, dec_encodeHead (by decide)]
    simp [decBody, read, decItems_encode complete, toPython]
  | map pairs inductionHypothesis =>
    obtain ⟨here, nested⟩ := everywhere_map.mp canonical
    obtain ⟨keys, nestedKeys⟩ := everywhere_map.mp scalarKeys
    have shallow := nestingPairs_le.mp depth
    have complete : ∀ pair ∈ pairs, ∀ rest, dec room (encodeValue pair.1 ++ rest) = .ok (toPython pair.1, rest) ∧
        dec room (encodeValue pair.2 ++ rest) = .ok (toPython pair.2, rest) := by
      intro pair member rest
      obtain ⟨keyShallow, valueShallow⟩ := shallow pair member
      obtain ⟨keyCanonical, valueCanonical⟩ := nested pair member
      obtain ⟨keyKeys, valueKeys⟩ := nestedKeys pair member
      obtain ⟨keyDone, valueDone⟩ := inductionHypothesis pair member
      have keyAddressable : pair.1.extent < 2 ^ 64 := (Canonical.addressable keyCanonical).self
      have valueAddressable : pair.2.extent < 2 ^ 64 := (Canonical.addressable valueCanonical).self
      cases room with
      | zero => omega
      | succ room =>
        exact ⟨keyDone keyCanonical keyKeys (Nat.le_of_succ_le_succ keyShallow) rest keyAddressable
            (UInt64.toNat_ofNat_of_lt' keyAddressable),
          valueDone valueCanonical valueKeys (Nat.le_of_succ_le_succ valueShallow) rest valueAddressable
            (UInt64.toNat_ofNat_of_lt' valueAddressable)⟩
    have encodedKeys : ∀ pair ∈ pairs, enc (toPython pair.1) = .ok (encodeValue pair.1) := fun pair member =>
      enc_toPython (nested pair member).1.self.negative
          (Canonical.addressable (nested pair member).1).self (keys pair member)
    have ascending : Ascending pairs := ascending_of_distinct here.ordered here.distinct
    have entriesDone : decPairs (dec room) pairs.length none
        ((pairs.flatMap fun pair => [pair.1, pair.2]).flatMap encodeValue ++ rest) = .ok (toPythonPairs pairs, rest) :=
      decPairs_encode complete encodedKeys ascending (by simp) rest
    obtain ⟨read, _⟩ := arg_headWord (UInt64.ofNat pairs.length)
      ((pairs.flatMap fun pair => [pair.1, pair.2]).flatMap encodeValue ++ rest)
    rw [show (UInt64.ofNat pairs.length).toNat = pairs.length from extents] at read
    rw [encodeValue_map_of_ordered here.ordered, List.append_assoc, dec_encodeHead (by decide)]
    simp [decBody, read, entriesDone, toPython]

end

/-- What the second codec accepts the engine accepts, and the other way round up to containers as keys. -/
theorem codecs_agree (raw : Bytes) :
    (∀ v, checkCanonical raw = .ok v → ∀ limits : Limits, limits.maxDepth = 16 → Sufficient limits raw →
      ∃ value, decodeStrict raw limits = .ok value ∧ toPython value = v) ∧
    ∀ (limits : Limits) value, limits.maxDepth = 16 → decodeStrict raw limits = .ok value →
      value.Everywhere ScalarKeys → checkCanonical raw = .ok (toPython value) := by
  constructor
  · intro v accepted limits depth sufficient
    obtain ⟨decoded, again⟩ := checkCanonical_eq_ok.mp accepted
    obtain ⟨value, rfl, canonical, nesting, rfl⟩ := dec_rebuilds _ _ _ _ _ decoded again
    refine ⟨value, decodeStrict_eq_ok.mpr ⟨rfl, Canonical.of_sufficient canonical sufficient, ?_, ?_⟩, rfl⟩
    · rw [depth]
      exact Nat.le_of_lt_succ nesting
    · exact sufficient.proofSize
  · intro limits value depth decoded scalarKeys
    obtain ⟨rfl, canonical, nesting, _⟩ := decodeStrict_eq_ok.mp decoded
    rw [depth] at nesting
    have back := dec_encodeValue canonical scalarKeys nesting []
    rw [List.append_nil] at back
    exact checkCanonical_eq_ok.mpr ⟨back, Canonical.encAny_toPython canonical scalarKeys⟩

/-- Two integers and a text as keys, with containers below them. -/
def nestedExample : CborValue :=
  .map [(.uint 300, .array [.bytes [1, 2], .map []]), (.nint (-500), .null),
    (.text "a", .map [(.text "b", .bool true)])]

theorem nestedExample_accepted :
    checkCanonical (encodeCanonical nestedExample) = .ok (toPython nestedExample) := by
  refine (codecs_agree _).2 Limits.default nestedExample rfl (by decide +kernel) ?_
  simp [nestedExample, everywhere_map, everywhere_array, ScalarKeys, Scalar]

/-- A container as a key is an exception that is not caught. -/
example : checkCanonical (encodeCanonical (.map [(.array [], .null)])) = .error .attributeError := by rfl

end ProofEngine.Interop
