import ProofEngine.Format.CborRoundTrip

/-! # The encoding is self-delimiting

Every encoding is a head followed by a body whose end the head determines.  By induction
over the first value, two encodings that start the same byte string come from the same
value, once the entries of all maps are stored in order. -/

namespace ProofEngine

open StableSort Text CborValue

namespace CborValue

/-! ## Head and body -/

def major : CborValue → UInt8
  | .uint _ => 0
  | .nint _ => 1
  | .bytes _ => 2
  | .text _ => 3
  | .array _ => 4
  | .map _ => 5
  | .bool _ => 7
  | .null => 7

def argument : CborValue → UInt64
  | .uint n => n
  | .nint n => UInt64.ofNat (-1 - n.toInt).toNat
  | .bytes b => UInt64.ofNat b.length
  | .text s => UInt64.ofNat (len s)
  | .array items => UInt64.ofNat items.length
  | .map pairs => UInt64.ofNat pairs.length
  | .bool true => 21
  | .bool false => 20
  | .null => 22

def body : CborValue → Bytes
  | .bytes b => b
  | .text s => utf8 s
  | .array items => items.flatMap encodeValue
  | .map pairs => (pairs.flatMap fun pair => [pair.1, pair.2]).flatMap encodeValue
  | _ => []

theorem major_lt (value : CborValue) : value.major < 8 := by
  cases value <;> simp only [major] <;> decide

/-- Values on which the encoding is one to one. -/
structure Delimitable (part : CborValue) : Prop where
  ordered : part.OrderedEntries
  negative : part.NegativeNint
  addressable : part.Addressable

theorem encodeValue_eq_head {value : CborValue} (delimitable : value.Delimitable) :
    encodeValue value = encodeHead value.major value.argument ++ value.body := by
  cases value with
  | uint n => simp [encodeValue, major, argument, body]
  | nint n =>
    have negative : n.toInt < 0 := delimitable.negative
    simp [encodeValue, major, argument, body, negative.not_ge]
  | bytes b => rfl
  | text s => rfl
  | array items => rw [encodeValue, encodeItems_eq]; rfl
  | map pairs => exact encodeValue_map_of_ordered delimitable.ordered
  | bool b => cases b <;> rfl
  | null => rfl

/-- Encodings that start alike agree in head and in what follows the head. -/
theorem head_of_same_start {value other : CborValue} {after afterOther : Bytes}
    (valueIn : value.Delimitable) (otherIn : other.Delimitable)
    (same : encodeValue value ++ after = encodeValue other ++ afterOther) :
    value.major = other.major ∧ value.argument = other.argument ∧
      value.body ++ after = other.body ++ afterOther := by
  rw [encodeValue_eq_head valueIn, encodeValue_eq_head otherIn, List.append_assoc,
    List.append_assoc] at same
  have majors := encodeHead_major value.major_lt other.major_lt same
  rw [← majors] at same
  obtain ⟨arguments, bodies⟩ := encodeHead_append_inj value.major_lt same
  exact ⟨majors, arguments, bodies⟩

/-! ## Equal heads, equal values -/

theorem ofNat_extent_inj {left right : Nat} (leftSmall : left < 2 ^ 64) (rightSmall : right < 2 ^ 64)
    (same : UInt64.ofNat left = UInt64.ofNat right) : left = right := by
  have := congrArg UInt64.toNat same
  rwa [UInt64.toNat_ofNat_of_lt' leftSmall, UInt64.toNat_ofNat_of_lt' rightSmall] at this

theorem flatten_entries_inj {pairs others : List (CborValue × CborValue)}
    (same : (pairs.flatMap fun pair => [pair.1, pair.2]) = others.flatMap fun pair => [pair.1, pair.2]) :
    pairs = others := by
  induction pairs generalizing others with
  | nil =>
    cases others with
    | nil => rfl
    | cons other others => simp at same
  | cons pair pairs inductionHypothesis =>
    cases others with
    | nil => simp at same
    | cons other others =>
      simp only [List.flatMap_cons, List.cons_append, List.nil_append, List.cons.injEq] at same
      obtain ⟨keys, values, rests⟩ := same
      rw [inductionHypothesis rests, Prod.ext keys values]

theorem length_flatten_entries (pairs : List (CborValue × CborValue)) :
    (pairs.flatMap fun pair => [pair.1, pair.2]).length = 2 * pairs.length := by
  induction pairs with
  | nil => rfl
  | cons pair pairs inductionHypothesis =>
    rw [List.flatMap_cons, List.length_append, inductionHypothesis, List.length_cons]
    simp
    omega

/-- An encoding ends where its head says, for every value stored in order. -/
theorem encodeValue_selfDelimiting :
    Bytes.SelfDelimiting encodeValue (fun value => value.Everywhere Delimitable) := by
  intro value valueIn
  induction value using CborValue.inductOn with
  | uint n =>
    intro other otherIn after afterOther same
    obtain ⟨majors, arguments, bodies⟩ := head_of_same_start valueIn.self otherIn.self same
    cases other with
    | uint m => exact ⟨congrArg CborValue.uint arguments, bodies⟩
    | _ => simp [major] at majors
  | nint n =>
    intro other otherIn after afterOther same
    obtain ⟨majors, arguments, bodies⟩ := head_of_same_start valueIn.self otherIn.self same
    cases other with
    | nint m =>
      have negative : n.toInt < 0 := valueIn.self.negative
      have otherNegative : m.toInt < 0 := otherIn.self.negative
      have lower := n.le_toInt
      have otherLower := m.le_toInt
      -- Both arguments are below 2 ^ 63, so nothing is lost in the 64-bit word.
      have equal := ofNat_extent_inj (by omega) (by omega) arguments
      have ints : n.toInt = m.toInt := by omega
      exact ⟨congrArg CborValue.nint (Int64.toInt_inj.mp ints), bodies⟩
    | _ => simp [major] at majors
  | bytes b =>
    intro other otherIn after afterOther same
    obtain ⟨majors, arguments, bodies⟩ := head_of_same_start valueIn.self otherIn.self same
    cases other with
    | bytes c =>
      have lengths := ofNat_extent_inj valueIn.self.addressable otherIn.self.addressable arguments
      obtain ⟨equal, afters⟩ := List.append_inj bodies lengths
      exact ⟨congrArg CborValue.bytes equal, afters⟩
    | _ => simp [major] at majors
  | text s =>
    intro other otherIn after afterOther same
    obtain ⟨majors, arguments, bodies⟩ := head_of_same_start valueIn.self otherIn.self same
    cases other with
    | text t =>
      have lengths := ofNat_extent_inj valueIn.self.addressable otherIn.self.addressable arguments
      obtain ⟨equal, afters⟩ := List.append_inj bodies lengths
      exact ⟨congrArg CborValue.text (utf8_injective equal), afters⟩
    | _ => simp [major] at majors
  | array items inductionHypothesis =>
    intro other otherIn after afterOther same
    obtain ⟨majors, arguments, bodies⟩ := head_of_same_start valueIn.self otherIn.self same
    cases other with
    | array others =>
      have lengths := ofNat_extent_inj valueIn.self.addressable otherIn.self.addressable arguments
      obtain ⟨_, nested⟩ := everywhere_array.mp valueIn
      obtain ⟨_, otherNested⟩ := everywhere_array.mp otherIn
      obtain ⟨equal, afters⟩ := Bytes.Delimited.flatMap
        (fun item member => inductionHypothesis item member (nested item member)) otherNested lengths bodies
      exact ⟨congrArg CborValue.array equal, afters⟩
    | _ => simp [major] at majors
  | map pairs inductionHypothesis =>
    intro other otherIn after afterOther same
    obtain ⟨majors, arguments, bodies⟩ := head_of_same_start valueIn.self otherIn.self same
    cases other with
    | map others =>
      have lengths := ofNat_extent_inj valueIn.self.addressable otherIn.self.addressable arguments
      simp only [extent] at lengths
      obtain ⟨_, nested⟩ := everywhere_map.mp valueIn
      obtain ⟨_, otherNested⟩ := everywhere_map.mp otherIn
      -- An ordered map is written like the list of its keys and values in turn.
      have delimited : ∀ item ∈ pairs.flatMap fun pair => [pair.1, pair.2],
          Bytes.Delimited encodeValue (fun value => value.Everywhere Delimitable) item := by
        intro item member
        simp only [List.mem_flatMap, List.mem_cons, List.not_mem_nil, or_false] at member
        obtain ⟨pair, pairMember, rfl | rfl⟩ := member
        · exact (inductionHypothesis pair pairMember).1 (nested pair pairMember).1
        · exact (inductionHypothesis pair pairMember).2 (nested pair pairMember).2
      have inDomain : ∀ item ∈ others.flatMap fun pair => [pair.1, pair.2],
          item.Everywhere Delimitable := by
        intro item member
        simp only [List.mem_flatMap, List.mem_cons, List.not_mem_nil, or_false] at member
        obtain ⟨pair, pairMember, rfl | rfl⟩ := member
        · exact (otherNested pair pairMember).1
        · exact (otherNested pair pairMember).2
      obtain ⟨equal, afters⟩ := Bytes.Delimited.flatMap delimited inDomain
        (by rw [length_flatten_entries, length_flatten_entries, lengths]) bodies
      exact ⟨congrArg CborValue.map (flatten_entries_inj equal), afters⟩
    | _ => simp [major] at majors
  | bool b =>
    intro other otherIn after afterOther same
    obtain ⟨majors, arguments, bodies⟩ := head_of_same_start valueIn.self otherIn.self same
    cases other with
    | bool c =>
      have equal : b = c := by
        cases b <;> cases c <;> first | rfl | exact absurd arguments (by decide)
      exact ⟨congrArg CborValue.bool equal, bodies⟩
    -- Booleans and null share a major type; their low bits tell them apart.
    | null => cases b <;> exact absurd arguments (by decide)
    | _ => simp [major] at majors
  | null =>
    intro other otherIn after afterOther same
    obtain ⟨majors, arguments, bodies⟩ := head_of_same_start valueIn.self otherIn.self same
    cases other with
    | null => exact ⟨rfl, bodies⟩
    | bool c => cases c <;> exact absurd arguments (by decide)
    | _ => simp [major] at majors

end CborValue

/-! ## Any stored order -/

/-- A value as memory can hold it: no string or container has `2 ^ 64` or more elements. -/
def MachineValue : Type := { value : CborValue // value.Everywhere Addressable }

theorem delimitable_sortMaps {value : CborValue} (addressable : value.Everywhere Addressable)
    (negative : value.Everywhere NegativeNint) : value.sortMaps.Everywhere Delimitable :=
  fun part member =>
    { ordered := orderedEntries_sortMaps value part member
      negative := everywhere_sortMaps negativeNint_sortMaps negative part member
      addressable := everywhere_sortMaps
        (fun part small => by rwa [Addressable, extent_sortMaps]) addressable part member }

/-- Encodings that start alike come from values that sort to the same value. -/
theorem encodeCanonical_delimited {value other : CborValue}
    (addressable : value.Everywhere Addressable) (otherAddressable : other.Everywhere Addressable)
    (negative : value.Everywhere NegativeNint) (otherNegative : other.Everywhere NegativeNint)
    {after afterOther : Bytes}
    (same : encodeCanonical value ++ after = encodeCanonical other ++ afterOther) :
    value.sortMaps = other.sortMaps ∧ after = afterOther := by
  simp only [encodeCanonical] at same
  rw [← encodeValue_sortMaps value, ← encodeValue_sortMaps other] at same
  exact encodeValue_selfDelimiting _ (delimitable_sortMaps addressable negative) _
    (delimitable_sortMaps otherAddressable otherNegative) _ _ same

end ProofEngine
