import ProofEngine.Lib.Text

/-! # Unpadded base64url

Three bytes are four six-bit symbols; a last group of one or two bytes is two or three
symbols whose unused bits must be zero.  Decoding is strict, so encoding and decoding
are inverse to each other (`decode_eq_some`). -/

namespace ProofEngine.Base64Url

open Text

/-! ## Bytes and sextets -/

def toSextets : Bytes → List Nat
  | first :: second :: third :: rest =>
    [first.toNat / 4, first.toNat % 4 * 16 + second.toNat / 16,
      second.toNat % 16 * 4 + third.toNat / 64, third.toNat % 64] ++ toSextets rest
  | [first, second] =>
    [first.toNat / 4, first.toNat % 4 * 16 + second.toNat / 16, second.toNat % 16 * 4]
  | [first] => [first.toNat / 4, first.toNat % 4 * 16]
  | [] => []

def fromSextets : List Nat → Option Bytes
  | one :: two :: three :: four :: rest => do
    let bytes ← fromSextets rest
    some (UInt8.ofNat (one * 4 + two / 16) :: UInt8.ofNat (two % 16 * 16 + three / 4) ::
      UInt8.ofNat (three % 4 * 64 + four) :: bytes)
  | [one, two, three] =>
    if three % 4 = 0 then
      some [UInt8.ofNat (one * 4 + two / 16), UInt8.ofNat (two % 16 * 16 + three / 4)]
    else none
  | [one, two] => if two % 16 = 0 then some [UInt8.ofNat (one * 4 + two / 16)] else none
  | [_] => none
  | [] => some []

theorem toSextets_lt (bytes : Bytes) : ∀ sextet ∈ toSextets bytes, sextet < 64 := by
  fun_induction toSextets bytes with
  | case1 first second third rest inductionHypothesis =>
    have firstSmall := first.toNat_lt
    have secondSmall := second.toNat_lt
    have thirdSmall := third.toNat_lt
    intro sextet member
    simp only [List.cons_append, List.nil_append, List.mem_cons] at member
    rcases member with rfl | rfl | rfl | rfl | member
    · omega
    · omega
    · omega
    · omega
    · exact inductionHypothesis sextet member
  | case2 first second =>
    have firstSmall := first.toNat_lt
    have secondSmall := second.toNat_lt
    simp
    omega
  | case3 first =>
    have firstSmall := first.toNat_lt
    simp
    omega
  | case4 => simp

theorem length_toSextets (bytes : Bytes) : (toSextets bytes).length = (4 * bytes.length + 2) / 3 := by
  fun_induction toSextets bytes with
  | case1 first second third rest inductionHypothesis =>
    simp only [List.length_append, List.length_cons, List.length_nil, inductionHypothesis]
    omega
  | case2 first second => simp
  | case3 first => simp
  | case4 => simp

theorem fromSextets_toSextets (bytes : Bytes) : fromSextets (toSextets bytes) = some bytes := by
  fun_induction toSextets bytes with
  | case1 first second third rest inductionHypothesis =>
    have firstSmall := first.toNat_lt
    have secondSmall := second.toNat_lt
    have thirdSmall := third.toNat_lt
    simp only [List.cons_append, List.nil_append, fromSextets, inductionHypothesis]
    have one : first.toNat / 4 * 4 + (first.toNat % 4 * 16 + second.toNat / 16) / 16 = first.toNat := by omega
    have two : (first.toNat % 4 * 16 + second.toNat / 16) % 16 * 16 +
        (second.toNat % 16 * 4 + third.toNat / 64) / 4 = second.toNat := by omega
    have three : (second.toNat % 16 * 4 + third.toNat / 64) % 4 * 64 + third.toNat % 64 = third.toNat := by omega
    simp only [one, two, three, UInt8.ofNat_toNat, Option.bind_eq_bind, Option.bind_some]
  | case2 first second =>
    have firstSmall := first.toNat_lt
    have secondSmall := second.toNat_lt
    have one : first.toNat / 4 * 4 + (first.toNat % 4 * 16 + second.toNat / 16) / 16 = first.toNat := by omega
    have two : (first.toNat % 4 * 16 + second.toNat / 16) % 16 * 16 + second.toNat % 16 * 4 / 4 =
        second.toNat := by omega
    -- the spare bits of a short group are zero, which decoding checks
    have spare : second.toNat % 16 * 4 % 4 = 0 := by omega
    simp only [fromSextets, spare, one, two]
    simp
  | case3 first =>
    have firstSmall := first.toNat_lt
    have one : first.toNat / 4 * 4 + first.toNat % 4 * 16 / 16 = first.toNat := by omega
    have spare : first.toNat % 4 * 16 % 16 = 0 := by omega
    simp only [fromSextets, spare, one]
    simp
  | case4 => rfl

theorem toSextets_of_fromSextets {sextets : List Nat} (small : ∀ sextet ∈ sextets, sextet < 64)
    {bytes : Bytes} (decoded : fromSextets sextets = some bytes) : toSextets bytes = sextets := by
  fun_induction fromSextets sextets generalizing bytes with
  | case1 one two three four rest inductionHypothesis =>
    simp only [List.forall_mem_cons] at small
    obtain ⟨oneSmall, twoSmall, threeSmall, fourSmall, restSmall⟩ := small
    simp only [Option.bind_eq_bind, Option.bind_eq_some_iff, Option.some.injEq] at decoded
    obtain ⟨tail, tailDecoded, rfl⟩ := decoded
    simp only [toSextets, inductionHypothesis restSmall tailDecoded, UInt8.toNat_ofNat',
      List.cons_append, List.nil_append, List.cons.injEq, and_true]
    refine ⟨?_, ?_, ?_, ?_⟩ <;> omega
  | case2 one two three spare =>
    simp only [List.forall_mem_cons] at small
    cases decoded
    simp only [toSextets, UInt8.toNat_ofNat', List.cons.injEq, and_true]
    refine ⟨?_, ?_, ?_⟩ <;> omega
  | case3 one two three spare => contradiction
  | case4 one two spare =>
    simp only [List.forall_mem_cons] at small
    cases decoded
    simp only [toSextets, UInt8.toNat_ofNat', List.cons.injEq, and_true]
    refine ⟨?_, ?_⟩ <;> omega
  | case5 one two spare => contradiction
  | case6 one => contradiction
  | case7 =>
    cases decoded
    rfl

/-! ## Symbols -/

def alphabet : List Char :=
  "ABCDEFGHIJKLMNOPQRSTUVWXYZabcdefghijklmnopqrstuvwxyz0123456789-_".toList

def symbol (sextet : Nat) : Char := alphabet.getD sextet 'A'

def sextetOf (char : Char) : Option Nat := alphabet.findIdx? (· == char)

theorem sextetOf_symbol {sextet : Nat} (small : sextet < 64) : sextetOf (symbol sextet) = some sextet := by
  -- the alphabet has no repetition
  have table : ∀ sextet ∈ List.range 64, sextetOf (symbol sextet) = some sextet := by decide +kernel
  exact table sextet (List.mem_range.mpr small)

theorem sextetOf_eq_some {char : Char} {sextet : Nat} (found : sextetOf char = some sextet) :
    sextet < 64 ∧ symbol sextet = char := by
  obtain ⟨inside, same, _⟩ := List.findIdx?_eq_some_iff_getElem.mp found
  have size : alphabet.length = 64 := by decide +kernel
  refine ⟨size ▸ inside, ?_⟩
  simpa [symbol, inside] using same

theorem mapM_symbol {sextets : List Nat} (small : ∀ sextet ∈ sextets, sextet < 64) :
    (sextets.map symbol).mapM sextetOf = some sextets := by
  induction sextets with
  | nil => rfl
  | cons sextet sextets inductionHypothesis =>
    simp only [List.forall_mem_cons] at small
    simp [List.mapM_cons, sextetOf_symbol small.1, inductionHypothesis small.2]

theorem mapM_sextetOf {chars : List Char} {sextets : List Nat}
    (decoded : chars.mapM sextetOf = some sextets) :
    sextets.map symbol = chars ∧ ∀ sextet ∈ sextets, sextet < 64 := by
  induction chars generalizing sextets with
  | nil =>
    cases decoded
    simp
  | cons char chars inductionHypothesis =>
    simp only [List.mapM_cons, Option.bind_eq_bind, Option.bind_eq_some_iff, Option.pure_def,
      Option.some.injEq] at decoded
    obtain ⟨sextet, found, others, othersFound, rfl⟩ := decoded
    obtain ⟨small, same⟩ := sextetOf_eq_some found
    obtain ⟨restSame, restSmall⟩ := inductionHypothesis othersFound
    exact ⟨by simp [same, restSame], List.forall_mem_cons.mpr ⟨small, restSmall⟩⟩

/-! ## Text form -/

def encode (bytes : Bytes) : String := String.ofList ((toSextets bytes).map symbol)

/-- Strict decoding: no padding, no foreign symbols, unused bits zero. -/
def decode (text : String) : Option Bytes := do
  let sextets ← text.toList.mapM sextetOf
  fromSextets sextets

theorem decode_eq_some {text : String} {bytes : Bytes} : decode text = some bytes ↔ encode bytes = text := by
  constructor
  · intro decoded
    simp only [decode, Option.bind_eq_bind, Option.bind_eq_some_iff] at decoded
    obtain ⟨sextets, symbols, grouped⟩ := decoded
    obtain ⟨same, small⟩ := mapM_sextetOf symbols
    rw [encode, toSextets_of_fromSextets small grouped, same, String.ofList_toList]
  · rintro rfl
    simp only [decode, encode, String.toList_ofList, mapM_symbol (toSextets_lt bytes),
      Option.bind_eq_bind, Option.bind_some, fromSextets_toSextets]

theorem len_encode_le (bytes : Bytes) : len (encode bytes) ≤ 8 * bytes.length := by
  have chars := len_ofList_le ((toSextets bytes).map symbol)
  rw [List.length_map, length_toSextets] at chars
  simp only [encode]
  omega

/-- The length of an encoding is that of its bytes. -/
theorem length_encode (bytes : Bytes) : (encode bytes).toList.length = (4 * bytes.length + 2) / 3 := by
  rw [encode, String.toList_ofList, List.length_map, length_toSextets]

theorem encode_injective : Function.Injective encode := by
  intro left right same
  have decodedLeft := decode_eq_some.mpr same
  have decodedRight := decode_eq_some.mpr (rfl : encode right = encode right)
  exact Option.some.inj (decodedLeft.symm.trans decodedRight)

end ProofEngine.Base64Url
