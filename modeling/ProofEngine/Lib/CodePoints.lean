import ProofEngine.Lib.StableSort
import ProofEngine.Lib.Text

/-! # The order of code points

Texts compared by code point and texts compared by UTF-8 byte stand in the same order, so both
orders sort a list in the same way. -/

namespace ProofEngine.Text

open StableSort

def codePoints (text : String) : List Nat := text.toList.map Char.toNat

theorem utf8_ofList_cons (char : Char) (chars : List Char) :
    utf8 (String.ofList (char :: chars)) = String.utf8EncodeChar char ++ utf8 (String.ofList chars) := by
  simp [utf8, List.utf8Encode]

theorem char_toNat_lt (char : Char) : char.val.toNat < 0x110000 := by
  have valid := char.valid
  simp only [UInt32.isValidChar, Nat.isValidChar] at valid
  omega

theorem ofNat_lt_ofNat {left right : Nat} (small : right < 256) (below : left < right) :
    UInt8.ofNat left < UInt8.ofNat right := by
  rw [UInt8.lt_iff_toNat_lt, UInt8.toNat_ofNat', UInt8.toNat_ofNat']
  omega

/-- A digit to the base 64 as a continuation byte, with the digits after it. -/
theorem continuation_lt {low high : Nat} {lowRest highRest : Bytes}
    (below : low % 64 < high % 64 ∨ low % 64 = high % 64 ∧ lowRest < highRest) :
    UInt8.ofNat (low % 64 + 0x80) :: lowRest < UInt8.ofNat (high % 64 + 0x80) :: highRest := by
  rw [List.cons_lt_cons_iff]
  rcases below with less | ⟨same, rest⟩
  · exact .inl (ofNat_lt_ofNat (by omega) (by omega))
  · exact .inr ⟨by rw [same], rest⟩

/-- The first byte of a form, whose digit is the whole rest of the code point. -/
theorem leading_lt {low high base width : Nat} {lowRest highRest : Bytes} (small : high + base < 256)
    (lowFits : low < width) (highFits : high < width)
    (below : low < high ∨ low = high ∧ lowRest < highRest) :
    UInt8.ofNat (low % width + base) :: lowRest < UInt8.ofNat (high % width + base) :: highRest := by
  rw [List.cons_lt_cons_iff, Nat.mod_eq_of_lt lowFits, Nat.mod_eq_of_lt highFits]
  rcases below with less | ⟨same, rest⟩
  · exact .inl (ofNat_lt_ofNat small (by omega))
  · exact .inr ⟨by rw [same], rest⟩

theorem first_lt {low high : Nat} {lowRest highRest : Bytes} (small : high < 256) (below : low < high) :
    UInt8.ofNat low :: lowRest < UInt8.ofNat high :: highRest :=
  List.cons_lt_cons_iff.mpr (.inl (ofNat_lt_ofNat small below))

/-- The encoding of a greater code point is greater, whatever follows. -/
theorem utf8EncodeChar_append_lt {left right : Char} (below : left.toNat < right.toNat) (leftRest rightRest : Bytes) :
    String.utf8EncodeChar left ++ leftRest < String.utf8EncodeChar right ++ rightRest := by
  have leftSmall := char_toNat_lt left
  have rightSmall := char_toNat_lt right
  simp only [Char.toNat] at below
  simp only [String.utf8EncodeChar]
  generalize left.val.toNat = low at *
  generalize right.val.toNat = high at *
  -- a longer form has a greater first byte; forms of one length are compared digit by digit
  by_cases oneLow : low ≤ 0x7f
  · rw [if_pos oneLow]
    split_ifs
    · exact first_lt (by omega) below
    all_goals exact first_lt (by omega) (by omega)
  by_cases twoLow : low ≤ 0x7ff
  · rw [if_neg oneLow, if_pos twoLow, if_neg (by omega)]
    split_ifs
    · refine leading_lt (by omega) (by omega) (by omega) ?_
      have digits : low / 64 < high / 64 ∨ low / 64 = high / 64 ∧ low % 64 < high % 64 := by omega
      exact digits.imp_right (And.imp_right fun last => continuation_lt (.inl last))
    all_goals exact first_lt (by omega) (by omega)
  by_cases threeLow : low ≤ 0xffff
  · rw [if_neg oneLow, if_neg twoLow, if_pos threeLow, if_neg (by omega), if_neg (by omega)]
    split_ifs
    · refine leading_lt (by omega) (by omega) (by omega) ?_
      have digits : low / 4096 < high / 4096 ∨ low / 4096 = high / 4096 ∧
          (low / 64 % 64 < high / 64 % 64 ∨ low / 64 % 64 = high / 64 % 64 ∧ low % 64 < high % 64) := by omega
      exact digits.imp_right (And.imp_right fun rest => continuation_lt
        (rest.imp_right (And.imp_right fun last => continuation_lt (.inl last))))
    · exact first_lt (by omega) (by omega)
  · rw [if_neg oneLow, if_neg twoLow, if_neg threeLow, if_neg (by omega), if_neg (by omega), if_neg (by omega)]
    refine leading_lt (by omega) (by omega) (by omega) ?_
    have digits : low / 262144 < high / 262144 ∨ low / 262144 = high / 262144 ∧
        (low / 4096 % 64 < high / 4096 % 64 ∨ low / 4096 % 64 = high / 4096 % 64 ∧
          (low / 64 % 64 < high / 64 % 64 ∨ low / 64 % 64 = high / 64 % 64 ∧ low % 64 < high % 64)) := by omega
    exact digits.imp_right (And.imp_right fun second => continuation_lt
      (second.imp_right (And.imp_right fun third => continuation_lt
        (third.imp_right (And.imp_right fun last => continuation_lt (.inl last))))))

theorem utf8_lt_of_codePoints_lt {left right : List Char} (below : left.map Char.toNat < right.map Char.toNat) :
    utf8 (String.ofList left) < utf8 (String.ofList right) := by
  induction left generalizing right with
  | nil =>
    cases right with
    | nil => exact absurd below (lt_irrefl _)
    | cons char chars =>
      rw [utf8_ofList_cons]
      cases encoded : String.utf8EncodeChar char with
      | nil => exact absurd encoded String.utf8EncodeChar_ne_nil
      | cons byte bytes => exact List.nil_lt_cons _ _
  | cons first left inductionHypothesis =>
    cases right with
    | nil => exact absurd below (List.not_lt_nil _)
    | cons char chars =>
      simp only [List.map_cons, List.cons_lt_cons_iff] at below
      rw [utf8_ofList_cons, utf8_ofList_cons]
      rcases below with less | ⟨same, rest⟩
      · exact utf8EncodeChar_append_lt less _ _
      · have chars : first = char := Char.ext (UInt32.toNat_inj.mp same)
        rw [chars]
        exact List.append_left_lt (inductionHypothesis rest)

theorem codePoints_injective : Function.Injective codePoints := by
  intro left right same
  have chars : Function.Injective Char.toNat := fun _ _ same => Char.ext (UInt32.toNat_inj.mp same)
  exact String.toList_inj.mp (List.map_injective_iff.mpr chars same)

theorem codePoints_le_iff {left right : String} : codePoints left ≤ codePoints right ↔ utf8 left ≤ utf8 right := by
  have forwards : ∀ {left right : String}, codePoints left < codePoints right → utf8 left < utf8 right := by
    intro left right below
    have bytes := utf8_lt_of_codePoints_lt below
    rwa [String.ofList_toList, String.ofList_toList] at bytes
  constructor
  · intro below
    rcases lt_or_eq_of_le below with less | same
    · exact (forwards less).le
    · exact (congrArg utf8 (codePoints_injective same)).le
  · intro below
    -- the orders are total, so the converse is the same fact the other way round
    by_contra above
    exact absurd (forwards (not_le.mp above)) (not_lt.mpr below)

/-- Sorting by code points is sorting by bytes. -/
theorem sortOn_codePoints {α : Type*} (name : α → String) (items : List α) :
    sortOn (fun item => codePoints (name item)) items = sortOn (fun item => utf8 (name item)) items := by
  simp only [sortOn, codePoints_le_iff]

end ProofEngine.Text
