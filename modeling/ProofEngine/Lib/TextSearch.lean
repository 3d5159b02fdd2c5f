import Mathlib.Data.List.Infix
import ProofEngine.Lib.Text

/-! # Searching text

Whether a text occurs in another, and the parts around its first occurrence. -/

namespace ProofEngine.Text

/-- `part` occurs in `text`. -/
def contains (text part : String) : Bool := decide (part.toList <:+: text.toList)

theorem contains_append_left {text part : String} (before : String) (inside : contains text part = true) :
    contains (before ++ text) part = true := by
  rw [contains, String.toList_append]
  exact decide_eq_true ((of_decide_eq_true inside).trans (List.suffix_append _ _).isInfix)

theorem contains_append_right {text part : String} (after : String) (inside : contains text part = true) :
    contains (text ++ after) part = true := by
  rw [contains, String.toList_append]
  exact decide_eq_true ((of_decide_eq_true inside).trans (List.prefix_append _ _).isInfix)

/-- The characters before and after the first occurrence of `part`. -/
def cutChars (part : List Char) : List Char → Option (List Char × List Char)
  | [] => if part.isEmpty then some ([], []) else none
  | char :: chars =>
    if part.isPrefixOf (char :: chars) then some ([], (char :: chars).drop part.length)
    else (cutChars part chars).map fun (before, after) => (char :: before, after)

/-- `text` before and after the first occurrence of `part`. -/
def cut (text part : String) : Option (String × String) :=
  (cutChars part.toList text.toList).map fun (before, after) => (String.ofList before, String.ofList after)

theorem cutChars_eq_none {char : Char} {chars : List Char} (absent : char ∉ chars) : cutChars [char] chars = none := by
  induction chars with
  | nil => rfl
  | cons first chars inductionHypothesis =>
    obtain ⟨different, rest⟩ := not_or.mp (mt List.mem_cons.mpr absent)
    simp [cutChars, different, inductionHypothesis rest]

theorem cut_eq_none {text : String} {char : Char} (absent : char ∉ text.toList) :
    cut text (String.ofList [char]) = none := by
  rw [cut, String.toList_ofList, cutChars_eq_none absent, Option.map_none]

/-- The first occurrence of a character is where it has not stood before. -/
theorem cutChars_append {char : Char} {before : List Char} (absent : char ∉ before) (after : List Char) :
    cutChars [char] (before ++ char :: after) = some (before, after) := by
  induction before with
  | nil => simp [cutChars]
  | cons first before inductionHypothesis =>
    obtain ⟨different, rest⟩ := not_or.mp (mt List.mem_cons.mpr absent)
    simp [cutChars, different, inductionHypothesis rest]

/-- `text` without the trailing characters that are in `chars`. -/
def trimEndMatches (text : String) (chars : List Char) : String :=
  String.ofList ((text.toList.reverse.dropWhile fun char => chars.contains char).reverse)

/-- The characters after the copies of `part` that lead; `fuel` is their number at most. -/
def dropRepeats (part : List Char) : (fuel : Nat) → List Char → List Char
  | 0, chars => chars
  | fuel + 1, chars => if part.isPrefixOf chars then dropRepeats part fuel (chars.drop part.length) else chars

/-- `text` without the copies of `part` it ends in. -/
def trimEndText (text part : String) : String :=
  String.ofList (dropRepeats part.toList.reverse text.toList.length text.toList.reverse).reverse

/-- The first word of `text`, if there is one. -/
def firstWord (text : String) : Option String :=
  match (text.toList.dropWhile isWhitespace).takeWhile fun char => !isWhitespace char with
  | [] => none
  | word => some (String.ofList word)

/-- The pieces of `text` between separators. -/
def splitAt (text : String) (separator : Char) : List String := (text.toList.splitOn separator).map String.ofList

end ProofEngine.Text
