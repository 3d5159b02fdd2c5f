import ProofEngine.Lib.Bytes

/-! # UTF-8 text

Text is Lean's `String`, whose values are exactly the well-formed UTF-8 byte sequences.
Lengths and order are those of the UTF-8 bytes. -/

namespace ProofEngine.Text

/-- The UTF-8 bytes of a text. -/
def utf8 (text : String) : Bytes := text.toByteArray.data.toList

/-- The text a byte sequence spells, if it is well-formed UTF-8. -/
def fromUtf8 (bytes : Bytes) : Option String := String.fromUTF8? ⟨bytes.toArray⟩

/-- Length in bytes. -/
def len (text : String) : Nat := (utf8 text).length

theorem utf8_injective : Function.Injective utf8 := by
  intro left right same
  have arrays : left.toByteArray.data = right.toByteArray.data := Array.toList_inj.mp same
  exact String.toByteArray_inj.mp (ByteArray.ext arrays)

@[simp] theorem utf8_inj {left right : String} : utf8 left = utf8 right ↔ left = right :=
  utf8_injective.eq_iff

theorem fromUtf8_eq_some {bytes : Bytes} {text : String} :
    fromUtf8 bytes = some text ↔ utf8 text = bytes := by
  constructor
  · intro decoded
    simp only [fromUtf8, String.fromUTF8?] at decoded
    split at decoded
    · cases decoded
      rfl
    · contradiction
  · rintro rfl
    have whole : (⟨(utf8 text).toArray⟩ : ByteArray) = text.toByteArray := by simp [utf8]
    have valid : (⟨(utf8 text).toArray⟩ : ByteArray).IsValidUTF8 := whole ▸ text.isValidUTF8
    simp only [fromUtf8, String.fromUTF8?, valid, ↓reduceDIte, Option.some.injEq]
    exact String.toByteArray_inj.mp whole

@[simp] theorem fromUtf8_utf8 (text : String) : fromUtf8 (utf8 text) = some text :=
  fromUtf8_eq_some.mpr rfl

/-! ## Length -/

theorem len_append (left right : String) : len (left ++ right) = len left + len right := by
  simp [len, utf8]

theorem len_ofList_le (chars : List Char) : len (String.ofList chars) ≤ 4 * chars.length := by
  induction chars with
  | nil => simp [len, utf8]
  | cons char chars inductionHypothesis =>
    have size := char.utf8Size_le_four
    have split : String.ofList (char :: chars) = String.ofList [char] ++ String.ofList chars := by
      rw [← String.ofList_append]
      rfl
    have one : len (String.ofList [char]) = char.utf8Size := by simp [len, utf8, List.utf8Encode]
    rw [split, len_append, one, List.length_cons]
    omega

/-! ## Literal prefixes -/

/-- `text` starts with `lead`. -/
def startsWith (text lead : String) : Bool := lead.toList.isPrefixOf text.toList

/-- `text` without the leading `lead`, if it starts with it. -/
def strip (text lead : String) : Option String :=
  if startsWith text lead then some (String.ofList (text.toList.drop lead.toList.length)) else none

@[simp] theorem startsWith_append (lead rest : String) : startsWith (lead ++ rest) lead = true := by
  simp [startsWith, List.isPrefixOf_iff_prefix]

@[simp] theorem strip_append (lead rest : String) : strip (lead ++ rest) lead = some rest := by
  simp [strip]

theorem strip_eq_some {text lead rest : String} (stripped : strip text lead = some rest) :
    text = lead ++ rest := by
  simp only [strip, startsWith, List.isPrefixOf_iff_prefix] at stripped
  split at stripped
  · rename_i starts
    obtain ⟨tail, whole⟩ := starts
    cases stripped
    rw [← whole, List.drop_left, ← String.toList_inj]
    simp [whole]
  · contradiction

/-! ## Unicode white space -/

/-- The `White_Space` code points. -/
def isWhitespace (char : Char) : Bool :=
  (9 ≤ char.val && char.val ≤ 13) || char.val == 0x20 || char.val == 0x85 || char.val == 0xA0 ||
    char.val == 0x1680 || (0x2000 ≤ char.val && char.val ≤ 0x200A) || char.val == 0x2028 ||
    char.val == 0x2029 || char.val == 0x202F || char.val == 0x205F || char.val == 0x3000

/-- `text` without leading and trailing white space. -/
def trim (text : String) : String :=
  String.ofList (((text.toList.dropWhile isWhitespace).reverse.dropWhile isWhitespace).reverse)

theorem trim_eq_self {text : String} (solid : ∀ char ∈ text.toList, isWhitespace char = false) :
    trim text = text := by
  have kept : ∀ chars : List Char, (∀ char ∈ chars, isWhitespace char = false) →
      chars.dropWhile isWhitespace = chars := by
    intro chars solid
    cases chars with
    | nil => rfl
    | cons char chars => simp [solid char List.mem_cons_self]
  rw [trim, kept _ solid, kept _ (fun char member => solid char (List.mem_reverse.mp member)),
    List.reverse_reverse, String.ofList_toList]

end ProofEngine.Text
