import Mathlib.Data.List.TakeWhile

/-! # Quoted texts

Quotes and backslashes in a quoted text are escaped, so a document whose other pieces hold no quote gives back the
texts it was put together from. -/

namespace ProofEngine.QuotedText

def escapeChar (char : Char) : List Char := if char = '"' ∨ char = '\\' then ['\\', char] else [char]

def escape (chars : List Char) : List Char := chars.flatMap escapeChar

theorem length_escape_le (chars : List Char) : (escape chars).length ≤ 2 * chars.length := by
  induction chars with
  | nil => simp [escape]
  | cons char chars inductionHypothesis =>
    have one : (escapeChar char).length ≤ 2 := by
      rw [escapeChar]
      split <;> simp
    rw [escape, List.flatMap_cons, List.length_append, List.length_cons]
    rw [escape] at inductionHypothesis
    omega

/-- The text up to the closing quote, and what follows it. -/
def readEscaped : List Char → Option (List Char × List Char)
  | [] => none
  | '"' :: rest => some ([], rest)
  | '\\' :: char :: rest => (readEscaped rest).map fun read => (char :: read.1, read.2)
  | char :: rest => (readEscaped rest).map fun read => (char :: read.1, read.2)

theorem readEscaped_escape (chars rest : List Char) :
    readEscaped (escape chars ++ '"' :: rest) = some (chars, rest) := by
  induction chars with
  | nil => rfl
  | cons char chars inductionHypothesis =>
    rw [escape, List.flatMap_cons, List.append_assoc]
    change readEscaped (escapeChar char ++ (escape chars ++ '"' :: rest)) = _
    by_cases special : char = '"' ∨ char = '\\'
    · rw [escapeChar, if_pos special]
      simp [readEscaped, inductionHypothesis]
    · rw [escapeChar, if_neg special]
      rw [not_or] at special
      simp [readEscaped, special.1, special.2, inductionHypothesis]

def quote (text : String) : List Char := '"' :: (escape text.toList ++ ['"'])

/-- The quoted texts of a document, in order. -/
def quotedTexts : (fuel : Nat) → List Char → Option (List String)
  | 0, _ => none
  | fuel + 1, chars =>
    match chars.dropWhile (· ≠ '"') with
    | [] => some []
    | _ :: rest => do
      let (text, rest) ← readEscaped rest
      let texts ← quotedTexts fuel rest
      some (String.ofList text :: texts)

def Unquoted (chars : List Char) : Prop := '"' ∉ chars

theorem quotedTexts_unquoted {chars : List Char} (unquoted : Unquoted chars) (fuel : Nat) :
    quotedTexts (fuel + 1) chars = some [] := by
  have nothing : chars.dropWhile (· ≠ '"') = [] := by
    rw [List.dropWhile_eq_nil_iff]
    intro char member
    rw [decide_eq_true_eq]
    rintro rfl
    exact unquoted member
  rw [quotedTexts, nothing]

theorem quotedTexts_quote {lead : List Char} (unquoted : Unquoted lead) (text : String) (rest : List Char)
    (fuel : Nat) : quotedTexts (fuel + 1) (lead ++ quote text ++ rest) = (quotedTexts fuel rest).map (text :: ·) := by
  have skipped : (lead ++ quote text ++ rest).dropWhile (· ≠ '"') = quote text ++ rest := by
    rw [List.append_assoc, List.dropWhile_append_of_pos]
    · simp [quote]
    · intro char member
      rw [decide_eq_true_eq]
      rintro rfl
      exact unquoted member
  have quoted : quote text ++ rest = '"' :: (escape text.toList ++ '"' :: rest) := by simp [quote]
  rw [quotedTexts, skipped, quoted]
  simp only [readEscaped_escape, Option.bind_eq_bind, Option.bind_some, String.ofList_toList]
  cases quotedTexts fuel rest <;> rfl

/-- Quoted texts, each behind its lead, and a tail. -/
def document (pieces : List (List Char × String)) (tail : List Char) : List Char :=
  pieces.flatMap (fun piece => piece.1 ++ quote piece.2) ++ tail

theorem length_le_document (pieces : List (List Char × String)) (tail : List Char) :
    pieces.length ≤ (document pieces tail).length := by
  induction pieces with
  | nil => simp
  | cons piece pieces inductionHypothesis =>
    simp only [document, List.flatMap_cons, List.length_append, List.length_cons, quote] at inductionHypothesis ⊢
    omega

theorem quotedTexts_document {pieces : List (List Char × String)} {tail : List Char}
    (leads : ∀ piece ∈ pieces, Unquoted piece.1) (ending : Unquoted tail) {fuel : Nat} (enough : pieces.length < fuel) :
    quotedTexts fuel (document pieces tail) = some (pieces.map Prod.snd) := by
  induction pieces generalizing fuel with
  | nil =>
    obtain ⟨fuel, rfl⟩ := Nat.exists_eq_add_of_lt enough
    exact quotedTexts_unquoted ending _
  | cons piece pieces inductionHypothesis =>
    rw [List.length_cons] at enough
    obtain ⟨fuel, rfl⟩ := Nat.exists_eq_succ_of_ne_zero (show fuel ≠ 0 by omega)
    rw [List.forall_mem_cons] at leads
    have split : document (piece :: pieces) tail = piece.1 ++ quote piece.2 ++ document pieces tail := by
      simp [document]
    rw [split, quotedTexts_quote leads.1, inductionHypothesis leads.2 (by omega)]
    rfl

/-- With fuel for every character, a document gives back its texts. -/
theorem quotedTexts_of_document {pieces : List (List Char × String)} {tail : List Char}
    (leads : ∀ piece ∈ pieces, Unquoted piece.1) (ending : Unquoted tail) :
    quotedTexts ((document pieces tail).length + 1) (document pieces tail) = some (pieces.map Prod.snd) :=
  quotedTexts_document leads ending (Nat.lt_succ_of_le (length_le_document pieces tail))

end ProofEngine.QuotedText
