import ProofEngine.Lib.TextSearch

/-! # Lines and words

The lines and the words of a text, and the text of bytes that may not be well-formed. -/

namespace ProofEngine.Text

/-! ## Lines -/

/-- `chars` without the carriage return it may end in. -/
def dropReturn (chars : List Char) : List Char := if chars.getLast? = some '\r' then chars.dropLast else chars

/-- The lines among characters; `line` holds, last first, those of the line being read. -/
def lineChars (line : List Char) : List Char → List (List Char)
  | [] => if line.isEmpty then [] else [line.reverse]
  | char :: chars =>
    if char = '\n' then dropReturn line.reverse :: lineChars [] chars else lineChars (char :: line) chars

/-- The lines of a text.  The last one may lack its line feed, and then keeps its carriage return. -/
def lines (text : String) : List String := (lineChars [] text.toList).map String.ofList

theorem lineChars_line {before : List Char} (solid : '\n' ∉ before) (line after : List Char) :
    lineChars line (before ++ '\n' :: after) = dropReturn (line.reverse ++ before) :: lineChars [] after := by
  induction before generalizing line with
  | nil => simp [lineChars]
  | cons char before inductionHypothesis =>
    obtain ⟨different, rest⟩ := not_or.mp (mt List.mem_cons.mpr solid)
    have step := inductionHypothesis rest (char :: line)
    rw [List.reverse_cons, List.append_assoc, List.singleton_append] at step
    rw [List.cons_append, lineChars, if_neg (fun same => different same.symm), step]

/-- A line feed cuts a text into texts whose lines are counted apart. -/
theorem lineChars_append (line before after : List Char) :
    lineChars line (before ++ '\n' :: after) = lineChars line (before ++ ['\n']) ++ lineChars [] after := by
  induction before generalizing line with
  | nil => simp [lineChars]
  | cons char before inductionHypothesis =>
    rw [List.cons_append, List.cons_append, lineChars, lineChars]
    by_cases feed : char = '\n'
    · simp [feed, inductionHypothesis []]
    · simp [feed, inductionHypothesis (char :: line)]

theorem lines_append (before after : String) :
    lines (before ++ "\n" ++ after) = lines (before ++ "\n") ++ lines after := by
  have feed : ("\n" : String).toList = ['\n'] := rfl
  simp only [lines, String.toList_append, feed, List.append_assoc, List.singleton_append]
  rw [lineChars_append, List.map_append]

/-! ## Words -/

/-- The pieces of a text between runs of white space. -/
def splitWhitespace (text : String) : List String :=
  ((text.toList.splitOnP isWhitespace).filter fun word => !word.isEmpty).map String.ofList

/-! ## Bytes that may not be text -/

/-- The ranges of the bytes that follow `lead` in a character, if it begins one. -/
def continuations (lead : UInt8) : Option (List (UInt8 × UInt8)) :=
  if lead < 0x80 then some []
  else if lead < 0xC2 then none
  else if lead < 0xE0 then some [(0x80, 0xBF)]
  else if lead = 0xE0 then some [(0xA0, 0xBF), (0x80, 0xBF)]
  else if lead = 0xED then some [(0x80, 0x9F), (0x80, 0xBF)]
  else if lead < 0xF0 then some [(0x80, 0xBF), (0x80, 0xBF)]
  else if lead = 0xF0 then some [(0x90, 0xBF), (0x80, 0xBF), (0x80, 0xBF)]
  else if lead < 0xF4 then some [(0x80, 0xBF), (0x80, 0xBF), (0x80, 0xBF)]
  else if lead = 0xF4 then some [(0x80, 0x8F), (0x80, 0xBF), (0x80, 0xBF)]
  else none

/-- How many of the bytes are in their ranges, up to the first that is not. -/
def inRanges : List (UInt8 × UInt8) → Bytes → Nat
  | (low, high) :: ranges, byte :: bytes => if low ≤ byte ∧ byte ≤ high then inRanges ranges bytes + 1 else 0
  | _, _ => 0

/-- The character of a lead byte and the bytes that follow it. -/
def decodeChar (lead : UInt8) (following : Bytes) : Char :=
  let payload := match following.length with
    | 0 => lead.toNat
    | 1 => lead.toNat % 0x20
    | 2 => lead.toNat % 0x10
    | _ => lead.toNat % 0x08
  Char.ofNat (following.foldl (fun code byte => 64 * code + byte.toNat % 64) payload)

/-- Every longest beginning of a character that goes wrong becomes one replacement character. -/
def lossyChars : (fuel : Nat) → Bytes → List Char
  | 0, _ => []
  | _ + 1, [] => []
  | fuel + 1, lead :: bytes =>
    match continuations lead with
    | none => '\uFFFD' :: lossyChars fuel bytes
    | some ranges =>
      let taken := inRanges ranges bytes
      let char := if taken = ranges.length then decodeChar lead (bytes.take taken) else '\uFFFD'
      char :: lossyChars fuel (bytes.drop taken)

def fromUtf8Lossy (bytes : Bytes) : String := String.ofList (lossyChars bytes.length bytes)

/-- Seven-bit characters are read as they are. -/
theorem lossyChars_ascii {chars : List Char} (ascii : ∀ char ∈ chars, char.toNat < 128) :
    lossyChars chars.length (chars.map fun char => UInt8.ofNat char.toNat) = chars := by
  induction chars with
  | nil => rfl
  | cons char chars inductionHypothesis =>
    have small := ascii char List.mem_cons_self
    have value : (UInt8.ofNat char.toNat).toNat = char.toNat := by
      rw [UInt8.toNat_ofNat']
      exact Nat.mod_eq_of_lt (by omega)
    have lead : continuations (UInt8.ofNat char.toNat) = some [] := by
      rw [continuations, if_pos (by rw [UInt8.lt_iff_toNat_lt, value]; exact small)]
    have rest := inductionHypothesis fun other member => ascii other (List.mem_cons_of_mem _ member)
    simp only [List.map_cons, List.length_cons, lossyChars, lead]
    simp [inRanges, decodeChar, value, rest]

end ProofEngine.Text
