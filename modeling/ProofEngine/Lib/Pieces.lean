import Mathlib.Data.List.Basic
import Mathlib.Data.List.Infix

/-! # Reading a stream in pieces

A reader appends the pieces of a stream to what it has, until a mark shows or until it has enough.  Where the pieces
are cut must not show in the result; the bound on what is read is the one place where it can. -/

namespace ProofEngine.Pieces

variable {α : Type}

/-! ## The end of a mark -/

/-- Just after the first occurrence of `mark`. -/
def findEnd [DecidableEq α] (mark : List α) : List α → Option Nat
  | [] => none
  | item :: items =>
    if mark.isPrefixOf (item :: items) then some mark.length else (findEnd mark items).map (· + 1)

section
variable [DecidableEq α] {mark items : List α} {stop : Nat}

theorem findEnd_le (found : findEnd mark items = some stop) : mark.length ≤ stop ∧ stop ≤ items.length := by
  induction items generalizing stop with
  | nil => cases found
  | cons item items inductionHypothesis =>
    rw [findEnd] at found
    by_cases here : mark.isPrefixOf (item :: items) = true
    · rw [if_pos here] at found
      cases found
      exact ⟨le_refl _, (List.isPrefixOf_iff_prefix.mp here).length_le⟩
    · rw [if_neg here] at found
      obtain ⟨later, inner, rfl⟩ := Option.map_eq_some_iff.mp found
      have bounds := inductionHypothesis inner
      simp only [List.length_cons]
      omega

/-- What follows a mark does not move it. -/
theorem findEnd_append (found : findEnd mark items = some stop) (more : List α) :
    findEnd mark (items ++ more) = some stop := by
  induction items generalizing stop with
  | nil => cases found
  | cons item items inductionHypothesis =>
    rw [findEnd] at found
    rw [List.cons_append, findEnd]
    by_cases here : mark.isPrefixOf (item :: items) = true
    · rw [if_pos here] at found
      have stays : mark.isPrefixOf (item :: (items ++ more)) = true :=
        List.isPrefixOf_iff_prefix.mpr ((List.isPrefixOf_iff_prefix.mp here).trans (List.prefix_append (item :: items) more))
      rwa [if_pos stays]
    · rw [if_neg here] at found
      obtain ⟨later, inner, rfl⟩ := Option.map_eq_some_iff.mp found
      have bounds := findEnd_le inner
      have shorter : mark.length ≤ (item :: items).length := by
        simp only [List.length_cons]
        omega
      have stays : mark.isPrefixOf (item :: (items ++ more)) ≠ true := by
        intro longer
        refine here (List.isPrefixOf_iff_prefix.mpr ?_)
        exact List.prefix_of_prefix_length_le (List.isPrefixOf_iff_prefix.mp longer)
          (List.prefix_append (item :: items) more) shorter
      rw [if_neg stays, inductionHypothesis inner, Option.map_some]

/-- A mark that ends among the first items is found there. -/
theorem findEnd_of_append {more : List α} (found : findEnd mark (items ++ more) = some stop)
    (within : stop ≤ items.length) (filled : mark ≠ []) : findEnd mark items = some stop := by
  have size : 0 < mark.length := List.length_pos_iff.mpr filled
  induction items generalizing stop with
  | nil =>
    have bounds := findEnd_le found
    simp only [List.length_nil] at within
    omega
  | cons item items inductionHypothesis =>
    rw [List.cons_append, findEnd] at found
    rw [findEnd]
    by_cases longer : mark.isPrefixOf (item :: (items ++ more)) = true
    · rw [if_pos longer] at found
      cases found
      have here : mark.isPrefixOf (item :: items) = true :=
        List.isPrefixOf_iff_prefix.mpr (List.prefix_of_prefix_length_le (List.isPrefixOf_iff_prefix.mp longer)
          (List.prefix_append (item :: items) more) within)
      rw [if_pos here]
    · rw [if_neg longer] at found
      obtain ⟨later, inner, rfl⟩ := Option.map_eq_some_iff.mp found
      have absent : mark.isPrefixOf (item :: items) ≠ true := by
        intro here
        exact longer (List.isPrefixOf_iff_prefix.mpr ((List.isPrefixOf_iff_prefix.mp here).trans
          (List.prefix_append (item :: items) more)))
      simp only [List.length_cons] at within
      rw [if_neg absent, inductionHypothesis inner (by omega), Option.map_some]

/-- Items other than the first one of the mark are passed over. -/
theorem findEnd_skip {first : α} {line : List α} (absent : first ∉ line) (items : List α) :
    findEnd (first :: mark) (line ++ items) = (findEnd (first :: mark) items).map (· + line.length) := by
  induction line with
  | nil => simp
  | cons item line inductionHypothesis =>
    obtain ⟨different, rest⟩ := not_or.mp (mt List.mem_cons.mpr absent)
    have elsewhere : (first :: mark).isPrefixOf (item :: (line ++ items)) ≠ true := by
      simp [different]
    rw [List.cons_append, findEnd, if_neg elsewhere, inductionHypothesis rest, Option.map_map, List.length_cons]
    rfl

theorem findEnd_mark {first : α} (rest : List α) :
    findEnd (first :: mark) (first :: mark ++ rest) = some (first :: mark).length := by
  have here : (first :: mark).isPrefixOf (first :: (mark ++ rest)) = true :=
    List.isPrefixOf_iff_prefix.mpr (List.prefix_append (first :: mark) rest)
  rw [List.cons_append, findEnd, if_pos here]

/-- A line and its end are passed over when another line follows. -/
theorem findEnd_line {carriage feed next : α} {line : List α} (solid : carriage ∉ line) (feedElse : carriage ≠ feed)
    (filled : carriage ≠ next) (more : List α) :
    findEnd [carriage, feed, carriage, feed] (line ++ carriage :: feed :: next :: more) =
      (findEnd [carriage, feed, carriage, feed] (next :: more)).map (· + (line.length + 2)) := by
  have notHere : [carriage, feed, carriage, feed].isPrefixOf (carriage :: feed :: next :: more) ≠ true := by
    simp [filled]
  have notThere : [carriage, feed, carriage, feed].isPrefixOf (feed :: next :: more) ≠ true := by
    simp [feedElse]
  rw [findEnd_skip solid, findEnd, if_neg notHere, findEnd, if_neg notThere, Option.map_map, Option.map_map]
  congr 1
  funext stop
  simp only [Function.comp_apply]
  omega

end

/-! ## Reading up to a mark -/

/-- How a search for a mark ends. -/
inductive Search (α : Type) where
  /-- The pieces are used up. -/
  | ended
  /-- More than the bound was read before the mark was looked for. -/
  | tooLong
  | found (read : List α) (stop : Nat) (rest : List (List α))
  deriving DecidableEq

/-- Pieces are appended to `read` until the mark shows; the bound is checked first. -/
def readUntil [DecidableEq α] (mark : List α) (limit : Nat) : (pieces : List (List α)) → (read : List α) → Search α
  | [], _ => .ended
  | piece :: pieces, read =>
    if limit < (read ++ piece).length then .tooLong
    else
      match findEnd mark (read ++ piece) with
      | some stop => .found (read ++ piece) stop pieces
      | none => readUntil mark limit pieces (read ++ piece)

/-- What each end of a search says of the whole stream, when no piece is longer than `size`. -/
def Search.Describes [DecidableEq α] (mark : List α) (limit size : Nat) (whole : List α) : Search α → Prop
  | .ended => findEnd mark whole = none ∧ whole.length ≤ limit
  | .tooLong => limit < whole.length ∧ ∀ stop, findEnd mark whole = some stop → limit + 2 ≤ stop + size
  | .found read stop rest =>
    read ++ rest.flatten = whole ∧ findEnd mark whole = some stop ∧ stop ≤ read.length ∧ read.length ≤ limit

theorem readUntil_describes [DecidableEq α] {mark : List α} (filled : mark ≠ []) {limit size : Nat}
    {pieces : List (List α)} (bounded : ∀ piece ∈ pieces, piece.length ≤ size) {read : List α}
    (absent : findEnd mark read = none) (short : read.length ≤ limit) :
    (readUntil mark limit pieces read).Describes mark limit size (read ++ pieces.flatten) := by
  induction pieces generalizing read with
  | nil =>
    rw [List.flatten_nil, List.append_nil]
    exact ⟨absent, short⟩
  | cons piece pieces inductionHypothesis =>
    have pieceBounded := bounded piece List.mem_cons_self
    rw [readUntil, List.flatten_cons, ← List.append_assoc]
    by_cases long : limit < (read ++ piece).length
    · rw [if_pos long]
      refine ⟨?_, fun stop found => ?_⟩
      · rw [List.length_append]
        omega
      · -- the mark was not in `read`, so it ends in the last piece or later
        have after : read.length < stop := by
          by_contra within
          rw [List.append_assoc] at found
          rw [findEnd_of_append found (by omega) filled] at absent
          cases absent
        rw [List.length_append] at long
        omega
    · rw [if_neg long]
      cases found : findEnd mark (read ++ piece) with
      | some stop =>
        exact ⟨rfl, findEnd_append found _, (findEnd_le found).2, Nat.le_of_not_lt long⟩
      | none =>
        exact inductionHypothesis (fun other member => bounded other (List.mem_cons_of_mem _ member)) found
          (Nat.le_of_not_lt long)

/-- What is left of the pieces is their end. -/
theorem readUntil_rest [DecidableEq α] {mark : List α} {limit stop : Nat} {pieces rest : List (List α)}
    {read found : List α} (search : readUntil mark limit pieces read = .found found stop rest) : rest <:+ pieces := by
  induction pieces generalizing read with
  | nil => cases search
  | cons piece pieces inductionHypothesis =>
    rw [readUntil] at search
    by_cases long : limit < (read ++ piece).length
    · rw [if_pos long] at search
      cases search
    · rw [if_neg long] at search
      cases here : findEnd mark (read ++ piece) with
      | some stop =>
        rw [here] at search
        cases search
        exact List.suffix_cons _ _
      | none =>
        rw [here] at search
        exact (inductionHypothesis search).trans (List.suffix_cons _ _)

/-- Pieces without the mark are only appended. -/
theorem readUntil_append [DecidableEq α] {mark : List α} {limit : Nat} {pieces : List (List α)} {read : List α}
    (absent : findEnd mark (read ++ pieces.flatten) = none) (short : (read ++ pieces.flatten).length ≤ limit)
    (more : List (List α)) :
    readUntil mark limit (pieces ++ more) read = readUntil mark limit more (read ++ pieces.flatten) := by
  induction pieces generalizing read with
  | nil => rw [List.nil_append, List.flatten_nil, List.append_nil]
  | cons piece pieces inductionHypothesis =>
    rw [List.flatten_cons, ← List.append_assoc] at absent short
    have here : findEnd mark (read ++ piece) = none := by
      cases found : findEnd mark (read ++ piece) with
      | none => rfl
      | some stop =>
        rw [findEnd_append found] at absent
        cases absent
    have fits : ¬ limit < (read ++ piece).length := by
      rw [List.length_append] at short
      omega
    rw [List.cons_append, readUntil, if_neg fits, here, List.flatten_cons, ← List.append_assoc]
    exact inductionHypothesis absent short

/-! ## Reading a number of items -/

/-- How reading a number of items ends. -/
inductive Fill (α : Type) where
  | filled (read : List α)
  /-- The pieces are used up. -/
  | ended (read : List α)
  | tooLong
  deriving DecidableEq

/-- Pieces are appended to `read` until there are `count` items; the bound is checked after each piece. -/
def readCount (count limit : Nat) : (pieces : List (List α)) → (read : List α) → Fill α
  | pieces, read =>
    if count ≤ read.length then .filled read
    else
      match pieces with
      | [] => .ended read
      | piece :: pieces =>
        if limit < (read ++ piece).length then .tooLong else readCount count limit pieces (read ++ piece)

/-- With a bound out of reach of the last piece, only the whole stream decides. -/
theorem readCount_eq {count limit size : Nat} (room : count + size ≤ limit + 1) {pieces : List (List α)}
    (bounded : ∀ piece ∈ pieces, piece.length ≤ size) (read : List α) :
    (∃ more, readCount count limit pieces read = .filled (read ++ more) ∧ count ≤ (read ++ more).length ∧
        more <+: pieces.flatten) ∨
      readCount count limit pieces read = .ended (read ++ pieces.flatten) ∧
        (read ++ pieces.flatten).length < count := by
  induction pieces generalizing read with
  | nil =>
    rw [readCount]
    by_cases enough : count ≤ read.length
    · exact .inl ⟨[], by simp [enough], by simpa using enough, List.prefix_refl _⟩
    · exact .inr ⟨by simp [enough], by simpa using enough⟩
  | cons piece pieces inductionHypothesis =>
    have pieceBounded := bounded piece List.mem_cons_self
    rw [readCount]
    by_cases enough : count ≤ read.length
    · exact .inl ⟨[], by simp [enough], by simpa using enough, List.nil_prefix⟩
    · have fits : ¬ limit < (read ++ piece).length := by
        rw [List.length_append]
        omega
      simp only [if_neg enough, if_neg fits, List.flatten_cons]
      obtain ⟨more, done, full, inside⟩ | ⟨done, short⟩ := inductionHypothesis
        (fun other member => bounded other (List.mem_cons_of_mem _ member)) (read ++ piece)
      · refine .inl ⟨piece ++ more, ?_, ?_, (List.prefix_append_right_inj piece).mpr inside⟩
        · rw [done, List.append_assoc]
        · rwa [← List.append_assoc]
      · refine .inr ⟨?_, ?_⟩
        · rw [done, List.append_assoc]
        · rwa [List.append_assoc] at short

end ProofEngine.Pieces
