import ProofEngine.Cli.Ingest
import ProofEngine.Lib.TextLines

/-! # Batches of records

Command line and service walk a batch the same way: one record on a line, blank lines passed over, the numbers of
the others counted.  A bad record ends the batch, or is listed when bad ones are to be skipped. -/

namespace ProofEngine

open Text

/-! ## The loop -/

structure IngestProgress where
  lineNo : Nat
  ids : List String
  skipped : List String
  deriving DecidableEq, Repr

def IngestProgress.start : IngestProgress := { lineNo := 0, ids := [], skipped := [] }

section
variable (fromStr : String → Except String Json) (ingestRecord : Nat → Json → Except String String)

/-- The record on a line. -/
def ingestText (lineNo : Nat) (line : String) : Except String String :=
  match fromStr line with
  | .error message => .error ("line " ++ toString lineNo ++ ": bad JSON: " ++ message)
  | .ok value => ingestRecord lineNo value

/-- The body of the loop. -/
def ingestStep (skipBad : Bool) (progress : IngestProgress) (raw : String) : Except String IngestProgress :=
  let line := trim raw
  if line.isEmpty then .ok progress
  else
    let lineNo := progress.lineNo + 1
    match ingestText fromStr ingestRecord lineNo line with
    | .ok id => .ok { progress with lineNo, ids := progress.ids ++ [id] }
    | .error message =>
      if skipBad then .ok { progress with lineNo, skipped := progress.skipped ++ [message] } else .error message

def ingestLines (skipBad : Bool) (text : String) : Except String IngestProgress :=
  (lines text).foldlM (ingestStep fromStr ingestRecord skipBad) .start

end

/-! ## What the loop collects -/

/-- The records of a batch: the lines without white space around them, but for the blank ones. -/
def recordLines (text : String) : List String := ((lines text).map trim).filter fun line => !line.isEmpty

theorem recordLines_append (before after : String) :
    recordLines (before ++ "\n" ++ after) = recordLines (before ++ "\n") ++ recordLines after := by
  rw [recordLines, lines_append, List.map_append, List.filter_append]
  rfl

section
variable (fromStr : String → Except String Json) (ingestRecord : Nat → Json → Except String String)

/-- What becomes of each record; `first` is the number of the line before. -/
def outcomesFrom (first : Nat) : List String → List (Except String String)
  | [] => []
  | line :: lines => ingestText fromStr ingestRecord (first + 1) line :: outcomesFrom (first + 1) lines

/-- What becomes of each record of a batch. -/
def recordOutcomes (text : String) : List (Except String String) :=
  outcomesFrom fromStr ingestRecord 0 (recordLines text)

/-- Why a record is bad. -/
def refusal : Except String String → Option String
  | .ok _ => none
  | .error message => some message

/-- What the loop has when it went through the outcomes. -/
def IngestProgress.through (progress : IngestProgress) (outcomes : List (Except String String)) : IngestProgress where
  lineNo := progress.lineNo + outcomes.length
  ids := progress.ids ++ outcomes.filterMap Except.toOption
  skipped := progress.skipped ++ outcomes.filterMap refusal

theorem outcomesFrom_length (first : Nat) (lines : List String) :
    (outcomesFrom fromStr ingestRecord first lines).length = lines.length := by
  induction lines generalizing first with
  | nil => rfl
  | cons line lines inductionHypothesis => rw [outcomesFrom, List.length_cons, inductionHypothesis, List.length_cons]

theorem IngestProgress.through_ok (progress : IngestProgress) (id : String) (outcomes : List (Except String String)) :
    progress.through (.ok id :: outcomes) =
      { progress with lineNo := progress.lineNo + 1, ids := progress.ids ++ [id] }.through outcomes := by
  have found : (Except.ok id : Except String String).toOption = some id := rfl
  have kept : refusal (.ok id) = none := rfl
  simp [IngestProgress.through, found, kept, Nat.add_comm, Nat.add_left_comm]

theorem IngestProgress.through_error (progress : IngestProgress) (message : String)
    (outcomes : List (Except String String)) :
    progress.through (.error message :: outcomes) =
      { progress with lineNo := progress.lineNo + 1, skipped := progress.skipped ++ [message] }.through outcomes := by
  have lost : (Except.error message : Except String String).toOption = none := rfl
  have kept : refusal (.error message) = some message := rfl
  simp [IngestProgress.through, lost, kept, Nat.add_comm, Nat.add_left_comm]

theorem foldlM_ingestStep_skip (progress : IngestProgress) (raws : List String) :
    raws.foldlM (ingestStep fromStr ingestRecord true) progress = .ok (progress.through
      (outcomesFrom fromStr ingestRecord progress.lineNo ((raws.map trim).filter fun line => !line.isEmpty))) := by
  induction raws generalizing progress with
  | nil => simp [IngestProgress.through, outcomesFrom, pure_eq_ok]
  | cons raw raws inductionHypothesis =>
    rw [List.foldlM_cons, List.map_cons]
    by_cases blank : (trim raw).isEmpty = true
    · simp only [ingestStep, blank, if_true, ok_bind, inductionHypothesis, List.filter_cons, Bool.not_true,
        Bool.false_eq_true, if_false]
    · simp only [ingestStep, blank, Bool.false_eq_true, if_false, if_true, List.filter_cons, Bool.not_false,
        outcomesFrom]
      cases read : ingestText fromStr ingestRecord (progress.lineNo + 1) (trim raw) with
      | ok id =>
        rw [ok_bind, inductionHypothesis, IngestProgress.through_ok]
      | error message =>
        rw [ok_bind, inductionHypothesis, IngestProgress.through_error]

theorem foldlM_ingestStep_strict (progress : IngestProgress) (raws : List String) :
    raws.foldlM (ingestStep fromStr ingestRecord false) progress =
      ((outcomesFrom fromStr ingestRecord progress.lineNo
        ((raws.map trim).filter fun line => !line.isEmpty)).mapM id).map fun ids =>
          { progress with lineNo := progress.lineNo + ids.length, ids := progress.ids ++ ids } := by
  induction raws generalizing progress with
  | nil => simp [outcomesFrom, pure_eq_ok, Except.map]
  | cons raw raws inductionHypothesis =>
    rw [List.foldlM_cons, List.map_cons]
    by_cases blank : (trim raw).isEmpty = true
    · simp only [ingestStep, blank, if_true, ok_bind, inductionHypothesis, List.filter_cons, Bool.not_true,
        Bool.false_eq_true, if_false]
    · simp only [ingestStep, blank, Bool.false_eq_true, if_false, if_true, List.filter_cons, Bool.not_false,
        outcomesFrom, List.mapM_cons, id]
      cases read : ingestText fromStr ingestRecord (progress.lineNo + 1) (trim raw) with
      | error message => rfl
      | ok found =>
        rw [ok_bind, ok_bind, inductionHypothesis]
        cases rest : (outcomesFrom fromStr ingestRecord (progress.lineNo + 1)
            ((raws.map trim).filter fun line => !line.isEmpty)).mapM id with
        | error message => rfl
        | ok others =>
          simp only [ok_bind, pure_eq_ok, Except.map, Except.ok.injEq, IngestProgress.mk.injEq, List.length_cons,
            List.append_assoc, List.singleton_append, and_true]
          omega

end

end ProofEngine
