import ProofEngine.Api.Ingest
import ProofEngine.Api.Route

/-! # Posted batches

What becomes of a record does not depend on the records around it.  A batch that skips bad records is answered with
the ids of the good ones and the reasons against the bad ones; any other batch is answered so when it has no bad record,
and with the first reason when it has one. -/

namespace ProofEngine.Api

open Text

/-! ## What is collected -/

theorem toOption_eq_some {ε α : Type} {result : Except ε α} {value : α} :
    result.toOption = some value ↔ result = .ok value := by
  cases result <;> simp [Except.toOption]

section
variable {fromStr : String → Except String Json} {record : Nat → Json → Except String String}

theorem outcomesFrom_append (first : Nat) (lines others : List String) :
    outcomesFrom fromStr record first (lines ++ others) =
      outcomesFrom fromStr record first lines ++ outcomesFrom fromStr record (first + lines.length) others := by
  induction lines generalizing first with
  | nil => rfl
  | cons line lines inductionHypothesis =>
    rw [List.cons_append, outcomesFrom, outcomesFrom, inductionHypothesis, List.length_cons, List.cons_append,
      Nat.add_right_comm, Nat.add_assoc]

theorem mem_outcomesFrom {first : Nat} {lines : List String} {outcome : Except String String}
    (member : outcome ∈ outcomesFrom fromStr record first lines) :
    ∃ line ∈ lines, ∃ lineNo, ingestText fromStr record lineNo line = outcome := by
  induction lines generalizing first with
  | nil => cases member
  | cons line lines inductionHypothesis =>
    rw [outcomesFrom, List.mem_cons] at member
    rcases member with rfl | later
    · exact ⟨line, List.mem_cons_self, _, rfl⟩
    · obtain ⟨other, otherMember, found⟩ := inductionHypothesis later
      exact ⟨other, List.mem_cons_of_mem _ otherMember, found⟩

/-- Where numbers show in reasons only, they can be counted from anywhere. -/
theorem accepted_renumbered
    (unnumbered : ∀ lineNo other line,
      (ingestText fromStr record lineNo line).toOption = (ingestText fromStr record other line).toOption)
    (first other : Nat) (lines : List String) :
    (outcomesFrom fromStr record first lines).filterMap Except.toOption =
      (outcomesFrom fromStr record other lines).filterMap Except.toOption := by
  induction lines generalizing first other with
  | nil => rfl
  | cons line lines inductionHypothesis =>
    rw [outcomesFrom, outcomesFrom, List.filterMap_cons, List.filterMap_cons, unnumbered (first + 1) (other + 1),
      inductionHypothesis (first + 1) (other + 1)]

end

theorem mapM_id_of_accepted {outcomes : List (Except String String)} (accepted : outcomes.filterMap refusal = []) :
    outcomes.mapM id = .ok (outcomes.filterMap Except.toOption) := by
  induction outcomes with
  | nil => rfl
  | cons outcome outcomes inductionHypothesis =>
    cases outcome with
    | error message => cases accepted
    | ok found =>
      rw [List.mapM_cons, inductionHypothesis accepted]
      rfl

theorem mapM_id_of_refused {outcomes : List (Except String String)} {message : String} {messages : List String}
    (refused : outcomes.filterMap refusal = message :: messages) : outcomes.mapM id = .error message := by
  induction outcomes with
  | nil => cases refused
  | cons outcome outcomes inductionHypothesis =>
    cases outcome with
    | error first =>
      obtain ⟨rfl, _⟩ := List.cons.inj refused
      rfl
    | ok found =>
      rw [List.mapM_cons, inductionHypothesis refused]
      rfl

theorem length_accepted_refused (outcomes : List (Except String String)) :
    (outcomes.filterMap Except.toOption).length + (outcomes.filterMap refusal).length = outcomes.length := by
  induction outcomes with
  | nil => rfl
  | cons outcome outcomes inductionHypothesis =>
    cases outcome with
    | ok found =>
      rw [List.length_cons, ← inductionHypothesis]
      exact Nat.add_right_comm _ 1 _
    | error message =>
      rw [List.length_cons, ← inductionHypothesis]
      rfl

/-! ## Batches of the service -/

section
variable (libraries : Libraries) (primitives : Primitives) (limits : Limits) (text : String)

def batchOutcomes : List (Except String String) :=
  recordOutcomes libraries.fromStr (ingestRecord primitives limits) text

/-- The ids of the good records, in order. -/
def acceptedIds : List String := (batchOutcomes libraries primitives limits text).filterMap Except.toOption

/-- The reasons against the bad ones, in order. -/
def refusals : List String := (batchOutcomes libraries primitives limits text).filterMap refusal

/-- The event of a record line has this id. -/
def CreatedFrom (line id : String) : Prop :=
  ∃ obj record created, libraries.fromStr line = .ok (.object obj) ∧ Records obj record ∧
    createEvent primitives (record.event (textFields record.pairs)) limits = .ok created ∧ created.id = id

/-- The answer to a batch that is taken. -/
def takenAnswer (dryRun : Bool) : Response where
  status := 200
  body := manifest
    { lineNo := (recordLines text).length, ids := acceptedIds libraries primitives limits text,
      skipped := refusals libraries primitives limits text } dryRun

end

section
variable {libraries : Libraries} {primitives : Primitives} {limits : Limits} {text : String} {v : Json}

theorem ingestText_eq_ok {lineNo : Nat} {line id : String} :
    ingestText libraries.fromStr (ingestRecord primitives limits) lineNo line = .ok id ↔
      CreatedFrom libraries primitives limits line id := by
  rw [ingestText]
  cases read : libraries.fromStr line with
  | error message => simp [CreatedFrom, read]
  | ok value =>
    cases value with
    | object obj => simp [CreatedFrom, read, ingestRecord_eq_ok]
    | _ => simp [CreatedFrom, read, ingestRecord]

theorem ingestText_unnumbered (lineNo other : Nat) (line : String) :
    (ingestText libraries.fromStr (ingestRecord primitives limits) lineNo line).toOption =
      (ingestText libraries.fromStr (ingestRecord primitives limits) other line).toOption := by
  refine Option.ext fun id => ?_
  rw [toOption_eq_some, toOption_eq_some, ingestText_eq_ok, ingestText_eq_ok]

theorem start_through :
    IngestProgress.start.through (batchOutcomes libraries primitives limits text) =
      { lineNo := (recordLines text).length, ids := acceptedIds libraries primitives limits text,
        skipped := refusals libraries primitives limits text } := by
  simp only [IngestProgress.through, IngestProgress.start, batchOutcomes, recordOutcomes, outcomesFrom_length,
    Nat.zero_add, List.nil_append, acceptedIds, refusals]

theorem ingestRoute_taken (posted : v.strField "records" = some text) (within : len text ≤ 8 * 2 ^ 20)
    (spared : boolField v "skip_bad" = true ∨ refusals libraries primitives limits text = []) :
    ingestRoute libraries primitives limits v =
      takenAnswer libraries primitives limits text (boolField v "dry_run") := by
  have through := @start_through libraries primitives limits text
  simp only [ingestRoute, posted, if_neg (not_lt.mpr within), ingestLines]
  cases skipping : boolField v "skip_bad" with
  | true =>
    rw [foldlM_ingestStep_skip, takenAnswer, ← through]
    rfl
  | false =>
    have clean : refusals libraries primitives limits text = [] := by
      rcases spared with skip | clean
      · rw [skipping] at skip
        cases skip
      · exact clean
    have all : ((outcomesFrom libraries.fromStr (ingestRecord primitives limits) IngestProgress.start.lineNo
        ((List.map trim (lines text)).filter fun line => !line.isEmpty)).mapM id) =
          .ok (acceptedIds libraries primitives limits text) := mapM_id_of_accepted clean
    rw [foldlM_ingestStep_strict, all, takenAnswer]
    simp only [Except.map]
    rw [manifest, manifest, clean]
    rfl

theorem ingestRoute_refused (posted : v.strField "records" = some text) (within : len text ≤ 8 * 2 ^ 20)
    (strict : boolField v "skip_bad" = false) {message : String} {messages : List String}
    (refused : refusals libraries primitives limits text = message :: messages) :
    ingestRoute libraries primitives limits v = { status := 400, body := errJson ("ingest: " ++ message) } := by
  have first : ((outcomesFrom libraries.fromStr (ingestRecord primitives limits) IngestProgress.start.lineNo
      ((List.map trim (lines text)).filter fun line => !line.isEmpty)).mapM id) = .error message :=
    mapM_id_of_refused refused
  simp only [ingestRoute, posted, if_neg (not_lt.mpr within), ingestLines, strict]
  rw [foldlM_ingestStep_strict, first]
  rfl

theorem acceptedIds_append (before after : String) :
    acceptedIds libraries primitives limits (before ++ "\n" ++ after) =
      acceptedIds libraries primitives limits (before ++ "\n") ++ acceptedIds libraries primitives limits after := by
  simp only [acceptedIds, batchOutcomes, recordOutcomes, recordLines_append, outcomesFrom_append,
    List.filterMap_append]
  exact congrArg _ (accepted_renumbered ingestText_unnumbered _ 0 _)

end

/-- A batch is answered by its records one by one: every id is that of the event of a record line, every record is
    accepted or refused, and a batch that is cut at a line feed has the ids of its parts. -/
theorem ingestRoute_batch (libraries : Libraries) (primitives : Primitives) (limits : Limits) (v : Json)
    (text : String) (posted : v.strField "records" = some text) (within : len text ≤ 8 * 2 ^ 20) :
    ((boolField v "skip_bad" = true ∨ refusals libraries primitives limits text = []) →
      ingestRoute libraries primitives limits v =
        takenAnswer libraries primitives limits text (boolField v "dry_run")) ∧
    (∀ message messages, boolField v "skip_bad" = false →
      refusals libraries primitives limits text = message :: messages →
        ingestRoute libraries primitives limits v = { status := 400, body := errJson ("ingest: " ++ message) }) ∧
    (∀ id ∈ acceptedIds libraries primitives limits text, ∃ line ∈ recordLines text,
      CreatedFrom libraries primitives limits line id) ∧
    (acceptedIds libraries primitives limits text).length + (refusals libraries primitives limits text).length =
      (recordLines text).length ∧
    ∀ before after, text = before ++ "\n" ++ after →
      acceptedIds libraries primitives limits text =
        acceptedIds libraries primitives limits (before ++ "\n") ++ acceptedIds libraries primitives limits after := by
  refine ⟨ingestRoute_taken posted within, ?_, ?_, ?_, ?_⟩
  · intro message messages strict refused
    exact ingestRoute_refused posted within strict refused
  · intro id member
    obtain ⟨outcome, outcomeMember, accepted⟩ := List.mem_filterMap.mp member
    obtain ⟨line, lineMember, lineNo, found⟩ := mem_outcomesFrom outcomeMember
    exact ⟨line, lineMember, ingestText_eq_ok.mp (found.trans (toOption_eq_some.mp accepted))⟩
  · refine (length_accepted_refused (batchOutcomes libraries primitives limits text)).trans ?_
    exact outcomesFrom_length _ _ 0 (recordLines text)
  · rintro before after rfl
    exact acceptedIds_append before after

/-! ## A reading and a slip -/

/-- A JSON library that knows one record. -/
def readingLibraries : Libraries where
  fromSlice _ := .error "expected value at line 1 column 1"
  fromStr line :=
    if line = "reading" then .ok (.object (measurement "unit=celsius,value=36"))
    else .error "expected value at line 1 column 1"
  toText _ := ""

/-- The reading, a blank line, and a line that is no JSON. -/
def slippedBatch (skip : Bool) : Json :=
  .object [("records", .string "reading\n\nslip\n"), ("skip_bad", .bool skip)]

theorem slippedBatch_outcomes :
    acceptedIds readingLibraries measurementPrimitives Limits.default "reading\n\nslip\n" =
        ["evt:v1:8oIVTgzq8hEjDSKbqSCLdGf89tUCEFlBLCdSr4vcE3A"] ∧
      refusals readingLibraries measurementPrimitives Limits.default "reading\n\nslip\n" =
        ["line 2: bad JSON: expected value at line 1 column 1"] := by
  decide +kernel

theorem slippedBatch_answers :
    ingestRoute readingLibraries measurementPrimitives Limits.default (slippedBatch true) =
        takenAnswer readingLibraries measurementPrimitives Limits.default "reading\n\nslip\n" false ∧
      ingestRoute readingLibraries measurementPrimitives Limits.default (slippedBatch false) =
        { status := 400
          body := errJson ("ingest: " ++ "line 2: bad JSON: expected value at line 1 column 1") } ∧
      ∃ line ∈ recordLines "reading\n\nslip\n", CreatedFrom readingLibraries measurementPrimitives Limits.default line
        "evt:v1:8oIVTgzq8hEjDSKbqSCLdGf89tUCEFlBLCdSr4vcE3A" := by
  obtain ⟨ids, refused⟩ := slippedBatch_outcomes
  have small : len "reading\n\nslip\n" ≤ 8 * 2 ^ 20 := by decide +kernel
  obtain ⟨taken, _, created, _⟩ := ingestRoute_batch readingLibraries measurementPrimitives Limits.default
    (slippedBatch true) _ rfl small
  obtain ⟨_, first, _⟩ := ingestRoute_batch readingLibraries measurementPrimitives Limits.default
    (slippedBatch false) _ rfl small
  exact ⟨taken (.inl rfl), first _ [] rfl refused, created _ (ids ▸ List.mem_singleton_self _)⟩

end ProofEngine.Api
