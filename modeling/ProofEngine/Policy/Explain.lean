import ProofEngine.Cli.Verify
import ProofEngine.Lib.TextLines
import ProofEngine.Policy.Eval

/-! # Explanations

A report and an outcome as text.  The messages in it repeat what a producer wrote, line feeds included, so that a
reader can rely on its first lines and on its last one only. -/

namespace ProofEngine

open Text

/-! ## The text -/

def validityWord : Validity → String
  | .valid => "valid"
  | .invalid => "invalid"

def decisionWord : PolicyDecision → String
  | .pass => "PASS"
  | .fail => "FAIL"
  | .indeterminate => "INDETERMINATE"

/-- The line of a failed check. -/
def explainCheck (check : CheckRecord) : String :=
  String.join ["FAIL [", check.stage.asStr, "] ", (check.code.map ErrorCode.asStr).getD "NO_CODE", ": ", check.message,
    "\n"]

/-- One line for each failed check, under the verdicts. -/
def explainReport (report : VerifyReport) : String :=
  String.join
    (["cryptographic_validity: " ++ validityWord report.cryptographicValidity ++ "\n",
      "evidence_validity: " ++ validityWord report.evidenceValidity ++ "\n",
      "policy_decision: " ++ report.policyDecision.asStr ++ "\n"] ++
      (report.checks.filter fun check => !check.ok).map explainCheck ++
      if report.checks.all CheckRecord.ok then ["all pipeline checks passed\n"] else [])

def explainResult (result : RequirementResult) : String :=
  String.join [if result.passed then "PASS" else "FAIL", " ", result.requirement, " — ", result.message, "\n"]

def explainOutcome (outcome : PolicyOutcome) : String :=
  String.join
    (["POLICY: " ++ outcome.policyId ++ "\n\n"] ++
      (if outcome.results.isEmpty then [outcome.note.getD "no requirements evaluated" ++ "\n\n"] else []) ++
      outcome.results.map explainResult ++ ["\nDecision: " ++ decisionWord outcome.decision ++ "\n"])

def explainFull (report : VerifyReport) (outcome : PolicyOutcome) : String :=
  explainReport report ++ "\n" ++ explainOutcome outcome

/-! ## What a reader can rely on -/

/-- A text without line feeds, ended by one, is a line of its own before whatever follows. -/
theorem lines_cons {line : String} (solid : '\n' ∉ line.toList) (returned : line.toList.getLast? ≠ some '\r')
    (rest : String) : lines (line ++ "\n" ++ rest) = line :: lines rest := by
  have feed : ("\n" : String).toList = ['\n'] := rfl
  rw [lines, String.toList_append, String.toList_append, feed, List.append_assoc, List.singleton_append,
    lineChars_line solid, List.map_cons, List.reverse_nil, List.nil_append, dropReturn, if_neg returned,
    String.ofList_toList]
  rfl

/-- The words of a verdict stay on their line. -/
def OneLine (text : String) : Prop := '\n' ∉ text.toList ∧ text.toList.getLast? ≠ some '\r'

theorem validityLine (name : String) (named : name = "cryptographic_validity: " ∨ name = "evidence_validity: ")
    (validity : Validity) : OneLine (name ++ validityWord validity) := by
  rcases named with rfl | rfl
  · cases validity <;> exact ⟨by decide +kernel, by decide +kernel⟩
  · cases validity <;> exact ⟨by decide +kernel, by decide +kernel⟩

theorem policyLine (decision : PolicyDecision) : OneLine ("policy_decision: " ++ decision.asStr) := by
  cases decision <;> exact ⟨by decide +kernel, by decide +kernel⟩

theorem decisionLine (decision : PolicyDecision) : OneLine ("Decision: " ++ decisionWord decision) := by
  cases decision <;> exact ⟨by decide +kernel, by decide +kernel⟩

theorem OneLine.lines_cons {line : String} (plain : OneLine line) (rest : String) :
    lines (line ++ "\n" ++ rest) = line :: lines rest :=
  ProofEngine.lines_cons plain.1 plain.2 rest

/-- Lines that stay, a text that does not, and a last line that stays. -/
theorem lines_between {first second third last : String} (firstLine : OneLine first) (secondLine : OneLine second)
    (thirdLine : OneLine third) (lastLine : OneLine last) (between : String) :
    lines (first ++ "\n" ++ (second ++ "\n" ++ (third ++ "\n" ++ (between ++ "\n" ++ (last ++ "\n"))))) =
      [first, second, third] ++ lines (between ++ "\n") ++ [last] := by
  have closing : lines (last ++ "\n" ++ "") = last :: lines "" := lastLine.lines_cons ""
  rw [String.append_empty] at closing
  rw [firstLine.lines_cons, secondLine.lines_cons, thirdLine.lines_cons, lines_append, closing]
  rfl

theorem explainReport_opens (report : VerifyReport) : ∃ failures, explainReport report =
    "cryptographic_validity: " ++ validityWord report.cryptographicValidity ++ "\n" ++
      ("evidence_validity: " ++ validityWord report.evidenceValidity ++ "\n" ++
        ("policy_decision: " ++ report.policyDecision.asStr ++ "\n" ++ failures)) := by
  rw [explainReport, List.append_assoc]
  simp only [List.cons_append, List.nil_append, String.join_cons]
  exact ⟨_, rfl⟩

theorem explainOutcome_closes (outcome : PolicyOutcome) : ∃ before, explainOutcome outcome =
    before ++ "\n" ++ ("Decision: " ++ decisionWord outcome.decision ++ "\n") := by
  have feed : "\nDecision: " = "\n" ++ "Decision: " := by decide +kernel
  rw [explainOutcome, String.join_append, String.join_cons, String.join_nil, String.append_empty, feed]
  generalize String.join _ = before
  exact ⟨before, by simp only [String.append_assoc]⟩

/-- Whatever the messages say, the explanation opens with the verdicts of the report and closes with the decision. -/
theorem explainFull_lines (report : VerifyReport) (outcome : PolicyOutcome) : ∃ middle : List String,
    lines (explainFull report outcome) =
      ["cryptographic_validity: " ++ validityWord report.cryptographicValidity,
        "evidence_validity: " ++ validityWord report.evidenceValidity,
        "policy_decision: " ++ report.policyDecision.asStr] ++ middle ++
          ["Decision: " ++ decisionWord outcome.decision] := by
  obtain ⟨failures, opens⟩ := explainReport_opens report
  obtain ⟨before, closes⟩ := explainOutcome_closes outcome
  have firstLine := validityLine "cryptographic_validity: " (.inl rfl) report.cryptographicValidity
  have secondLine := validityLine "evidence_validity: " (.inr rfl) report.evidenceValidity
  have thirdLine := policyLine report.policyDecision
  have lastLine := decisionLine outcome.decision
  refine ⟨lines (failures ++ "\n" ++ before ++ "\n"), ?_⟩
  rw [explainFull, opens, closes, ← lines_between firstLine secondLine thirdLine lastLine]
  simp only [String.append_assoc]

end ProofEngine
