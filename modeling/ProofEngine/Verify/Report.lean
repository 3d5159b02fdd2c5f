import ProofEngine.Crypto.Build

/-! # Verification report

Every stage leaves check records; the verdicts are computed from the failed ones. -/

namespace ProofEngine

inductive Validity where
  | valid
  | invalid
  deriving DecidableEq, Repr

inductive PolicyDecision where
  | pass
  | fail
  | indeterminate
  deriving DecidableEq, Repr

inductive Stage where
  | parse
  | schema
  | canonical
  | identifiers
  | signatures
  | keys
  | time
  | revocation
  /-- Hygiene of status inputs; never counts against the evidence. -/
  | status
  | evidence
  | relationships
  | graph
  | policy
  deriving DecidableEq, Repr

structure CheckRecord where
  stage : Stage
  object : String
  ok : Bool
  code : Option ErrorCode
  message : String
  deriving DecidableEq, Repr

namespace CheckRecord

def pass (stage : Stage) (object message : String) : CheckRecord :=
  { stage, object, ok := true, code := none, message }

def fail (stage : Stage) (object : String) (code : ErrorCode) (message : String) : CheckRecord :=
  { stage, object, ok := false, code := some code, message }

/-- A true statement about the run, not the result of a check. -/
def note (stage : Stage) (object message : String) : CheckRecord :=
  { stage, object, ok := true, code := none, message }

@[simp] theorem pass_ok (stage : Stage) (object message : String) : (pass stage object message).ok = true := rfl

@[simp] theorem note_ok (stage : Stage) (object message : String) : (note stage object message).ok = true := rfl

@[simp] theorem fail_ok (stage : Stage) (object : String) (code : ErrorCode) (message : String) :
    (fail stage object code message).ok = false := rfl

@[simp] theorem pass_stage (stage : Stage) (object message : String) :
    (pass stage object message).stage = stage := rfl

@[simp] theorem note_stage (stage : Stage) (object message : String) :
    (note stage object message).stage = stage := rfl

@[simp] theorem fail_stage (stage : Stage) (object : String) (code : ErrorCode) (message : String) :
    (fail stage object code message).stage = stage := rfl

end CheckRecord

structure LifecycleRecord where
  object : String
  status : LifecycleStatus
  code : Option ErrorCode
  message : String
  deriving DecidableEq, Repr

structure EvidenceStatusRecord where
  object : String
  status : EvidenceStatus
  code : Option ErrorCode
  message : String
  deriving DecidableEq, Repr

inductive ConflictKind where
  | divergentClaims
  | denial
  | contradiction
  deriving DecidableEq, Repr

def ConflictKind.asStr : ConflictKind → String
  | .divergentClaims => "divergent_claims"
  | .denial => "denial"
  | .contradiction => "contradiction"

structure ConflictRecord where
  kind : ConflictKind
  claimType : String
  subject : String
  attestationIds : List String
  deriving DecidableEq, Repr

structure VerifyReport where
  proofId : Option String
  cryptographicValidity : Validity
  evidenceValidity : Validity
  policyDecision : PolicyDecision
  lifecycleChecked : Bool
  lifecycle : List LifecycleRecord
  statusObjects : List String
  withdrawnIds : List String
  referencedProofs : List String
  vocabularies : List VocabularyDecl
  evidenceStatus : List EvidenceStatusRecord
  conflicts : List ConflictRecord
  checks : List CheckRecord
  statusInputsValid : Bool
  deriving DecidableEq, Repr

/-! ## Verdicts -/

def cryptoStages : List Stage := [.parse, .schema, .canonical, .identifiers, .signatures, .keys]

def evidenceStages : List Stage := [.time, .revocation, .evidence, .relationships, .graph]

def stageValid (checks : List CheckRecord) (stages : List Stage) : Validity :=
  if checks.any fun check => !check.ok && stages.contains check.stage then .invalid else .valid

/-- No check of these stages failed. -/
def NoFailure (checks : List CheckRecord) (stages : List Stage) : Prop :=
  ∀ check ∈ checks, check.stage ∈ stages → check.ok = true

theorem stageValid_eq_valid {checks : List CheckRecord} {stages : List Stage} :
    stageValid checks stages = .valid ↔ NoFailure checks stages := by
  simp only [stageValid, NoFailure, ite_eq_right_iff, reduceCtorEq, imp_false, Bool.not_eq_true,
    List.any_eq_false, Bool.and_eq_true, Bool.not_eq_true', List.contains_iff_mem, not_and]
  exact ⟨fun clean check member inside => by
      by_contra failed
      exact clean check member (Bool.eq_false_iff.mpr failed) inside,
    fun clean check member failed inside => by simp [clean check member inside] at failed⟩

def policyNote : CheckRecord :=
  .note .policy "policy:caller"
    "policy decision is made by the caller via proof-policy::evaluate_policy; the pipeline reports INDETERMINATE (never PASS by default)"

/-- What the stages hand to the report besides their checks. -/
structure Findings where
  lifecycle : List LifecycleRecord := []
  statusObjects : List String := []
  withdrawnIds : List String := []
  referencedProofs : List String := []
  vocabularies : List VocabularyDecl := []
  evidenceStatus : List EvidenceStatusRecord := []
  conflicts : List ConflictRecord := []

/-- The report; evidence that was never looked at is invalid, not vacuously valid. -/
def finalize (proofId : Option String) (checks : List CheckRecord) (findings : Findings)
    (lifecycleChecked : Bool) : VerifyReport :=
  let all := checks ++ [policyNote]
  { proofId
    cryptographicValidity := stageValid all cryptoStages
    evidenceValidity := if lifecycleChecked then stageValid all evidenceStages else .invalid
    policyDecision := .indeterminate
    lifecycleChecked
    lifecycle := findings.lifecycle
    statusObjects := findings.statusObjects
    withdrawnIds := findings.withdrawnIds
    referencedProofs := findings.referencedProofs
    vocabularies := findings.vocabularies
    evidenceStatus := findings.evidenceStatus
    conflicts := findings.conflicts
    checks := all
    statusInputsValid := !all.any fun check => !check.ok && check.stage = .status }

end ProofEngine
