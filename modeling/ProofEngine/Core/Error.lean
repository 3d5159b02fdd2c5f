import Mathlib.Data.List.Forall2

/-! # Errors and results

Fallible code returns `Except ProofError`.  Code that indexes maps, decrements counters
or loops on hostile input returns `Outcome`, where a panic and a loop that has not
finished are values of their own, so that "never panics" and "always finishes" are
statements about the model. -/

namespace ProofEngine

/-- Stable error codes. -/
inductive ErrorCode where
  | nonCanonical
  | duplicateMapKey
  | forbiddenCborConstruct
  | idMismatch
  | signatureInvalid
  | unknownAlgorithm
  | deprecatedAlgorithm
  | unsupportedVersion
  | limitExceeded
  | malformed
  | invalidBase64Url
  | unexpectedHeaderParam
  | algorithmConfusion
  | schemaViolation
  | relationshipUngrounded
  | danglingReference
  | cycleDetected
  | policyInvalid
  | expired
  | revoked
  | revocationUnknown
  | unauthorizedStatus
  | withdrawn
  | compromised
  deriving DecidableEq, Repr

/-- Wire string of a code. -/
def ErrorCode.asStr : ErrorCode → String
  | .nonCanonical => "NON_CANONICAL"
  | .duplicateMapKey => "DUPLICATE_MAP_KEY"
  | .forbiddenCborConstruct => "FORBIDDEN_CBOR_CONSTRUCT"
  | .idMismatch => "ID_MISMATCH"
  | .signatureInvalid => "SIGNATURE_INVALID"
  | .unknownAlgorithm => "UNKNOWN_ALGORITHM"
  | .deprecatedAlgorithm => "DEPRECATED_ALGORITHM"
  | .unsupportedVersion => "UNSUPPORTED_VERSION"
  | .limitExceeded => "LIMIT_EXCEEDED"
  | .malformed => "MALFORMED"
  | .invalidBase64Url => "INVALID_BASE64URL"
  | .unexpectedHeaderParam => "UNEXPECTED_HEADER_PARAM"
  | .algorithmConfusion => "ALGORITHM_CONFUSION"
  | .schemaViolation => "SCHEMA_VIOLATION"
  | .relationshipUngrounded => "RELATIONSHIP_UNGROUNDED"
  | .danglingReference => "DANGLING_REFERENCE"
  | .cycleDetected => "CYCLE_DETECTED"
  | .policyInvalid => "POLICY_INVALID"
  | .expired => "EXPIRED"
  | .revoked => "REVOKED"
  | .revocationUnknown => "REVOCATION_UNKNOWN"
  | .unauthorizedStatus => "UNAUTHORIZED_STATUS"
  | .withdrawn => "WITHDRAWN"
  | .compromised => "COMPROMISED"

structure ProofError where
  code : ErrorCode
  message : String
  deriving DecidableEq, Repr

/-- `[CODE] message`. -/
def ProofError.display (error : ProofError) : String :=
  "[" ++ error.code.asStr ++ "] " ++ error.message

def ErrorCode.err (code : ErrorCode) (message : String) : ProofError := ⟨code, message⟩

abbrev Result := Except ProofError

/-- How a computation can end other than with a value. -/
inductive Failure where
  | error (error : ProofError)
  | panic (site : String)
  /-- A loop whose fuel ran out before its exit condition held. -/
  | unfinished
  deriving DecidableEq, Repr

abbrev Outcome := Except Failure

def Result.lift {α : Type} : Result α → Outcome α
  | .ok value => .ok value
  | .error failure => .error (.error failure)

/-! ## Reading successful runs backwards -/

section
variable {ε α β : Type}

theorem bind_eq_ok {computation : Except ε α} {next : α → Except ε β} {result : β} :
    (computation >>= next) = .ok result ↔ ∃ value, computation = .ok value ∧ next value = .ok result := by
  cases computation with
  | error failure => simp [bind, Except.bind]
  | ok value => simp [bind, Except.bind]

@[simp] theorem ok_bind (value : α) (next : α → Except ε β) :
    (Except.ok value >>= next) = next value := rfl

@[simp] theorem error_bind (failure : ε) (next : α → Except ε β) :
    (Except.error failure >>= next) = .error failure := rfl

theorem map_eq_ok {computation : Except ε α} {f : α → β} {result : β} :
    computation.map f = .ok result ↔ ∃ value, computation = .ok value ∧ f value = result := by
  cases computation with
  | error failure => simp [Except.map]
  | ok value => simp [Except.map]

theorem pure_eq_ok (value : α) : (pure value : Except ε α) = .ok value := rfl

theorem exists_of_isOk {computation : Except ε α} (done : computation.isOk = true) :
    ∃ value, computation = .ok value := by
  cases computation with
  | error failure => cases done
  | ok value => exact ⟨value, rfl⟩

/-- A loop that collects results succeeds when every step does. -/
theorem mapM_eq_ok {step : α → Except ε β} {items : List α} {results : List β} :
    items.mapM step = .ok results ↔ List.Forall₂ (fun item result => step item = .ok result) items results := by
  induction items generalizing results with
  | nil =>
    simp only [List.mapM_nil, pure_eq_ok, Except.ok.injEq, List.forall₂_nil_left_iff]
    exact eq_comm
  | cons item items inductionHypothesis =>
    simp only [List.mapM_cons, bind_eq_ok, pure_eq_ok, Except.ok.injEq, List.forall₂_cons_left_iff,
      inductionHypothesis]
    constructor
    · rintro ⟨result, here, others, rest, rfl⟩
      exact ⟨result, others, here, rest, rfl⟩
    · rintro ⟨result, others, here, rest, rfl⟩
      exact ⟨result, here, others, rest, rfl⟩

theorem exists_of_mem_mapM {step : α → Except ε β} {items : List α} {results : List β}
    (done : items.mapM step = .ok results) {result : β} (member : result ∈ results) :
    ∃ item ∈ items, step item = .ok result := by
  have steps := mapM_eq_ok.mp done
  clear done
  induction steps with
  | nil => cases member
  | cons here _ inductionHypothesis =>
    cases member with
    | head => exact ⟨_, List.mem_cons_self, here⟩
    | tail _ member =>
      obtain ⟨item, itemMember, found⟩ := inductionHypothesis member
      exact ⟨item, List.mem_cons_of_mem _ itemMember, found⟩

theorem exists_result_of_mem {step : α → Except ε β} {items : List α} {results : List β}
    (done : items.mapM step = .ok results) {item : α} (member : item ∈ items) :
    ∃ result ∈ results, step item = .ok result := by
  have steps := mapM_eq_ok.mp done
  clear done
  induction steps with
  | nil => cases member
  | cons here _ inductionHypothesis =>
    cases member with
    | head => exact ⟨_, List.mem_cons_self, here⟩
    | tail _ member =>
      obtain ⟨result, resultMember, found⟩ := inductionHypothesis member
      exact ⟨result, List.mem_cons_of_mem _ resultMember, found⟩

theorem exists_mapM_of_forall {step : α → Except ε β} {items : List α}
    (each : ∀ item ∈ items, ∃ result, step item = .ok result) : ∃ results, items.mapM step = .ok results := by
  induction items with
  | nil => exact ⟨[], rfl⟩
  | cons item items inductionHypothesis =>
    obtain ⟨⟨result, here⟩, others⟩ := List.forall_mem_cons.mp each
    obtain ⟨results, rest⟩ := inductionHypothesis others
    exact ⟨result :: results, by rw [List.mapM_cons, here, ok_bind, rest, ok_bind, pure_eq_ok]⟩

theorem Result.lift_eq_ok {computation : Result α} {value : α} :
    Result.lift computation = .ok value ↔ computation = .ok value := by
  cases computation <;> simp [Result.lift]

end

end ProofEngine
