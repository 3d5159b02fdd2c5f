import ProofEngine.Api.Evaluate
import ProofEngine.Cli.IngestBatch
import ProofEngine.Policy.Explain
import ProofEngine.Policy.MemberOrder
import ProofEngine.Verify.Totality

/-! # Requests

A method, a path and a body in, a status and a document out.  Whatever the verifier finds rides on 200; the other
statuses say that a request could not be read or that the engine will not take its inputs. -/

namespace ProofEngine.Api

open Text

/-- The JSON library of the service. -/
structure Libraries where
  fromSlice : Bytes → Except String Json
  fromStr : String → Except String Json
  toText : Json → String

/-- The version of the service. -/
def pkgVersion : String := "0.1.0"

/-! ## Ingestion -/

section
variable (libraries : Libraries) (primitives : Primitives) (limits : Limits)

def manifest (progress : IngestProgress) (dryRun : Bool) : Json :=
  .object [("ingested", .number (toString progress.ids.length)), ("ids", texts progress.ids),
    ("skipped", texts progress.skipped), ("dry_run", .bool dryRun)]

def ingestRoute (v : Json) : Response :=
  match v.strField "records" with
  | none => { status := 400, body := errJson "missing `records` (JSONL text)" }
  | some text =>
    if 8 * 2 ^ 20 < len text then { status := 400, body := errJson "`records` exceeds 8 MiB" }
    else
      match ingestLines libraries.fromStr (ingestRecord primitives limits) (boolField v "skip_bad") text with
      | .error message => { status := 400, body := errJson ("ingest: " ++ message) }
      | .ok progress => { status := 200, body := manifest progress (boolField v "dry_run") }

end

/-! ## Verification -/

/-- The answer of `evaluate` with the explanation next to it. -/
def explained (v : Json) (report : VerifyReport) (outcome : PolicyOutcome) : Response :=
  match (decided v report outcome).body with
  | .object entries =>
    { status := 200, body := .object (entries ++ [("explanation", .string (explainFull report outcome))]) }
  | body => { status := 200, body }

section
variable (primitives : Primitives) (order : HashOrder)

def verifyRoute (v : Json) (limits : Limits) : Outcome Response :=
  match proofBytes v with
  | .error message => .ok { status := 400, body := errJson message }
  | .ok bytes =>
    match contextFrom primitives v limits with
    | .error message => .ok { status := 400, body := errJson message }
    | .ok ctx =>
      match verifyProof primitives order ctx bytes with
      | .ok report => .ok { status := 200, body := reportJson report }
      | .error (.error failure) => .ok { status := 422, body := errJson failure.display }
      | .error failure => .error failure

/-- `evaluate` and `explain` up to the answer to a decision. -/
def evaluateWith (answer : VerifyReport → PolicyOutcome → Response) (v : Json) (limits : Limits) : Outcome Response :=
  match evaluateInputs primitives v limits with
  | .error message => .ok { status := 400, body := errJson message }
  | .ok inputs =>
    match verifyProof primitives order inputs.ctx inputs.bytes with
    | .error (.error failure) => .ok { status := 422, body := errJson failure.display }
    | .error failure => .error failure
    | .ok report =>
      match projectedState primitives inputs.bytes limits report with
      | .error message => .ok { status := 422, body := errJson message }
      | .ok state => do
        let outcome ← evaluatePolicy state inputs.policy (evalInputs v inputs.ctx)
        .ok (answer report outcome)

def explainRoute (v : Json) (limits : Limits) : Outcome Response :=
  evaluateWith primitives order (explained v) v limits

/-! ## Routing -/

def getRoute (path : String) : Response :=
  if path = "/v1/health" then
    { status := 200, body := .object [("ok", .bool true), ("version", .string pkgVersion)] }
  else if path = "/v1/version" then
    { status := 200, body := .object [("name", .string "proof-api"), ("version", .string pkgVersion)] }
  else { status := 404, body := errJson "unknown path" }

variable (libraries : Libraries)

def postRoute (path : String) (v : Json) : Outcome Response :=
  if path = "/v1/verify" then verifyRoute primitives order v Limits.default
  else if path = "/v1/evaluate" then evaluateRoute primitives order v Limits.default
  else if path = "/v1/explain" then explainRoute primitives order v Limits.default
  else if path = "/v1/ingest" then .ok (ingestRoute libraries primitives Limits.default v)
  else .ok { status := 404, body := errJson "unknown path" }

def route (method path : String) (body : Bytes) : Outcome Response :=
  if method = "GET" then .ok (getRoute path)
  else if method ≠ "POST" then .ok { status := 405, body := errJson "method not allowed" }
  else
    match libraries.fromSlice body with
    | .error message => .ok { status := 400, body := errJson ("bad JSON: " ++ message) }
    | .ok v => postRoute primitives order libraries path v

end

/-! ## Every request is answered -/

section
variable {primitives : Primitives} {order : HashOrder} {v : Json} {limits : Limits}

theorem evaluateWith_decided :
    evaluateWith primitives order (decided v) v limits = evaluateRoute primitives order v limits := rfl

/-- The request could not be read, or not be taken. -/
def Response.Refused (response : Response) : Prop := response.status = 400 ∨ response.status = 422

/-- What a request is answered with is either settled before there is a decision or the answer to one. -/
theorem evaluateWith_cases (primitives : Primitives) (order : HashOrder) (v : Json) (limits : Limits) :
    (∃ response : Response, response.Refused ∧
        ∀ answer, evaluateWith primitives order answer v limits = .ok response) ∨
      ∃ inputs report outcome, evaluateInputs primitives v limits = .ok inputs ∧
        verifyProof primitives order inputs.ctx inputs.bytes = .ok report ∧
        ∀ answer, evaluateWith primitives order answer v limits = .ok (answer report outcome) := by
  cases read : evaluateInputs primitives v limits with
  | error message =>
    refine .inl ⟨{ status := 400, body := errJson message }, .inl rfl, fun answer => ?_⟩
    simp only [evaluateWith, read]
  | ok inputs =>
    obtain ⟨_, report, verified⟩ | ⟨_, failure, failed⟩ := verifyProof_cases primitives order inputs.ctx inputs.bytes
    · cases projected : projectedState primitives inputs.bytes limits report with
      | error message =>
        refine .inl ⟨{ status := 422, body := errJson message }, .inr rfl, fun answer => ?_⟩
        simp only [evaluateWith, read, verified, projected]
      | ok state =>
        obtain ⟨outcome, evaluated, _⟩ := evaluatePolicy_decision state (evalInputs v inputs.ctx) inputs.policy
        refine .inr ⟨inputs, report, outcome, rfl, verified, fun answer => ?_⟩
        simp only [evaluateWith, read, verified, projected, evaluated, ok_bind]
    · refine .inl ⟨{ status := 422, body := errJson failure.display }, .inr rfl, fun answer => ?_⟩
      simp only [evaluateWith, read, failed]

theorem verifyRoute_cases (primitives : Primitives) (order : HashOrder) (v : Json) (limits : Limits) :
    (∃ response : Response, response.Refused ∧ verifyRoute primitives order v limits = .ok response) ∨
      ∃ bytes ctx report, proofBytes v = .ok bytes ∧ contextFrom primitives v limits = .ok ctx ∧
        verifyProof primitives order ctx bytes = .ok report ∧
        verifyRoute primitives order v limits = .ok { status := 200, body := reportJson report } := by
  cases spelled : proofBytes v with
  | error message => exact .inl ⟨{ status := 400, body := errJson message }, .inl rfl, by simp only [verifyRoute, spelled]⟩
  | ok bytes =>
    cases read : contextFrom primitives v limits with
    | error message =>
      exact .inl ⟨{ status := 400, body := errJson message }, .inl rfl, by simp only [verifyRoute, spelled, read]⟩
    | ok ctx =>
      obtain ⟨_, report, verified⟩ | ⟨_, failure, failed⟩ := verifyProof_cases primitives order ctx bytes
      · exact .inr ⟨bytes, ctx, report, rfl, rfl, verified, by simp only [verifyRoute, spelled, read, verified]⟩
      · refine .inl ⟨{ status := 422, body := errJson failure.display }, .inr rfl, ?_⟩
        simp only [verifyRoute, spelled, read, failed]

/-- What `evaluate` reads is what `verify` reads, and the policy. -/
theorem evaluateInputs_eq_ok {inputs : EvaluateInputs} (read : evaluateInputs primitives v limits = .ok inputs) :
    proofBytes v = .ok inputs.bytes ∧ contextFrom primitives v limits = .ok inputs.ctx := by
  rw [evaluateInputs] at read
  obtain ⟨bytes, spelled, read⟩ := bind_eq_ok.mp read
  cases posted : v.get "policy" with
  | none =>
    simp only [posted] at read
    cases read
  | some document =>
    simp only [posted] at read
    obtain ⟨policy, _, read⟩ := bind_eq_ok.mp read
    obtain ⟨ctx, context, read⟩ := bind_eq_ok.mp read
    cases read
    exact ⟨spelled, context⟩

/-- A verdict that `evaluate` reports is the verdict of `verify` on the same request. -/
theorem verifyRoute_of_inputs {inputs : EvaluateInputs} {report : VerifyReport}
    (read : evaluateInputs primitives v limits = .ok inputs)
    (verified : verifyProof primitives order inputs.ctx inputs.bytes = .ok report) :
    verifyRoute primitives order v limits = .ok { status := 200, body := reportJson report } := by
  obtain ⟨spelled, context⟩ := evaluateInputs_eq_ok read
  simp only [verifyRoute, spelled, context, verified]

theorem ingestRoute_status (libraries : Libraries) (primitives : Primitives) (limits : Limits) (v : Json) :
    (ingestRoute libraries primitives limits v).status = 200 ∨
      (ingestRoute libraries primitives limits v).status = 400 := by
  unfold ingestRoute
  cases v.strField "records" with
  | none => exact .inr rfl
  | some text =>
    dsimp only
    by_cases long : 8 * 2 ^ 20 < len text
    · rw [if_pos long]
      exact .inr rfl
    · rw [if_neg long]
      cases ingestLines libraries.fromStr (ingestRecord primitives limits) (boolField v "skip_bad") text with
      | error message => exact .inr rfl
      | ok progress => exact .inl rfl

theorem getRoute_status (path : String) : (getRoute path).status = 200 ∨ (getRoute path).status = 404 := by
  unfold getRoute
  by_cases health : path = "/v1/health"
  · rw [if_pos health]
    exact .inl rfl
  · rw [if_neg health]
    by_cases version : path = "/v1/version"
    · rw [if_pos version]
      exact .inl rfl
    · rw [if_neg version]
      exact .inr rfl

theorem evaluateWith_status (primitives : Primitives) (order : HashOrder) (v : Json) (limits : Limits)
    {answer : VerifyReport → PolicyOutcome → Response}
    (positive : ∀ report outcome, (answer report outcome).status = 200) : ∃ response,
    evaluateWith primitives order answer v limits = .ok response ∧ response.status ∈ [200, 400, 422] := by
  obtain ⟨response, refused, done⟩ | ⟨_, report, outcome, _, _, done⟩ :=
    evaluateWith_cases primitives order v limits
  · refine ⟨response, done answer, ?_⟩
    rcases refused with refused | refused
    · simp [refused]
    · simp [refused]
  · exact ⟨_, done answer, by simp [positive]⟩

theorem postRoute_status (primitives : Primitives) (order : HashOrder) (libraries : Libraries) (path : String)
    (v : Json) : ∃ response,
    postRoute primitives order libraries path v = .ok response ∧ response.status ∈ [200, 400, 404, 422] := by
  have wider : ∀ status ∈ [200, 400, 422], status ∈ [200, 400, 404, 422] := by decide
  unfold postRoute
  by_cases verify : path = "/v1/verify"
  · rw [if_pos verify]
    obtain ⟨response, refused, done⟩ | ⟨_, _, report, _, _, _, done⟩ :=
      verifyRoute_cases primitives order v Limits.default
    · refine ⟨response, done, ?_⟩
      rcases refused with refused | refused
      · simp [refused]
      · simp [refused]
    · exact ⟨_, done, by simp⟩
  · rw [if_neg verify]
    by_cases evaluate : path = "/v1/evaluate"
    · rw [if_pos evaluate, ← evaluateWith_decided]
      have positive : ∀ report outcome, (decided v report outcome).status = 200 := fun _ _ => rfl
      obtain ⟨response, done, status⟩ := evaluateWith_status primitives order v Limits.default positive
      exact ⟨response, done, wider _ status⟩
    · rw [if_neg evaluate]
      by_cases explain : path = "/v1/explain"
      · rw [if_pos explain]
        have positive : ∀ report outcome, (explained v report outcome).status = 200 := fun _ _ => rfl
        obtain ⟨response, done, status⟩ := evaluateWith_status primitives order v Limits.default positive
        exact ⟨response, done, wider _ status⟩
      · rw [if_neg explain]
        by_cases ingest : path = "/v1/ingest"
        · rw [if_pos ingest]
          refine ⟨_, rfl, ?_⟩
          rcases ingestRoute_status libraries primitives Limits.default v with status | status
          · simp [status]
          · simp [status]
        · rw [if_neg ingest]
          exact ⟨_, rfl, by simp⟩

/-- Every request is answered, with one of five statuses; no body makes the service panic or run on. -/
theorem route_answers (primitives : Primitives) (order : HashOrder) (libraries : Libraries) (method path : String)
    (body : Bytes) : ∃ response, route primitives order libraries method path body = .ok response ∧
      response.status ∈ [200, 400, 404, 405, 422] := by
  have wider : ∀ status ∈ [200, 400, 404, 422], status ∈ [200, 400, 404, 405, 422] := by decide
  unfold route
  by_cases get : method = "GET"
  · rw [if_pos get]
    refine ⟨_, rfl, ?_⟩
    rcases getRoute_status path with status | status
    · simp [status]
    · simp [status]
  · rw [if_neg get]
    by_cases post : method ≠ "POST"
    · rw [if_pos post]
      exact ⟨_, rfl, by simp⟩
    · rw [if_neg post]
      cases libraries.fromSlice body with
      | error message => exact ⟨_, rfl, by simp⟩
      | ok v =>
        obtain ⟨response, done, status⟩ := postRoute_status primitives order libraries path v
        exact ⟨response, done, wider _ status⟩

/-! ## One request, three answers -/

theorem explained_fields (v : Json) (report : VerifyReport) (outcome : PolicyOutcome) :
    (explained v report outcome).body.strField "explanation" = some (explainFull report outcome) ∧
      ∀ key, key ≠ "explanation" →
        (explained v report outcome).body.get key = (decided v report outcome).body.get key := by
  constructor
  · rfl
  · intro key other
    have elsewhere : (key == "explanation") = false := beq_eq_false_iff_ne.mpr other
    rw [explained, decided]
    simp only [Json.get, List.lookup_append, List.lookup_cons, List.lookup_nil, elsewhere, Option.or_none]

/-- What `explain` has next to the answer of `evaluate`: a text that opens with the verdicts of the report and closes
    with the decision, whatever stands in between. -/
structure Explains (report : VerifyReport) (outcome : PolicyOutcome) (evaluate explain : Response) : Prop where
  answered : evaluate.status = 200 ∧ explain.status = 200
  fields : ∀ key, key ≠ "explanation" → explain.body.get key = evaluate.body.get key
  report_field : evaluate.body.get "report" = some (reportJson report)
  outcome_field : evaluate.body.get "outcome" = some (outcomeJson outcome)
  text : ∃ text middle, explain.body.strField "explanation" = some text ∧
    lines text =
      ["cryptographic_validity: " ++ validityWord report.cryptographicValidity,
        "evidence_validity: " ++ validityWord report.evidenceValidity,
        "policy_decision: " ++ report.policyDecision.asStr] ++ middle ++
          ["Decision: " ++ decisionWord outcome.decision]

end

end ProofEngine.Api
