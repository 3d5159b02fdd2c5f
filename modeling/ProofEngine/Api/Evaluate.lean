import ProofEngine.Api.Ingest
import ProofEngine.Cli.Verify
import ProofEngine.Policy.Combine
import ProofEngine.Policy.Parse

/-! # The evaluation service

A request carries everything a decision depends on: the proof, the policy and the trust inputs.  What
cannot be read is refused with 400, what the engine will not verify with 422; a decision rides on 200. -/

namespace ProofEngine.Api

open Text

/-! ## Fields -/

def u64Field (v : Json) (name : String) (required : Bool) : Except String (Option UInt64) :=
  match v.get name with
  | none => if required then .error ("missing required field `" ++ name ++ "`") else .ok none
  | some value =>
    match value.asU64 with
    | some n => .ok (some n)
    | none => .error ("`" ++ name ++ "` must be a u64")

def strItem (name : String) (item : Json) : Except String String :=
  match item.asStr with
  | some s => .ok s
  | none => .error ("`" ++ name ++ "` must be a string array")

def strList (v : Json) (name : String) : Except String (List String) :=
  match v.get name with
  | none => .ok []
  | some (.array items) => items.mapM (strItem name)
  | some _ => .error ("`" ++ name ++ "` must be a string array")

/-- Anything but `true` counts as false. -/
def boolField (v : Json) (name : String) : Bool := ((v.get name).bind Json.asBool).getD false

/-! ## Status objects -/

def b64uValue (char : Char) : Option Nat :=
  let code := char.toNat
  if 65 ≤ code ∧ code ≤ 90 then some (code - 65)
  else if 97 ≤ code ∧ code ≤ 122 then some (code - 97 + 26)
  else if 48 ≤ code ∧ code ≤ 57 then some (code - 48 + 52)
  else if char = '-' then some 62
  else if char = '_' then some 63
  else none

/-- The last `bits` bits read are in `buf`; a byte is put out as soon as there are eight. -/
def b64uBytes (buf bits : Nat) : List Char → Option Bytes
  | [] => if 0 < bits ∧ buf ≠ 0 then none else some []
  | char :: chars => do
    let value ← b64uValue char
    let buf := buf * 64 + value
    if 8 ≤ bits + 6 then
      let unit := 2 ^ (bits + 6 - 8)
      let rest ← b64uBytes (buf % unit) (bits + 6 - 8) chars
      some (UInt8.ofNat (buf / unit) :: rest)
    else b64uBytes buf (bits + 6) chars

def b64uDecode (s : String) : Option Bytes := b64uBytes 0 0 s.toList

section
variable (primitives : Primitives)

def parseStatus (limits : Limits) (i : Nat) (item : Json) : Except String SignedStatus :=
  let label := "status[" ++ toString i ++ "]"
  match item.strField "issuer" with
  | none => .error (label ++ ": missing `issuer`")
  | some issuer =>
    match item.strField "sign1_b64" with
    | none => .error (label ++ ": missing `sign1_b64`")
    | some encoded =>
      match b64uDecode encoded with
      | none => .error (label ++ ": bad sign1_b64")
      | some sign1 => do
        let content ← labelled label (verifyStatusObject primitives sign1 issuer .strict limits)
        .ok { content, sign1 }

def parseStatuses (v : Json) (limits : Limits) : Except String (List SignedStatus) :=
  match v.get "status" with
  | none => .ok []
  | some (.array items) => items.zipIdx.mapM fun item => parseStatus primitives limits item.2 item.1
  | some _ => .error "`status` must be an array"

/-! ## The context -/

def vocabularyAccept (entry : Json) : Except String VocabularyAccept :=
  match entry.asStr with
  | none => .error "`accepted_vocab` must be a string array of `ns:max`"
  | some s =>
    match cut s ":" with
    | none => .error ("`accepted_vocab` entry must be ns:max, got `" ++ s ++ "`")
    | some (ns, max) =>
      if ns.isEmpty then .error "`accepted_vocab` namespace must not be empty"
      else
        match parseU64 (trim max) with
        | none => .error ("`accepted_vocab` max_version must be u64, got `" ++ max ++ "`")
        | some maxVersion => .ok { ns, maxVersion }

def acceptedVocab (v : Json) : Except String (List VocabularyAccept) :=
  match v.get "accepted_vocab" with
  | none => .ok []
  | some (.array items) => items.mapM vocabularyAccept
  | some _ => .error "`accepted_vocab` must be a string array"

def contextFrom (v : Json) (limits : Limits) : Except String VerifyCtx := do
  let acceptedVocabularies ← acceptedVocab v
  let clock ← u64Field v "clock" true
  let skew ← u64Field v "skew" false
  let trustedIssuers ← strList v "trusted"
  let statusObjects ← parseStatuses primitives v limits
  let revocationAuthorities ← strList v "authority"
  let revocationsKnownAt ← u64Field v "revocations_known_at" false
  let extraGrounded ← strList v "extra_grounded"
  .ok
    { VerifyCtx.default with
      verifiedAt := clock.getD 0
      clockSkewLeeway := skew.getD 300
      trustedIssuers
      statusObjects
      revocationAuthorities
      revocationsKnownAt
      allowedAlgs :=
        { AllowedAlgs.strict with
          esp256 := boolField v "esp256"
          allowDeprecated := boolField v "historical" || boolField v "allow_deprecated" }
      reportAllFailures := boolField v "report_all"
      acceptedVocabularies
      extraGrounded
      requireAcyclicProvenance := boolField v "require_acyclic" || boolField v "production"
      requireStatusFeed := !boolField v "no_require_status" }

/-! ## The proof -/

/-- An id next to the bytes must be the one they carry. -/
def checkClaimed (proof : Json) (bytes : Bytes) : Except String Unit :=
  match ((proof.get "id").orElse fun _ => proof.get "proof_id").bind Json.asStr with
  | none => .ok ()
  | some claimed => do
    let value ← labelled "proof bytes" (decodeStrict bytes Limits.default)
    let parsed ← labelled "proof bytes" (cborToProof Limits.default value)
    if claimed = parsed.proofId then .ok ()
    else
      .error ("envelope id mismatch (wrapper says " ++ claimed ++ ", bytes bind " ++ parsed.proofId ++ ")")

def proofBytes (v : Json) : Except String Bytes :=
  match v.get "proof" with
  | none => .error "missing `proof`"
  | some proof =>
    match ((proof.get "cbor_hex").orElse fun _ => proof.get "cbor").bind Json.asStr with
    | none => .error "proof must carry `cbor_hex` (or artifact `cbor`)"
    | some hex =>
      match hexDecode hex with
      | none => .error "proof cbor hex is malformed"
      | some bytes => do
        checkClaimed proof bytes
        .ok bytes

/-! ## Answers -/

structure Response where
  status : Nat
  body : Json

def errJson (message : String) : Json := .object [("error", .string message)]

def currentlyAcceptable (report : VerifyReport) : Bool := isCurrentlyAcceptable report

def failureCodes (report : VerifyReport) : List ErrorCode :=
  (report.checks.filter fun check => !check.ok).filterMap (·.code)

def reportJson (report : VerifyReport) : Json :=
  .object
    [("proof_id", ofText report.proofId),
     ("cryptographic_validity", .string report.cryptographicValidity.asStr),
     ("evidence_validity", .string report.evidenceValidity.asStr),
     ("policy_decision", .string report.policyDecision.asStr),
     ("currently_acceptable", .bool (currentlyAcceptable report)),
     ("lifecycle_checked", .bool report.lifecycleChecked),
     ("status_inputs_valid", .bool report.statusInputsValid),
     ("codes", texts ((failureCodes report).map ErrorCode.asStr)),
     ("lifecycle", .array (report.lifecycle.map lifecycleJson)),
     ("evidence_status", .array (report.evidenceStatus.map evidenceStatusJson)),
     ("referenced_proofs", texts report.referencedProofs),
     ("conflicts", .array (report.conflicts.map conflictJson))]

def resultJson (result : RequirementResult) : Json :=
  .object [("requirement", .string result.requirement), ("passed", .bool result.passed),
    ("message", .string result.message)]

def outcomeJson (outcome : PolicyOutcome) : Json :=
  .object
    [("policy_id", .string outcome.policyId),
     ("decision", .string outcome.decision.asStr),
     ("note", ofText outcome.note),
     ("results", .array (outcome.results.map resultJson))]

def decided (v : Json) (report : VerifyReport) (outcome : PolicyOutcome) : Response where
  status := 200
  body :=
    let strict := boolField v "strict_current" || boolField v "production"
    .object
      [("report", reportJson report),
       ("outcome", outcomeJson outcome),
       ("currently_acceptable", .bool (currentlyAcceptable report)),
       ("currency_fail", .bool (strict && !currentlyAcceptable report))]

/-- What a request has to be read into before anything is verified. -/
structure EvaluateInputs where
  bytes : Bytes
  policy : Policy
  ctx : VerifyCtx

def evaluateInputs (v : Json) (limits : Limits) : Except String EvaluateInputs := do
  let bytes ← proofBytes v
  match v.get "policy" with
  | none => .error "missing `policy`"
  | some document =>
    let policy ← labelled "policy" (parsePolicy primitives limits document)
    let ctx ← contextFrom primitives v limits
    .ok { bytes, policy, ctx }

/-- The verified bytes again, for the projection of the state. -/
def proofOf (bytes : Bytes) (limits : Limits) : Except String Proof := do
  let value ← labelled "re-parse" (decodeStrict bytes limits)
  labelled "re-project" (cborToProof limits value)

def projectedState (bytes : Bytes) (limits : Limits) (report : VerifyReport) : Except String VerifiedState := do
  let proof ← proofOf bytes limits
  (stateFromReportAndProof primitives report proof).mapError ProofError.display

/-- The denylist, empty where it cannot be read. -/
def denylist (v : Json) : List String := (strList v "revoked").toOption.getD []

def evalInputs (v : Json) (ctx : VerifyCtx) : EvalInputs where
  trustedIssuers := (strList v "trusted").toOption.getD []
  revocations := .new (denylist v)
  verifiedAt := ctx.verifiedAt
  skewLeeway := ctx.clockSkewLeeway

variable (order : HashOrder)

def evaluateRoute (v : Json) (limits : Limits) : Outcome Response :=
  match evaluateInputs primitives v limits with
  | .error message => .ok { status := 400, body := errJson message }
  | .ok inputs =>
    match verifyProof primitives order inputs.ctx inputs.bytes with
    | .error (.error failure) => .ok { status := 422, body := errJson failure.display }
    | .error failure => .error failure
    | .ok report =>
      match projectedState primitives inputs.bytes limits report with
      | .error message => .ok { status := 422, body := errJson message }
      | .ok state => do
        let outcome ← evaluatePolicy state inputs.policy (evalInputs v inputs.ctx)
        .ok (decided v report outcome)

end

end ProofEngine.Api
