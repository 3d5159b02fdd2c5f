import ProofEngine.Cli.Verify
import ProofEngine.Policy.Parse
import ProofEngine.Policy.Projection

/-! # The evaluate command

The pipeline and a policy over its report.  Only a proof that loads is evaluated, and only a PASS of a current proof
comes to the replay store. -/

namespace ProofEngine

open Text

/-- A command whose failures are told with a lead. -/
def Command.under {α : Type} (lead : String) (command : Command α) : Command α :=
  fun world =>
    match command world with
    | .ok value after => .ok value after
    | .error message after => .error (lead ++ message) after

/-- The trust inputs; the denylist is comma-separated. -/
def Cli.evalInputs (cli : Cli) (inputs : CommonInputs) : EvalInputs where
  trustedIssuers := cli.many "trusted"
  revocations := .new ((cli.many "revoked").flatMap fun item => splitAt item ',')
  verifiedAt := inputs.verifiedAt
  skewLeeway := inputs.skew

/-- The exit code, the report and the decision on it. -/
structure EvaluateOutcome where
  exit : ExitCode
  report : VerifyReport
  decided : PolicyOutcome
  deriving DecidableEq, Repr

section
variable (libraries : Libraries) (primitives : Primitives) (order : HashOrder)

/-- A policy without the placeholders of the examples. -/
def policyOfText (path text : String) : Except String Policy :=
  if contains text "REPLACE_WITH" then
    .error (path ++ ": still contains a REPLACE_WITH placeholder; replace only the suffix after `key:ed25519:` with " ++
      "your issuer's key id (e.g. `key:ed25519:<id-from-attest>`), keeping the `key:ed25519:` prefix exactly once")
  else
    match libraries.fromStr text with
    | .error message => .error ("parse policy: " ++ message)
    | .ok document => labelled "policy" (parsePolicy primitives Limits.default document)

/-- Everything a decision depends on. -/
structure EvaluateRequest where
  loaded : LoadedProof
  inputs : CommonInputs
  seen : Option SeenRequest
  policy : Policy
  statuses : List SignedStatus
  verifier : VerifierPolicy

def evaluateRequest (cli : Cli) : Command EvaluateRequest := do
  let path ← Command.of cli.proofPath
  let loaded ← loadProof libraries path
  let inputs ← Command.of (common cli)
  let seen ← Command.of (seenRequest cli)
  let policyPath ← Command.of (cli.req "policy")
  let text ← (readInputFile policyPath).under "read policy: "
  let policy ← Command.of (policyOfText libraries primitives policyPath text)
  let statuses ← loadStatuses libraries primitives (cli.many "status")
  let verifier ← Command.of (verifierPolicy cli)
  pure { loaded, inputs, seen, policy, statuses, verifier }

/-- The report and the decision. -/
def evaluated (cli : Cli) (request : EvaluateRequest) : Except String (VerifyReport × PolicyOutcome) :=
  match verifyProof primitives order (buildCtx cli request.inputs request.verifier request.statuses)
      request.loaded.canonical with
  | .error failure => .error (failureText failure)
  | .ok report =>
    match stateFromReportAndProof primitives report request.loaded.proof with
    | .error failure => .error ("state: " ++ failure.display)
    | .ok state =>
      match evaluatePolicy state request.policy (cli.evalInputs request.inputs) with
      | .error failure => .error (failureText failure)
      | .ok decided => .ok (report, decided)

/-- `evaluate` and `explain`, which differ only in what they print. -/
def evaluate (cli : Cli) : Command EvaluateOutcome := do
  let request ← evaluateRequest libraries primitives cli
  let (report, decided) ← Command.of (evaluated primitives order cli request)
  emitReport libraries report (cli.opt "out")
  -- currency is laid over the decision
  if (cli.has "strict-current" || cli.has "production") && !isCurrentlyAcceptable report then
    pure { exit := .fail, report, decided }
  else if decided.decision ≠ .pass then pure { exit := .fail, report, decided }
  else
    match request.seen with
    | none => pure { exit := .ok, report, decided }
    | some seen =>
      let replayed ← gate libraries seen request.loaded.proof.proofId
      pure { exit := if replayed then .fail else .ok, report, decided }

end

end ProofEngine
