import ProofEngine.Cli.Input
import ProofEngine.Verify.Pipeline

/-! # The verify command

The command loads a proof, runs the pipeline on its bytes, writes the report and turns it into an exit code.  Proofs
that do not load are read a second time, without any check of the wrapper, so that the report of the pipeline can be
written for them too. -/

namespace ProofEngine

open Text StableSort

inductive ExitCode where
  | ok
  | fail
  deriving DecidableEq, Repr

/-! ## Currency and verdict -/

/-- The strict check: no superseded or unknown lifecycle, no superseded evidence and no unverified hint. -/
def isCurrentlyAcceptable (report : VerifyReport) : Bool :=
  !(report.lifecycle.any fun record => record.status = .superseded || record.status = .unknown) &&
    !(report.evidenceStatus.any fun record => record.status = .superseded ||
      (record.status = .unknown && contains record.message "provenance hint unverified"))

def verdictExit (report : VerifyReport) : ExitCode :=
  if report.cryptographicValidity = .valid ∧ report.evidenceValidity = .valid then .ok else .fail

/-! ## Reports for wrappers that lie -/

/-- A report with one failed check, on a proof no stage has seen. -/
def rejectedReport (proofId : Option String) (failed : CheckRecord) (noteObject : String) : VerifyReport where
  proofId := proofId
  cryptographicValidity := .invalid
  evidenceValidity := .invalid
  policyDecision := .indeterminate
  lifecycleChecked := false
  lifecycle := []
  statusObjects := []
  withdrawnIds := []
  referencedProofs := []
  vocabularies := []
  evidenceStatus := []
  conflicts := []
  checks := [failed, .note .policy noteObject policyNote.message]
  statusInputsValid := true

def malformedReport (stage : Stage) (code : ErrorCode) (message : String) : VerifyReport :=
  rejectedReport none (.fail stage "proof:bytes" code message) "proof:bytes"

def envelopeKindMismatchReport (claimed : String) : VerifyReport :=
  rejectedReport none
    (.fail .schema "proof:bytes" .schemaViolation
      ("envelope kind mismatch (wrapper says kind \"" ++ claimed ++ "\", expected \"proof\")"))
    "proof:bytes"

def envelopeMismatchReport (claimed actual : String) : VerifyReport :=
  rejectedReport (some actual)
    (.fail .identifiers ("proof:" ++ claimed) .idMismatch
      ("envelope id mismatch (wrapper says " ++ claimed ++ ", bytes bind " ++ actual ++ ")"))
    ("proof:" ++ actual)

/-- The two ids a mismatch message names. -/
def parseEnvelopeMismatch (message : String) : Option (String × String) := do
  let (_, rest) ← cut message "wrapper says "
  let (claimed, rest) ← cut rest ", bytes bind "
  let actual ← firstWord (trimEndMatches rest [')', '\n', ' '])
  some (trim claimed, trimEndMatches actual [')'])

/-- The kind a mismatch message names. -/
def claimedKind (message : String) : String :=
  match cut message "wrapper says kind \"" with
  | none => "?"
  | some (_, rest) =>
    -- the message is split at every occurrence, and the second piece is cut at its first quote
    let piece := match cut rest "wrapper says kind \"" with
      | none => rest
      | some (piece, _) => piece
    match cut piece "\"" with
    | none => piece
    | some (kind, _) => kind

/-! ## Writing -/

def ofText (text : Option String) : Json := (text.map Json.string).getD .null

def ofCode (code : Option ErrorCode) : Json := ofText (code.map ErrorCode.asStr)

def Validity.asStr : Validity → String
  | .valid => "valid"
  | .invalid => "invalid"

def PolicyDecision.asStr : PolicyDecision → String
  | .pass => "pass"
  | .fail => "fail"
  | .indeterminate => "indeterminate"

def LifecycleStatus.asStr : LifecycleStatus → String
  | .active => "ACTIVE"
  | .expired => "EXPIRED"
  | .revoked => "REVOKED"
  | .superseded => "SUPERSEDED"
  | .compromised => "COMPROMISED"
  | .unknown => "UNKNOWN"

def EvidenceStatus.asStr : EvidenceStatus → String
  | .available => "AVAILABLE"
  | .withdrawn => "WITHDRAWN"
  | .compromised => "COMPROMISED"
  | .revoked => "REVOKED"
  | .superseded => "SUPERSEDED"
  | .expired => "EXPIRED"
  | .unknown => "UNKNOWN"
  | .unavailable => "UNAVAILABLE"

def Stage.asStr : Stage → String
  | .parse => "PARSE"
  | .schema => "SCHEMA"
  | .canonical => "CANONICAL"
  | .identifiers => "IDENTIFIERS"
  | .signatures => "SIGNATURES"
  | .keys => "KEYS"
  | .time => "TIME"
  | .revocation => "REVOCATION"
  | .status => "STATUS"
  | .evidence => "EVIDENCE"
  | .relationships => "RELATIONSHIPS"
  | .graph => "GRAPH"
  | .policy => "POLICY"

def texts (items : List String) : Json := .array (items.map .string)

def lifecycleJson (record : LifecycleRecord) : Json :=
  .object [("object", .string record.object), ("status", .string record.status.asStr), ("code", ofCode record.code),
    ("message", .string record.message)]

def evidenceStatusJson (record : EvidenceStatusRecord) : Json :=
  .object [("object", .string record.object), ("status", .string record.status.asStr), ("code", ofCode record.code),
    ("message", .string record.message)]

def conflictJson (record : ConflictRecord) : Json :=
  .object [("kind", .string record.kind.asStr), ("claim_type", .string record.claimType),
    ("subject", .string record.subject), ("attestation_ids", texts record.attestationIds)]

def checkJson (check : CheckRecord) : Json :=
  .object [("stage", .string check.stage.asStr), ("object", .string check.object), ("ok", .bool check.ok),
    ("code", ofCode check.code), ("message", .string check.message)]

def reportJson (report : VerifyReport) : Json :=
  .object
    [("proof_id", ofText report.proofId),
     ("cryptographic_validity", .string report.cryptographicValidity.asStr),
     ("evidence_validity", .string report.evidenceValidity.asStr),
     ("policy_decision", .string report.policyDecision.asStr),
     ("currently_acceptable", .bool (isCurrentlyAcceptable report)),
     ("lifecycle_checked", .bool report.lifecycleChecked),
     ("status_inputs_valid", .bool report.statusInputsValid),
     ("lifecycle", .array (report.lifecycle.map lifecycleJson)),
     ("status_objects", texts report.statusObjects),
     ("withdrawn_ids", texts report.withdrawnIds),
     ("referenced_proofs", texts report.referencedProofs),
     ("vocabularies", .array (report.vocabularies.map fun declared =>
       .object [("ns", .string declared.ns), ("version", .number (toString declared.version))])),
     ("evidence_status", .array (report.evidenceStatus.map evidenceStatusJson)),
     ("conflicts", .array (report.conflicts.map conflictJson)),
     ("checks", .array (report.checks.map checkJson))]

/-- Writes a text file; `what` leads the message of a failure. -/
def writeFile (what path text : String) : Command Unit := fun world =>
  match world.writeError path with
  | some failure => .error (what ++ path ++ ": " ++ failure) world
  | none => .ok () { world with files := Function.update world.files path (.ok (utf8 text)) }

section
variable (libraries : Libraries)

/-- The report goes to a file, or to standard output. -/
def emitReport (report : VerifyReport) (out : Option String) : Command Unit :=
  match out with
  | none => pure ()
  | some path =>
    if path = "-" then pure ()
    else writeFile "write " path (libraries.toStringPretty (reportJson report) ++ "\n")

/-! ## The replay store -/

def seenOfText (path text : String) : Except String (List String) :=
  match libraries.fromStr text with
  | .error message => .error ("seen-store parse " ++ path ++ ": " ++ message)
  | .ok json =>
    match json.get "seen" with
    | some (.array items) => items.mapM fun item =>
      match item.asStr with
      | some key => .ok key
      | none => .error ("seen-store " ++ path ++ ": `seen` must be strings")
    | _ => .error ("seen-store " ++ path ++ ": missing `seen` string array")

/-- A store that does not exist yet is empty. -/
def loadSeen (path : String) : Command (List String) := fun world =>
  Command.of
    (match world.files path with
    | .error failure => if failure.notFound then .ok [] else .error ("seen-store read " ++ path ++ ": " ++ failure.text)
    | .ok bytes =>
      match fromUtf8 bytes with
      | none => .error ("seen-store read " ++ path ++ ": stream did not contain valid UTF-8")
      | some text => seenOfText libraries path text) world

/-- Whether the proof was seen in this context; if not, it is recorded on request. -/
def gate (request : SeenRequest) (proofId : String) : Command Bool := do
  let seen ← loadSeen libraries request.store
  let key := request.context ++ "::" ++ proofId
  if seen.contains key then pure true
  else if request.record then do
    writeFile "seen-store write " request.store
      (libraries.toStringPretty (.object [("seen", texts (sortDedup utf8 (key :: seen)))]) ++ "\n")
    pure false
  else pure false

/-! ## The command -/

/-- The exit code and the report that was written. -/
structure VerifyOutcome where
  exit : ExitCode
  report : VerifyReport
  deriving DecidableEq, Repr

/-- Writes a report and ends with the given code. -/
def finish (cli : Cli) (exit : ExitCode) (report : VerifyReport) : Command VerifyOutcome := do
  emitReport libraries report (cli.opt "out")
  pure { exit, report }

variable (primitives : Primitives) (order : HashOrder)

/-- What happens to a proof that did not load: only the message says why. -/
def verifyUnloaded (cli : Cli) (inputs : CommonInputs) (policy : VerifierPolicy) (path message : String) :
    Command VerifyOutcome := do
  if contains message "envelope id mismatch" then
    let (claimed, actual) := (parseEnvelopeMismatch message).getD ("?", "?")
    finish libraries cli .fail (envelopeMismatchReport claimed actual)
  else if contains message "envelope kind mismatch" then
    finish libraries cli .fail (envelopeKindMismatchReport (claimedKind message))
  else if contains message "wrapper has unknown field" || contains message "wrapper must be a JSON object" ||
      contains message "wrapper `kind` must be a string" then
    throw message
  else
    let raw ← (loadProofBytesRaw libraries path).caught
    match raw with
    | .error _ => throw message
    | .ok raw =>
      let statuses ← loadableStatuses libraries primitives (cli.many "status")
      match verifyProof primitives order (buildCtx cli inputs policy statuses) raw with
      -- the strict check is not made here
      | .ok report => finish libraries cli (verdictExit report) report
      | .error _ => finish libraries cli .fail (malformedReport .parse .malformed message)

/-- The message of a run that ended without a report. -/
def failureText : Failure → String
  | .error failure => "verify: " ++ failure.display
  | .panic site => "panic: " ++ site
  | .unfinished => "unfinished"

def verifyLoaded (cli : Cli) (inputs : CommonInputs) (policy : VerifierPolicy) (seen : Option SeenRequest)
    (loaded : LoadedProof) : Command VerifyOutcome := do
  let statuses ← loadStatuses libraries primitives (cli.many "status")
  match verifyProof primitives order (buildCtx cli inputs policy statuses) loaded.canonical with
  | .error failure => throw (failureText failure)
  | .ok report =>
    emitReport libraries report (cli.opt "out")
    if (cli.has "strict-current" || cli.has "production") && !isCurrentlyAcceptable report then
      pure { exit := .fail, report }
    else if verdictExit report ≠ .ok then pure { exit := verdictExit report, report }
    else
      match seen with
      | none => pure { exit := .ok, report }
      | some request =>
        let replayed ← gate libraries request loaded.proof.proofId
        pure { exit := if replayed then .fail else .ok, report }

/-- `verify`. -/
def verify (cli : Cli) : Command VerifyOutcome := do
  let inputs ← Command.of (common cli)
  let policy ← Command.of (verifierPolicy cli)
  let seen ← Command.of (seenRequest cli)
  let path ← Command.of cli.proofPath
  let loaded ← (loadProof libraries path).caught
  match loaded with
  | .ok loaded => verifyLoaded libraries primitives order cli inputs policy seen loaded
  | .error message => verifyUnloaded libraries primitives order cli inputs policy path message

end

end ProofEngine
