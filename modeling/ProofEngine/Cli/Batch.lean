import ProofEngine.Api.Evaluate
import ProofEngine.Cli.ComposeExact
import ProofEngine.Verify.Determinism
import ProofEngine.Verify.FeedLaws
import ProofEngine.Verify.ResolveSearch

/-! # The batch-verify command

Many proofs go through the pipeline under one context, and none of them can end the run of the others.  The command
reads its flags in an order of its own, loads every proof before it verifies the first, and counts where `verify`
returns; what it accepts is still what `verify` accepts one by one. -/

namespace ProofEngine

open Text

/-! ## Batches -/

structure BatchMember where
  /-- The place of the proof in the input. -/
  index : Nat
  report : VerifyReport
  deriving DecidableEq, Repr

structure BatchReport where
  members : List BatchMember
  cryptoValidCount : Nat
  evidenceValidCount : Nat
  deriving DecidableEq, Repr

def BatchReport.complete (batch : BatchReport) (inputs : Nat) : Bool := batch.members.length == inputs

def BatchReport.allValid (batch : BatchReport) : Bool :=
  !batch.members.isEmpty && batch.cryptoValidCount == batch.members.length &&
    batch.evidenceValidCount == batch.members.length

def BatchReport.empty : BatchReport := { members := [], cryptoValidCount := 0, evidenceValidCount := 0 }

/-- One more member. -/
def BatchReport.add (batch : BatchReport) (index : Nat) (report : VerifyReport) : BatchReport where
  members := batch.members ++ [{ index, report }]
  cryptoValidCount :=
    if report.cryptographicValidity = .valid then batch.cryptoValidCount + 1 else batch.cryptoValidCount
  evidenceValidCount :=
    if report.evidenceValidity = .valid then batch.evidenceValidCount + 1 else batch.evidenceValidCount

section
variable (primitives : Primitives) (orders : Bytes → HashOrder)

/-- The loop over the proofs; only a report that cannot be made ends it. -/
def batchLoop (ctx : VerifyCtx) : List Bytes → BatchReport → Outcome BatchReport
  | [], batch => .ok batch
  | bytes :: canonicals, batch => do
    let report ← verifyProof primitives (orders bytes) ctx bytes
    batchLoop ctx canonicals (batch.add batch.members.length report)

def verifyBatch (ctx : VerifyCtx) (canonicals : List Bytes) (maxBatchSize : UInt64) : Outcome BatchReport :=
  if maxBatchSize.toNat < canonicals.length then
    .error (.error (ErrorCode.limitExceeded.err (String.join
      ["batch size ", toString canonicals.length, " > max_batch_size ", toString maxBatchSize])))
  else batchLoop primitives orders ctx canonicals .empty

/-! ## The command -/

variable (libraries : Libraries)

/-- The proofs, all of them before the first is verified. -/
def loadCanonicals : List String → Command (List Bytes)
  | [] => pure []
  | path :: paths => do
    let loaded ← loadProof libraries path
    let canonicals ← loadCanonicals paths
    pure (loaded.canonical :: canonicals)

def Validity.variant : Validity → String
  | .valid => "Valid"
  | .invalid => "Invalid"

def ErrorCode.variant : ErrorCode → String
  | .nonCanonical => "NonCanonical"
  | .duplicateMapKey => "DuplicateMapKey"
  | .forbiddenCborConstruct => "ForbiddenCborConstruct"
  | .idMismatch => "IdMismatch"
  | .signatureInvalid => "SignatureInvalid"
  | .unknownAlgorithm => "UnknownAlgorithm"
  | .deprecatedAlgorithm => "DeprecatedAlgorithm"
  | .unsupportedVersion => "UnsupportedVersion"
  | .limitExceeded => "LimitExceeded"
  | .malformed => "Malformed"
  | .invalidBase64Url => "InvalidBase64Url"
  | .unexpectedHeaderParam => "UnexpectedHeaderParam"
  | .algorithmConfusion => "AlgorithmConfusion"
  | .schemaViolation => "SchemaViolation"
  | .relationshipUngrounded => "RelationshipUngrounded"
  | .danglingReference => "DanglingReference"
  | .cycleDetected => "CycleDetected"
  | .policyInvalid => "PolicyInvalid"
  | .expired => "Expired"
  | .revoked => "Revoked"
  | .revocationUnknown => "RevocationUnknown"
  | .unauthorizedStatus => "UnauthorizedStatus"
  | .withdrawn => "Withdrawn"
  | .compromised => "Compromised"

def memberJson (member : BatchMember) : Json :=
  .object
    [("index", .number (toString member.index)),
     ("proof_id", ofText member.report.proofId),
     ("cryptographic_validity", .string member.report.cryptographicValidity.variant),
     ("evidence_validity", .string member.report.evidenceValidity.variant),
     ("currently_acceptable", .bool (isCurrentlyAcceptable member.report)),
     ("status_inputs_valid", .bool member.report.statusInputsValid),
     ("codes", texts ((Api.failureCodes member.report).map ErrorCode.variant))]

/-- Valid, but not now. -/
def lapsed (report : VerifyReport) : Bool :=
  report.cryptographicValidity = .valid && report.evidenceValidity = .valid && !isCurrentlyAcceptable report

def Cli.strict (cli : Cli) : Bool := cli.has "strict-current" || cli.has "production"

def BatchReport.currencyFailCount (batch : BatchReport) (strict : Bool) : Nat :=
  batch.members.countP fun member => strict && lapsed member.report

def batchJson (batch : BatchReport) (inputs : Nat) (strict : Bool) : Json :=
  .object
    [("complete", .bool (batch.complete inputs)),
     ("all_valid", .bool batch.allValid),
     ("currently_acceptable_count",
       .number (toString (batch.members.countP fun member => isCurrentlyAcceptable member.report))),
     ("currency_fail_count", .number (toString (batch.currencyFailCount strict))),
     ("crypto_valid_count", .number (toString batch.cryptoValidCount)),
     ("evidence_valid_count", .number (toString batch.evidenceValidCount)),
     ("members", .array (batch.members.map memberJson))]

/-- Strict modes lay currency over validity. -/
def batchExit (batch : BatchReport) (strict : Bool) : ExitCode :=
  if strict = true ∧ 0 < batch.currencyFailCount strict then .fail
  else if batch.allValid then .ok
  else .fail

/-- To standard output, or to a file. -/
def emitBatch (out : Option String) (document : Json) : Command Unit :=
  match out with
  | none => pure ()
  | some path => writeJson libraries path document

def batchFailure : Failure → String
  | .error failure => "batch-verify: " ++ failure.display
  | .panic site => "panic: " ++ site
  | .unfinished => "unfinished"

/-- The exit code and what was written. -/
structure BatchOutcome where
  exit : ExitCode
  batch : BatchReport
  deriving DecidableEq, Repr

def batchVerify (cli : Cli) : Command BatchOutcome := do
  let paths ← Command.of (inputList cli "proofs")
  if paths.isEmpty then throw "batch-verify: missing --proofs a.json,b.json"
  else
    let inputs ← Command.of (common cli)
    let statuses ← loadStatuses libraries primitives (cli.many "status")
    let maxBatch ← Command.of (cli.optU64 "max-batch")
    let canonicals ← loadCanonicals libraries paths
    let policy ← Command.of (verifierPolicy cli)
    match verifyBatch primitives orders (buildCtx cli inputs policy statuses) canonicals (maxBatch.getD 256) with
    | .error failure => throw (batchFailure failure)
    | .ok batch => do
      emitBatch libraries (cli.opt "out") (batchJson batch paths.length cli.strict)
      pure { exit := batchExit batch cli.strict, batch }

end

/-! ## The loop is a map -/

/-- The batch of these reports. -/
def BatchReport.through (batch : BatchReport) (reports : List VerifyReport) : BatchReport :=
  reports.foldl (fun batch report => batch.add batch.members.length report) batch

section
variable {primitives : Primitives} {orders : Bytes → HashOrder} {ctx : VerifyCtx}

theorem batchLoop_eq_ok {canonicals : List Bytes} {start batch : BatchReport} :
    batchLoop primitives orders ctx canonicals start = .ok batch ↔
      ∃ reports, canonicals.mapM (fun bytes => verifyProof primitives (orders bytes) ctx bytes) = .ok reports ∧
        start.through reports = batch := by
  induction canonicals generalizing start with
  | nil =>
    rw [batchLoop, List.mapM_nil, pure_eq_ok]
    constructor
    · intro done
      cases done
      exact ⟨[], rfl, rfl⟩
    · rintro ⟨reports, same, rfl⟩
      cases same
      rfl
  | cons bytes canonicals inductionHypothesis =>
    simp only [batchLoop, List.mapM_cons, bind_eq_ok, inductionHypothesis]
    constructor
    · rintro ⟨report, verified, reports, rest, rfl⟩
      exact ⟨report :: reports, ⟨report, verified, reports, rest, rfl⟩, rfl⟩
    · rintro ⟨_, ⟨report, verified, reports, rest, same⟩, rfl⟩
      cases same
      exact ⟨report, verified, reports, rest, rfl⟩

/-- What the members of a batch add up to. -/
theorem BatchReport.through_counts (start : BatchReport) (reports : List VerifyReport) :
    (start.through reports).members.map BatchMember.report = start.members.map BatchMember.report ++ reports ∧
      (start.through reports).cryptoValidCount =
        start.cryptoValidCount + reports.countP (fun report => report.cryptographicValidity = .valid) ∧
      (start.through reports).evidenceValidCount =
        start.evidenceValidCount + reports.countP (fun report => report.evidenceValidity = .valid) := by
  induction reports generalizing start with
  | nil => simp [through]
  | cons report reports inductionHypothesis =>
    obtain ⟨members, crypto, evidence⟩ := inductionHypothesis (start.add start.members.length report)
    rw [through, List.foldl_cons]
    refine ⟨members.trans ?_, crypto.trans ?_, evidence.trans ?_⟩
    · rw [add, List.map_append, List.append_assoc]
      rfl
    · rw [add, List.countP_cons]
      by_cases valid : report.cryptographicValidity = .valid
      · simp [valid, Nat.add_assoc, Nat.add_comm]
      · simp [valid]
    · rw [add, List.countP_cons]
      by_cases valid : report.evidenceValidity = .valid
      · simp [valid, Nat.add_assoc, Nat.add_comm]
      · simp [valid]

theorem batchExit_eq_ok {reports : List VerifyReport} {strict : Bool} :
    batchExit (BatchReport.empty.through reports) strict = .ok ↔
      reports ≠ [] ∧ ∀ report ∈ reports, verdictExit report = .ok ∧
        (strict = true → isCurrentlyAcceptable report = true) := by
  obtain ⟨members, crypto, evidence⟩ := BatchReport.through_counts .empty reports
  rw [show BatchReport.empty.members.map BatchMember.report = [] from rfl, List.nil_append] at members
  rw [show BatchReport.empty.cryptoValidCount = 0 from rfl, Nat.zero_add] at crypto
  rw [show BatchReport.empty.evidenceValidCount = 0 from rfl, Nat.zero_add] at evidence
  generalize BatchReport.empty.through reports = batch at members crypto evidence
  have sizes : batch.members.length = reports.length := by rw [← members, List.length_map]
  have valid : batch.allValid = true ↔ reports ≠ [] ∧ ∀ report ∈ reports, verdictExit report = .ok := by
    have filled : batch.members.isEmpty = reports.isEmpty := by rw [← members, List.isEmpty_map]
    simp only [BatchReport.allValid, filled, crypto, evidence, sizes, Bool.and_eq_true, beq_iff_eq,
      List.countP_eq_length, decide_eq_true_eq, Bool.not_eq_true', List.isEmpty_eq_false_iff, verdictExit_eq_ok,
      and_assoc]
    constructor
    · rintro ⟨filled, cryptos, evidences⟩
      exact ⟨filled, fun report member => ⟨cryptos report member, evidences report member⟩⟩
    · rintro ⟨filled, each⟩
      exact ⟨filled, fun report member => (each report member).1, fun report member => (each report member).2⟩
  have current : batch.currencyFailCount strict = 0 ↔ ∀ report ∈ reports, ¬ (strict = true ∧ lapsed report = true) := by
    rw [BatchReport.currencyFailCount, List.countP_eq_zero, ← members]
    simp only [List.mem_map, forall_exists_index, and_imp, forall_apply_eq_imp_iff₂, Bool.and_eq_true]
  rw [batchExit]
  by_cases failing : strict = true ∧ 0 < batch.currencyFailCount strict
  · rw [if_pos failing]
    refine ⟨fun same => (by cases same), fun each => ?_⟩
    have spared : batch.currencyFailCount strict = 0 := by
      refine current.mpr fun report member both => ?_
      obtain ⟨_, acceptable⟩ := each.2 report member
      have late := both.2
      rw [lapsed, acceptable both.1, Bool.not_true, Bool.and_false] at late
      cases late
    omega
  · rw [if_neg failing]
    have untouched : ∀ report ∈ reports, ¬ (strict = true ∧ lapsed report = true) := by
      by_cases asked : strict = true
      · exact current.mp (Nat.eq_zero_of_not_pos fun positive => failing ⟨asked, positive⟩)
      · exact fun _ _ both => asked both.1
    by_cases each : batch.allValid = true
    · rw [if_pos each]
      obtain ⟨filled, verdicts⟩ := valid.mp each
      refine iff_of_true rfl ⟨filled, fun report member => ⟨verdicts report member, fun asked => ?_⟩⟩
      obtain ⟨cryptoValid, evidenceValid⟩ := verdictExit_eq_ok.mp (verdicts report member)
      have prompt := fun late => untouched report member ⟨asked, late⟩
      rw [lapsed, cryptoValid, evidenceValid] at prompt
      simpa using prompt
    · rw [if_neg each]
      refine ⟨fun same => (by cases same), fun accepted => ?_⟩
      exact absurd (valid.mpr ⟨accepted.1, fun report member => (accepted.2 report member).1⟩) each

end

/-! ## Reading files -/

section
variable {libraries : Libraries} {primitives : Primitives} {world : World} {paths : List String}

/-- The status object in a file. -/
def statusOfFile (libraries : Libraries) (primitives : Primitives) (world : World) (path : String) :
    Except String SignedStatus :=
  inputText path world >>= statusOfText libraries primitives path (wrapperLabel path)

/-- The proof in a file. -/
def proofOfFile (libraries : Libraries) (world : World) (path : String) : Except String LoadedProof :=
  inputText path world >>= proofOfText libraries (wrapperLabel path)

theorem loadStatuses_files (files : "-" ∉ paths) :
    loadStatuses libraries primitives paths world =
      Command.of (paths.mapM (statusOfFile libraries primitives world)) world := by
  induction paths with
  | nil => rfl
  | cons path paths inductionHypothesis =>
    obtain ⟨file, files⟩ := not_or.mp (mt List.mem_cons.mpr files)
    have here : loadStatus libraries primitives path world =
        Command.of (statusOfFile libraries primitives world path) world :=
      (load_eq (statusOfText libraries primitives path) path world).trans (by
        rw [World.afterRead_file (Ne.symm file)]
        rfl)
    rw [loadStatuses, List.mapM_cons]
    change EStateM.bind _ _ world = _
    cases found : statusOfFile libraries primitives world path with
    | error message =>
      simp only [EStateM.bind, here, found, Command.of]
      rfl
    | ok status =>
      simp only [EStateM.bind, here, found, Command.of]
      change EStateM.bind _ _ world = _
      cases rest : paths.mapM (statusOfFile libraries primitives world) with
      | error message =>
        simp only [EStateM.bind, inductionHypothesis files, rest, Command.of]
        rfl
      | ok statuses =>
        simp only [EStateM.bind, inductionHypothesis files, rest, Command.of]
        rfl

theorem loadCanonicals_files (files : "-" ∉ paths) :
    loadCanonicals libraries paths world =
      Command.of ((paths.mapM (proofOfFile libraries world)).map fun proofs => proofs.map LoadedProof.canonical)
        world := by
  induction paths with
  | nil => rfl
  | cons path paths inductionHypothesis =>
    obtain ⟨file, files⟩ := not_or.mp (mt List.mem_cons.mpr files)
    have here : loadProof libraries path world = Command.of (proofOfFile libraries world path) world := by
      rw [loadProof_eq, World.afterRead_file (Ne.symm file), proofOfFile]
    rw [loadCanonicals, List.mapM_cons]
    change EStateM.bind _ _ world = _
    cases found : proofOfFile libraries world path with
    | error message =>
      simp only [EStateM.bind, here, found, Command.of]
      rfl
    | ok loaded =>
      simp only [EStateM.bind, here, found, Command.of]
      change EStateM.bind _ _ world = _
      cases rest : paths.mapM (proofOfFile libraries world) with
      | error message =>
        simp only [EStateM.bind, inductionHypothesis files, rest, Command.of]
        rfl
      | ok proofs =>
        simp only [EStateM.bind, inductionHypothesis files, rest, Command.of]
        rfl

end

/-! ## One by one -/

/-- The command line with this proof. -/
def Cli.alone (cli : Cli) (path : String) : Cli := { cli with values := ("proof", path) :: cli.values }

/-- No replay store is asked for. -/
structure Cli.Unpinned (cli : Cli) : Prop where
  store : cli.opt "seen-store" = none
  context : cli.opt "seen-context" = none
  record : cli.has "seen-record" = false

/-- Only files are read. -/
structure Cli.FromFiles (cli : Cli) (paths : List String) : Prop where
  proofs : "-" ∉ paths
  statuses : "-" ∉ cli.many "status"

/-- A report, if any, can be written where it is to go. -/
def Writable (world : World) (out : Option String) : Prop :=
  ∀ path, out = some path → path ≠ "-" → world.writeError path = none

theorem writeFile_done {what path text : String} {world : World} (file : path ≠ "-") :
    (∃ after, writeFile what path text world = .ok () after) ↔ Writable world (some path) := by
  rw [writeFile]
  cases failure : world.writeError path with
  | none =>
    refine iff_of_true ⟨_, rfl⟩ fun found same _ => ?_
    cases same
    exact failure
  | some reason =>
    refine iff_of_false ?_ fun writable => ?_
    · rintro ⟨_, done⟩
      cases done
    · rw [writable path rfl file] at failure
      cases failure

/-- What both commands read before the proofs. -/
structure Settled (libraries : Libraries) (primitives : Primitives) (cli : Cli) (world : World) (ctx : VerifyCtx) :
    Prop where
  context : ∃ inputs policy statuses, common cli = .ok inputs ∧ verifierPolicy cli = .ok policy ∧
    (cli.many "status").mapM (statusOfFile libraries primitives world) = .ok statuses ∧
    ctx = buildCtx cli inputs policy statuses
  writable : Writable world (cli.opt "out")

/-- The proof in the file loads and gets a report that is accepted. -/
def AcceptedUnder (libraries : Libraries) (primitives : Primitives) (order : HashOrder) (world : World)
    (ctx : VerifyCtx) (strict : Bool) (path : String) : Prop :=
  ∃ loaded report, proofOfFile libraries world path = .ok loaded ∧
    verifyProof primitives order ctx loaded.canonical = .ok report ∧ verdictExit report = .ok ∧
    (strict = true → isCurrentlyAcceptable report = true)

/-- The command ends well. -/
def Succeeds {α : Type} (exit : α → ExitCode) (command : Command α) (world : World) : Prop :=
  ∃ outcome after, command world = .ok outcome after ∧ exit outcome = .ok

section
variable {libraries : Libraries} {primitives : Primitives} {cli : Cli} {world : World} {ctx other : VerifyCtx}

theorem Settled.unique (settled : Settled libraries primitives cli world ctx)
    (again : Settled libraries primitives cli world other) : ctx = other := by
  obtain ⟨inputs, policy, statuses, inputsRead, policyRead, statusesRead, rfl⟩ := settled.context
  obtain ⟨inputs', policy', statuses', inputsAgain, policyAgain, statusesAgain, rfl⟩ := again.context
  cases inputsRead.symm.trans inputsAgain
  cases policyRead.symm.trans policyAgain
  cases statusesRead.symm.trans statusesAgain
  rfl

/-- A sound graph leaves nothing to the order. -/
theorem GraphOk.insensitive {edges : List EdgeRecord} {nodes : NodeSet} (graph : GraphOk ctx edges nodes) :
    ¬ GraphOrderSensitive ctx edges nodes := by
  rintro ⟨_, ⟨left, _, _, branches, _⟩ | ⟨_, cyclic | ⟨required, cyclic⟩⟩⟩
  · exact linear_iff_not_branches.mp graph.chains.linear left branches
  · exact cyclic graph.derivation
  · exact cyclic (graph.provenance required)

/-- A report without fault is the report of every hash order. -/
theorem verifyProof_anyOrder {order : HashOrder} {bytes : Bytes} {report : VerifyReport} (otherOrder : HashOrder)
    (verified : verifyProof primitives order ctx bytes = .ok report) (valid : verdictExit report = .ok) :
    verifyProof primitives otherOrder ctx bytes = .ok report := by
  obtain ⟨_, evidence⟩ := verdictExit_eq_ok.mp valid
  have inputs := checkInputs_of_done verified
  cases verifyProof_ran verified with
  | unparsed failed => cases evidence
  | misshapen decoded failed => cases evidence
  | completed stages =>
    rename_i value proof eventIds recomputed graph
    have clean := (stages.evidenceValid_iff_parts.mp evidence).1.graph
    have read : (decodeStrict bytes ctx.limits >>= cborToProof ctx.limits) = .ok proof :=
      bind_eq_ok.mpr ⟨value, stages.decoded, stages.parsed⟩
    have named : eventIds = eventMemberIds primitives proof :=
      Except.ok.inj (stages.events.symm.trans (mapM_memberEventId primitives (cborToProof_versions stages.parsed)))
    rw [named] at clean
    obtain ⟨_, _, reports⟩ := @verifyProof_eq_finalize primitives ctx bytes proof inputs read
    obtain ⟨_, _, _, verdicts⟩ := exists_graphVerdicts order ctx (proofEdges primitives proof)
      (memberNodes primitives proof (eventMemberIds primitives proof))
    obtain ⟨_, _, _, others⟩ := exists_graphVerdicts otherOrder ctx (proofEdges primitives proof)
      (memberNodes primitives proof (eventMemberIds primitives proof))
    rw [reports otherOrder _ _ _ others, ← graphRecords_order _ clean.insensitive verdicts others,
      ← reports order _ _ _ verdicts, verified]

theorem AcceptedUnder.anyOrder {order : HashOrder} {strict : Bool} {path : String} (otherOrder : HashOrder)
    (accepted : AcceptedUnder libraries primitives order world ctx strict path) :
    AcceptedUnder libraries primitives otherOrder world ctx strict path := by
  obtain ⟨loaded, report, loads, verified, valid, current⟩ := accepted
  exact ⟨loaded, report, loads, verifyProof_anyOrder otherOrder verified valid, valid, current⟩

theorem emitReport_done {report : VerifyReport} {out : Option String} :
    (∃ after, emitReport libraries report out world = .ok () after) ↔ Writable world out := by
  cases out with
  | none => exact iff_of_true ⟨world, rfl⟩ fun path same => by cases same
  | some path =>
    rw [emitReport]
    by_cases piped : path = "-"
    · rw [if_pos piped]
      refine iff_of_true ⟨world, rfl⟩ fun found same other => ?_
      cases same
      exact absurd piped other
    · rw [if_neg piped]
      exact writeFile_done piped

theorem emitBatch_done {document : Json} {out : Option String} :
    (∃ after, emitBatch libraries out document world = .ok () after) ↔ Writable world out := by
  cases out with
  | none => exact iff_of_true ⟨world, rfl⟩ fun path same => by cases same
  | some path =>
    rw [emitBatch, writeJson]
    by_cases piped : path = "-"
    · rw [if_pos piped]
      refine iff_of_true ⟨world, rfl⟩ fun found same other => ?_
      cases same
      exact absurd piped other
    · rw [if_neg piped]
      exact writeFile_done piped

/-! ## What is accepted -/

variable {order : HashOrder}

/-- A loaded proof passes for its report alone, where there is no replay store. -/
theorem verifyLoaded_succeeds_iff {inputs : CommonInputs} {policy : VerifierPolicy} {loaded : LoadedProof}
    (files : "-" ∉ cli.many "status") :
    Succeeds VerifyOutcome.exit (verifyLoaded libraries primitives order cli inputs policy none loaded) world ↔
      ∃ statuses report, (cli.many "status").mapM (statusOfFile libraries primitives world) = .ok statuses ∧
        verifyProof primitives order (buildCtx cli inputs policy statuses) loaded.canonical = .ok report ∧
        Writable world (cli.opt "out") ∧ verdictExit report = .ok ∧
        (cli.strict = true → isCurrentlyAcceptable report = true) := by
  constructor
  · rintro ⟨outcome, after, done, accepted⟩
    obtain ⟨statuses, _, statusesDone, done⟩ := Command.bind_eq_ok.mp done
    rw [loadStatuses_files files] at statusesDone
    obtain ⟨statusesRead, rfl⟩ := Command.of_eq_ok.mp statusesDone
    cases verified : verifyProof primitives order (buildCtx cli inputs policy statuses) loaded.canonical with
    | error failure =>
      simp only [verified] at done
      exact absurd done Command.throw_ne_ok
    | ok report =>
      simp only [verified] at done
      obtain ⟨_, written, emitted, done⟩ := Command.bind_eq_ok.mp done
      refine ⟨statuses, report, statusesRead, verified, emitReport_done.mp ⟨written, emitted⟩, ?_⟩
      change ((if (cli.strict && !isCurrentlyAcceptable report) = true then _ else _) : Command VerifyOutcome) _ = _
        at done
      split at done
      · obtain ⟨rfl, _⟩ := Command.pure_eq_ok.mp done
        cases accepted
      · rename_i current
        split at done
        · rename_i invalid
          obtain ⟨rfl, _⟩ := Command.pure_eq_ok.mp done
          exact absurd accepted invalid
        · rename_i valid
          refine ⟨not_not.mp valid, fun strict => ?_⟩
          rw [strict, Bool.true_and, Bool.not_eq_true', Bool.not_eq_false] at current
          exact current
  · rintro ⟨statuses, report, statusesRead, verified, writable, valid, current⟩
    obtain ⟨after, emitted⟩ := emitReport_done.mpr writable
    have loads : loadStatuses libraries primitives (cli.many "status") world = .ok statuses world := by
      rw [loadStatuses_files files, statusesRead]
      rfl
    refine ⟨{ exit := .ok, report }, after, ?_, rfl⟩
    rw [verifyLoaded, Command.bind_ok loads]
    simp only [verified]
    rw [Command.bind_ok emitted]
    have prompt : ¬ (cli.strict && !isCurrentlyAcceptable report) = true := by
      rw [Bool.and_eq_true, Bool.not_eq_true']
      rintro ⟨strict, late⟩
      rw [current strict] at late
      cases late
    exact congrFun ((if_neg prompt).trans (if_neg (not_not.mpr valid))) after

theorem seenRequest_unpinned (unpinned : cli.Unpinned) : seenRequest cli = .ok none := by
  rw [seenRequest, unpinned.store, unpinned.context]
  simp only [unpinned.record, Bool.false_eq_true, if_false]

theorem alone_opt {path name : String} (other : name ≠ "proof") : (cli.alone path).opt name = cli.opt name := by
  rw [Cli.opt, Cli.alone, List.lookup_cons, beq_eq_false_iff_ne.mpr other]
  rfl

/-- `verify` on one file accepts it when it loads and its report passes. -/
theorem verify_succeeds_iff {path : String} (unpinned : cli.Unpinned) (files : "-" ∉ cli.many "status")
    (file : path ≠ "-") :
    Succeeds VerifyOutcome.exit (verify libraries primitives order (cli.alone path)) world ↔
      ∃ ctx, Settled libraries primitives cli world ctx ∧
        AcceptedUnder libraries primitives order world ctx cli.strict path := by
  have reads : (cli.alone path).proofPath = .ok path := by
    simp [Cli.proofPath, Cli.alone, Cli.opt]
  have commons : common (cli.alone path) = common cli := by
    simp only [common, Cli.reqU64, Cli.req, Cli.optU64, alone_opt (show "clock" ≠ "proof" by decide),
      alone_opt (show "skew" ≠ "proof" by decide), alone_opt (show "revocations-known-at" ≠ "proof" by decide)]
  have policies : verifierPolicy (cli.alone path) = verifierPolicy cli := rfl
  have seen : seenRequest (cli.alone path) = .ok none := by
    refine seenRequest_unpinned ⟨?_, ?_, unpinned.record⟩
    · rw [alone_opt (by decide), unpinned.store]
    · rw [alone_opt (by decide), unpinned.context]
  have out : (cli.alone path).opt "out" = cli.opt "out" := alone_opt (by decide)
  have loading : (loadProof libraries path).caught world = .ok (proofOfFile libraries world path) world := by
    rw [Command.caught, loadProof_eq, World.afterRead_file file, ← proofOfFile]
    cases proofOfFile libraries world path with
    | ok loaded => rfl
    | error message => rfl
  have run {inputs : CommonInputs} {policy : VerifierPolicy} (inputsRead : common cli = .ok inputs)
      (policyRead : verifierPolicy cli = .ok policy) {loaded : LoadedProof}
      (loads : proofOfFile libraries world path = .ok loaded) :
      verify libraries primitives order (cli.alone path) world =
        verifyLoaded libraries primitives order (cli.alone path) inputs policy none loaded world := by
    rw [verify, Command.bind_ok (Command.of_eq_ok.mpr ⟨commons.trans inputsRead, rfl⟩),
      Command.bind_ok (Command.of_eq_ok.mpr ⟨policies.trans policyRead, rfl⟩),
      Command.bind_ok (Command.of_eq_ok.mpr ⟨seen, rfl⟩), Command.bind_ok (Command.of_eq_ok.mpr ⟨reads, rfl⟩),
      Command.bind_ok loading, loads]
  constructor
  · rintro ⟨outcome, after, done, accepted⟩
    let attempt : VerifyRun := { libraries, primitives, order, cli := cli.alone path, world }
    have result : attempt.result = .ok outcome after := done
    obtain ⟨inputs, policy, _, inputsRead, policyRead, ⟨loaded, loads, _⟩ | ⟨message, failed, unloaded⟩⟩ :=
      VerifyRun.result_eq_ok reads result
    · have found : proofOfFile libraries world path = .ok loaded := loads
      rw [run (commons.symm.trans inputsRead) policyRead found] at done
      obtain ⟨statuses, report, statusesRead, verified, writable, valid, current⟩ :=
        (verifyLoaded_succeeds_iff (by exact files)).mp ⟨outcome, after, done, accepted⟩
      rw [out] at writable
      exact ⟨buildCtx cli inputs policy statuses,
        ⟨⟨inputs, policy, statuses, commons.symm.trans inputsRead, policyRead, statusesRead, rfl⟩, writable⟩,
        loaded, report, found, verified, valid, current⟩
    · -- nothing that did not load is accepted
      obtain ⟨blameless, raw, _, statuses, reread, verified, valid⟩ := verifyUnloaded_accepts unloaded accepted
      rw [loadProofBytesRaw_eq] at reread
      have exhausts : VerifyRun.Exhausts path world.stdin := fun piped => absurd piped file
      have unread := VerifyRun.unread_again exhausts failed (Command.of_eq_ok.mp reread).1 blameless
      exact absurd valid (verdictExit_unread unread verified)
  · rintro ⟨ctx, ⟨⟨inputs, policy, statuses, inputsRead, policyRead, statusesRead, rfl⟩, writable⟩, loaded, report,
      loads, verified, valid, current⟩
    rw [Succeeds, run inputsRead policyRead loads]
    refine (verifyLoaded_succeeds_iff (by exact files)).mpr
      ⟨statuses, report, statusesRead, verified, ?_, valid, current⟩
    rwa [out]

theorem reports_of_accepted {orders : Bytes → HashOrder} {paths : List String} {proofs : List LoadedProof}
    {strict : Bool}
    (loads : List.Forall₂ (fun path loaded => proofOfFile libraries world path = .ok loaded) paths proofs)
    (accepted : ∀ path ∈ paths, AcceptedUnder libraries primitives order world ctx strict path) :
    ∃ reports, (proofs.map LoadedProof.canonical).mapM
        (fun bytes => verifyProof primitives (orders bytes) ctx bytes) = .ok reports ∧
      ∀ report ∈ reports, verdictExit report = .ok ∧ (strict = true → isCurrentlyAcceptable report = true) := by
  induction loads with
  | nil => exact ⟨[], rfl, fun _ member => absurd member List.not_mem_nil⟩
  | @cons path loaded paths proofs here later inductionHypothesis =>
    obtain ⟨first, rest⟩ := List.forall_mem_cons.mp accepted
    obtain ⟨found, report, foundHere, verified, valid, current⟩ := first.anyOrder (orders loaded.canonical)
    cases here.symm.trans foundHere
    obtain ⟨reports, others, passed⟩ := inductionHypothesis rest
    refine ⟨report :: reports, ?_, List.forall_mem_cons.mpr ⟨⟨valid, current⟩, passed⟩⟩
    rw [List.map_cons, List.mapM_cons, verified, ok_bind, others, ok_bind]
    rfl

/-- The loop ends well when every proof is accepted, each under a hash order of its own. -/
theorem batchLoop_succeeds_iff (order : HashOrder) (orders : Bytes → HashOrder) {paths : List String}
    {proofs : List LoadedProof} {strict : Bool} (loads : paths.mapM (proofOfFile libraries world) = .ok proofs) :
    (∃ batch, batchLoop primitives orders ctx (proofs.map LoadedProof.canonical) .empty = .ok batch ∧
        batchExit batch strict = .ok) ↔
      paths ≠ [] ∧ ∀ path ∈ paths, AcceptedUnder libraries primitives order world ctx strict path := by
  have each := mapM_eq_ok.mp loads
  constructor
  · rintro ⟨batch, done, accepted⟩
    obtain ⟨reports, verified, rfl⟩ := batchLoop_eq_ok.mp done
    obtain ⟨filled, passed⟩ := batchExit_eq_ok.mp accepted
    constructor
    · rintro rfl
      cases each
      cases verified
      exact filled rfl
    · intro path member
      obtain ⟨loaded, loadedMember, found⟩ := exists_result_of_mem loads member
      obtain ⟨report, reportMember, done⟩ := exists_result_of_mem verified (List.mem_map_of_mem loadedMember)
      obtain ⟨valid, current⟩ := passed report reportMember
      exact AcceptedUnder.anyOrder _ ⟨loaded, report, found, done, valid, current⟩
  · rintro ⟨filled, accepted⟩
    obtain ⟨reports, verified, passed⟩ := @reports_of_accepted libraries primitives world ctx order orders paths proofs
      strict each accepted
    refine ⟨_, batchLoop_eq_ok.mpr ⟨reports, verified, rfl⟩, batchExit_eq_ok.mpr ⟨?_, passed⟩⟩
    rintro rfl
    have sizes := (mapM_eq_ok.mp verified).length_eq
    rw [List.length_map, ← each.length_eq, List.length_nil] at sizes
    exact filled (List.length_eq_zero_iff.mp sizes)

/-- The command ends well when everything it reads can be read and the loop ends in a batch that is accepted. -/
theorem batchVerify_steps {orders : Bytes → HashOrder} {paths : List String}
    (listed : inputList cli "proofs" = .ok paths) (files : cli.FromFiles paths) :
    Succeeds BatchOutcome.exit (batchVerify primitives orders libraries cli) world ↔
      paths ≠ [] ∧ ∃ ctx cap proofs batch, Settled libraries primitives cli world ctx ∧
        cli.optU64 "max-batch" = .ok cap ∧ paths.length ≤ (cap.getD 256).toNat ∧
        paths.mapM (proofOfFile libraries world) = .ok proofs ∧
        batchLoop primitives orders ctx (proofs.map LoadedProof.canonical) .empty = .ok batch ∧
        batchExit batch cli.strict = .ok := by
  have sizes : ∀ proofs, paths.mapM (proofOfFile libraries world) = .ok proofs →
      (proofs.map LoadedProof.canonical).length = paths.length := by
    intro proofs loads
    rw [List.length_map, (mapM_eq_ok.mp loads).length_eq]
  constructor
  · rintro ⟨outcome, after, done, accepted⟩
    obtain ⟨found, _, pathsDone, done⟩ := Command.bind_eq_ok.mp done
    obtain ⟨pathsRead, rfl⟩ := Command.of_eq_ok.mp pathsDone
    obtain rfl : paths = found := Except.ok.inj (listed.symm.trans pathsRead)
    split at done
    · exact absurd done Command.throw_ne_ok
    · rename_i nonempty
      obtain ⟨inputs, _, inputsDone, done⟩ := Command.bind_eq_ok.mp done
      obtain ⟨inputsRead, rfl⟩ := Command.of_eq_ok.mp inputsDone
      obtain ⟨statuses, _, statusesDone, done⟩ := Command.bind_eq_ok.mp done
      rw [loadStatuses_files files.statuses] at statusesDone
      obtain ⟨statusesRead, rfl⟩ := Command.of_eq_ok.mp statusesDone
      obtain ⟨cap, _, capDone, done⟩ := Command.bind_eq_ok.mp done
      obtain ⟨capRead, rfl⟩ := Command.of_eq_ok.mp capDone
      obtain ⟨canonicals, _, loadsDone, done⟩ := Command.bind_eq_ok.mp done
      rw [loadCanonicals_files files.proofs] at loadsDone
      obtain ⟨mapped, rfl⟩ := Command.of_eq_ok.mp loadsDone
      obtain ⟨proofs, loads, rfl⟩ := map_eq_ok.mp mapped
      obtain ⟨policy, _, policyDone, done⟩ := Command.bind_eq_ok.mp done
      obtain ⟨policyRead, rfl⟩ := Command.of_eq_ok.mp policyDone
      cases ran : verifyBatch primitives orders (buildCtx cli inputs policy statuses)
          (proofs.map LoadedProof.canonical) (cap.getD 256) with
      | error failure =>
        simp only [ran] at done
        exact absurd done Command.throw_ne_ok
      | ok batch =>
        simp only [ran] at done
        obtain ⟨_, written, emitted, done⟩ := Command.bind_eq_ok.mp done
        obtain ⟨rfl, _⟩ := Command.pure_eq_ok.mp done
        rw [verifyBatch, sizes proofs loads] at ran
        split at ran
        · cases ran
        · rename_i within
          have settled : Settled libraries primitives cli world (buildCtx cli inputs policy statuses) :=
            ⟨⟨inputs, policy, statuses, inputsRead, policyRead, statusesRead, rfl⟩,
              emitBatch_done.mp ⟨written, emitted⟩⟩
          exact ⟨fun empty => nonempty (List.isEmpty_iff.mpr empty), _, cap, proofs, batch, settled, capRead,
            not_lt.mp within, loads, ran, accepted⟩
  · rintro ⟨filled, ctx, cap, proofs, batch, settled, capRead, within, loads, ran, accepted⟩
    obtain ⟨⟨inputs, policy, statuses, inputsRead, policyRead, statusesRead, rfl⟩, writable⟩ := settled
    obtain ⟨after, emitted⟩ :=
      (@emitBatch_done libraries world (batchJson batch paths.length cli.strict) _).mpr writable
    refine ⟨{ exit := batchExit batch cli.strict, batch }, after, ?_, accepted⟩
    have statusLoads : loadStatuses libraries primitives (cli.many "status") world = .ok statuses world := by
      rw [loadStatuses_files files.statuses, statusesRead]
      rfl
    have proofLoads : loadCanonicals libraries paths world = .ok (proofs.map LoadedProof.canonical) world := by
      rw [loadCanonicals_files files.proofs, loads]
      rfl
    have nonempty : ¬ paths.isEmpty = true := fun empty => filled (List.isEmpty_iff.mp empty)
    have verified : verifyBatch primitives orders (buildCtx cli inputs policy statuses)
        (proofs.map LoadedProof.canonical) (cap.getD 256) = .ok batch := by
      rw [verifyBatch, sizes proofs loads, if_neg (not_lt.mpr within), ran]
    rw [batchVerify, Command.bind_ok (Command.of_eq_ok.mpr ⟨listed, rfl⟩), if_neg nonempty,
      Command.bind_ok (Command.of_eq_ok.mpr ⟨inputsRead, rfl⟩), Command.bind_ok statusLoads,
      Command.bind_ok (Command.of_eq_ok.mpr ⟨capRead, rfl⟩), Command.bind_ok proofLoads,
      Command.bind_ok (Command.of_eq_ok.mpr ⟨policyRead, rfl⟩)]
    simp only [verified]
    exact Command.bind_ok emitted _

/-- A batch within its cap is accepted exactly when `verify` accepts each of its proofs alone. -/
theorem batchVerify_succeeds_iff {orders : Bytes → HashOrder} {pathOrders : String → HashOrder} {paths : List String}
    (listed : inputList cli "proofs" = .ok paths) (files : cli.FromFiles paths) (unpinned : cli.Unpinned) :
    Succeeds BatchOutcome.exit (batchVerify primitives orders libraries cli) world ↔
      paths ≠ [] ∧ (∃ cap, cli.optU64 "max-batch" = .ok cap ∧ paths.length ≤ (cap.getD 256).toNat) ∧
        ∀ path ∈ paths,
          Succeeds VerifyOutcome.exit (verify libraries primitives (pathOrders path) (cli.alone path)) world := by
  have alone : ∀ path ∈ paths,
      (Succeeds VerifyOutcome.exit (verify libraries primitives (pathOrders path) (cli.alone path)) world ↔
        ∃ ctx, Settled libraries primitives cli world ctx ∧
          AcceptedUnder libraries primitives (pathOrders path) world ctx cli.strict path) :=
    fun path member => verify_succeeds_iff unpinned files.statuses fun piped => files.proofs (piped ▸ member)
  rw [batchVerify_steps listed files]
  constructor
  · rintro ⟨_, ctx, cap, proofs, batch, settled, capRead, within, loads, ran, accepted⟩
    obtain ⟨filled, each⟩ := (batchLoop_succeeds_iff .inserted orders loads).mp ⟨batch, ran, accepted⟩
    refine ⟨filled, ⟨cap, capRead, within⟩, fun path member => (alone path member).mpr ?_⟩
    exact ⟨ctx, settled, (each path member).anyOrder (pathOrders path)⟩
  · rintro ⟨filled, ⟨cap, capRead, within⟩, each⟩
    -- the runs on single files read the same flags and status objects
    have shared : ∃ ctx, Settled libraries primitives cli world ctx ∧
        ∀ path ∈ paths, AcceptedUnder libraries primitives .inserted world ctx cli.strict path := by
      obtain ⟨first, rest, rfl⟩ := List.exists_cons_of_ne_nil filled
      obtain ⟨ctx, settled, _⟩ := (alone first List.mem_cons_self).mp (each first List.mem_cons_self)
      refine ⟨ctx, settled, fun path member => ?_⟩
      obtain ⟨other, again, accepted⟩ := (alone path member).mp (each path member)
      rw [settled.unique again]
      exact accepted.anyOrder .inserted
    obtain ⟨ctx, settled, accepted⟩ := shared
    obtain ⟨proofs, loads⟩ : ∃ proofs, paths.mapM (proofOfFile libraries world) = .ok proofs :=
      exists_mapM_of_forall fun path member => by
        obtain ⟨loaded, _, loads, _⟩ := accepted path member
        exact ⟨loaded, loads⟩
    obtain ⟨batch, ran, passed⟩ := (batchLoop_succeeds_iff .inserted orders loads).mpr ⟨filled, accepted⟩
    exact ⟨filled, ctx, cap, proofs, batch, settled, capRead, within, loads, ran, passed⟩

end

/-- A proof and one that links to it. -/
def batchFlags : Cli where
  values := [("clock", "1700000100")]
  multi := [("proofs", ["leaf.json,linking.json"])]

def batchWorld : World := wrapperWorld [("leaf.json", bytesOf leafProof), ("linking.json", bytesOf linkingProof)]

theorem batchWorld_loads {path : String} {proof : Proof} (file : path ≠ "-")
    (there : [("leaf.json", bytesOf leafProof), ("linking.json", bytesOf linkingProof)].lookup path =
      some (bytesOf proof))
    (read : (decodeStrict (bytesOf proof) Limits.default >>= cborToProof Limits.default) = .ok proof ∧
      (bytesOf proof).length ≤ 2 ^ 16) :
    proofOfFile wrapperLibraries batchWorld path = .ok { canonical := bytesOf proof, proof } := by
  have loads : loadProof wrapperLibraries path batchWorld = .ok { canonical := bytesOf proof, proof } batchWorld :=
    loadProof_wrapperWorld file there read
  rw [loadProof_eq] at loads
  exact (Command.of_eq_ok.mp loads).1

theorem batchProofs_reported : ∃ inputs policy, common batchFlags = .ok inputs ∧
    verifierPolicy batchFlags = .ok policy ∧ ∀ proof ∈ [leafProof, linkingProof], ∃ report,
      verifyProof linkedPrimitives .inserted (buildCtx batchFlags inputs policy []) (bytesOf proof) = .ok report ∧
        verdictExit report = .ok := by
  obtain ⟨inputs, inputsRead⟩ := exists_of_isOk (show (common batchFlags).isOk = true by decide +kernel)
  obtain ⟨policy, policyRead⟩ := exists_of_isOk (show (verifierPolicy batchFlags).isOk = true by decide +kernel)
  have computed : (do
      let inputs ← common batchFlags
      let policy ← verifierPolicy batchFlags
      pure ([leafProof, linkingProof].map fun proof =>
        (verifyProof linkedPrimitives .inserted (buildCtx batchFlags inputs policy []) (bytesOf proof)).map
          verdictExit)) = .ok [.ok .ok, .ok .ok] := by
    decide +kernel
  rw [inputsRead, policyRead] at computed
  obtain ⟨leaf, linking⟩ := List.cons.inj (Except.ok.inj computed)
  refine ⟨inputs, policy, inputsRead, policyRead, ?_⟩
  simp only [List.forall_mem_cons]
  exact ⟨map_eq_ok.mp leaf, map_eq_ok.mp (List.cons.inj linking).1, by simp⟩

theorem batchFlags_alone : ∀ path ∈ ["leaf.json", "linking.json"],
    Succeeds VerifyOutcome.exit
      (verify wrapperLibraries linkedPrimitives .inserted (batchFlags.alone path)) batchWorld := by
  obtain ⟨inputs, policy, inputsRead, policyRead, reported⟩ := batchProofs_reported
  have settled : Settled wrapperLibraries linkedPrimitives batchFlags batchWorld
      (buildCtx batchFlags inputs policy []) :=
    ⟨⟨inputs, policy, [], inputsRead, policyRead, rfl, rfl⟩, fun _ _ _ => rfl⟩
  have accepted : ∀ path proof, proofOfFile wrapperLibraries batchWorld path =
      .ok { canonical := bytesOf proof, proof } → proof ∈ [leafProof, linkingProof] →
        AcceptedUnder wrapperLibraries linkedPrimitives .inserted batchWorld (buildCtx batchFlags inputs policy [])
          batchFlags.strict path := by
    intro path proof found member
    obtain ⟨report, verified, verdict⟩ := reported proof member
    exact ⟨_, report, found, verified, verdict, fun strict => absurd strict (by decide)⟩
  have leaf := @batchWorld_loads "leaf.json" leafProof (by decide) rfl (by decide +kernel)
  have linking := @batchWorld_loads "linking.json" linkingProof (by decide) rfl (by decide +kernel)
  have unpinned : batchFlags.Unpinned := ⟨rfl, rfl, rfl⟩
  intro path member
  have files : path ≠ "-" := by
    rintro rfl
    exact absurd member (by decide)
  refine (verify_succeeds_iff unpinned (by decide) files).mpr ⟨_, settled, ?_⟩
  simp only [List.mem_cons, List.not_mem_nil, or_false] at member
  rcases member with rfl | rfl
  · exact accepted _ _ leaf (by simp)
  · exact accepted _ _ linking (by simp)

theorem batchFlags_succeeds :
    Succeeds BatchOutcome.exit (batchVerify linkedPrimitives (fun _ => .inserted) wrapperLibraries batchFlags)
      batchWorld := by
  have listed : inputList batchFlags "proofs" = .ok ["leaf.json", "linking.json"] := by decide +kernel
  have files : batchFlags.FromFiles ["leaf.json", "linking.json"] := ⟨by decide, by decide⟩
  have unpinned : batchFlags.Unpinned := ⟨rfl, rfl, rfl⟩
  exact (batchVerify_succeeds_iff listed files unpinned).mpr
    ⟨List.cons_ne_nil _ _, ⟨none, rfl, by decide⟩, batchFlags_alone⟩

end ProofEngine
