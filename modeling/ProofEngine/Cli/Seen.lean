import ProofEngine.Cli.Evaluate
import ProofEngine.Cli.StrictRuns
import ProofEngine.Lib.QuotedText

/-! # Replays

The store keeps one text for an accepted proof: the context, two colons and the id.  Ids of proofs all have the same
length, so the text determines both, whatever the context is.  Over a run in which nobody else writes the store, the
gate reports a replay exactly where the same acceptance has come before. -/

namespace ProofEngine

open Text StableSort

/-! ## Keys -/

def seenKey (context proofId : String) : String := context ++ "::" ++ proofId

/-- The ids that proofs are named by. -/
def IsFullProofId (primitives : Primitives) (id : String) : Prop :=
  ∃ proposition createdAt eventIds attestationIds evidenceIds relationshipIds referencedProofs vocabularies,
    id = proofIdFull primitives proposition createdAt eventIds attestationIds evidenceIds relationshipIds
      referencedProofs vocabularies

theorem length_idWith (primitives : Primitives) (kind : String) (canonical : Bytes) :
    (idWith primitives kind canonical).toList.length = kind.toList.length + 47 := by
  have digest := (primitives.sha256 canonical).2
  simp only [idWith, b64uNopad, String.toList_append, List.length_append, Base64Url.length_encode, digest]
  rfl

theorem IsFullProofId.length {primitives : Primitives} {id : String} (formed : IsFullProofId primitives id) :
    id.toList.length = 50 := by
  obtain ⟨_, _, _, _, _, _, _, _, rfl⟩ := formed
  exact length_idWith primitives IdKind.proof _

theorem seenKey_inj {primitives : Primitives} {context other id otherId : String}
    (formed : IsFullProofId primitives id) (otherFormed : IsFullProofId primitives otherId)
    (same : seenKey context id = seenKey other otherId) : context = other ∧ id = otherId := by
  have lengths : id.toList.length = otherId.toList.length := formed.length.trans otherFormed.length.symm
  have texts := congrArg String.toList same
  simp only [seenKey, String.toList_append] at texts
  -- the ids are suffixes of one length
  obtain ⟨leads, ids⟩ := List.append_inj' texts lengths
  exact ⟨String.toList_inj.mp (List.append_cancel_right leads), String.toList_inj.mp ids⟩

/-- A verified proof in the context of one business action. -/
structure Acceptance (primitives : Primitives) where
  context : String
  proofId : String
  formed : IsFullProofId primitives proofId

namespace Acceptance

variable {primitives : Primitives}

def key (next : Acceptance primitives) : String := seenKey next.context next.proofId

/-- The request of an acceptance that is to be recorded. -/
def request (next : Acceptance primitives) (store : String) : SeenRequest where
  store := store
  context := next.context
  record := true

theorem key_injective : Function.Injective fun next : Acceptance primitives => next.key := by
  intro next other same
  obtain ⟨context, proofId, formed⟩ := next
  obtain ⟨otherContext, otherId, otherFormed⟩ := other
  obtain ⟨rfl, rfl⟩ := seenKey_inj formed otherFormed same
  rfl

end Acceptance

/-! ## The store -/

/-- What is written is parsed as it was meant: the library reads its own text of a seen set. -/
def ReadsBack (libraries : Libraries) : Prop :=
  ∀ keys, libraries.fromStr (libraries.toStringPretty (.object [("seen", texts keys)]) ++ "\n") =
    .ok (.object [("seen", texts keys)])

section
variable {libraries : Libraries} {primitives : Primitives} {store : String} {world after : World}

/-- The text of a seen set in the store. -/
def seenDocument (libraries : Libraries) (keys : List String) : Bytes :=
  utf8 (libraries.toStringPretty (.object [("seen", texts keys)]) ++ "\n")

theorem seenOfText_written (readsBack : ReadsBack libraries) (path : String) (keys : List String) :
    seenOfText libraries path (libraries.toStringPretty (.object [("seen", texts keys)]) ++ "\n") = .ok keys := by
  rw [seenOfText, readsBack keys]
  exact mapM_eq_ok.mpr (List.forall₂_map_left_iff.mpr (List.forall₂_same.mpr fun _ _ => rfl))

theorem loadSeen_written (readsBack : ReadsBack libraries) {keys : List String}
    (written : world.files store = .ok (seenDocument libraries keys)) :
    loadSeen libraries store world = .ok keys world := by
  rw [loadSeen, written]
  simp only [seenDocument, fromUtf8_utf8, seenOfText_written readsBack]
  rfl

theorem loadSeen_missing {failure : FileError} (absent : world.files store = .error failure)
    (missing : failure.notFound = true) : loadSeen libraries store world = .ok [] world := by
  rw [loadSeen, absent]
  simp only [missing, if_true]
  rfl

theorem gate_seen {request : SeenRequest} {keys : List String} {proofId : String}
    (loads : loadSeen libraries request.store world = .ok keys world)
    (seen : seenKey request.context proofId ∈ keys) : gate libraries request proofId world = .ok true world :=
  (Command.bind_ok loads _).trans (congrFun (if_pos (List.contains_iff_mem.mpr seen)) world)

theorem gate_fresh {request : SeenRequest} {keys : List String} {proofId : String}
    (loads : loadSeen libraries request.store world = .ok keys world)
    (fresh : seenKey request.context proofId ∉ keys) (record : request.record = true)
    (writable : world.writeError request.store = none) :
    gate libraries request proofId world =
      .ok false
        { world with
          files := Function.update world.files request.store
            (.ok (seenDocument libraries (sortDedup utf8 (seenKey request.context proofId :: keys)))) } := by
  have unseen : ¬ keys.contains (request.context ++ "::" ++ proofId) = true := fun found =>
    fresh (List.contains_iff_mem.mp found)
  refine (Command.bind_ok loads _).trans ((congrFun (if_neg unseen) world).trans ?_)
  refine (congrFun (if_pos record) world).trans ?_
  have write (text : String) : writeFile "seen-store write " request.store text world =
      .ok () { world with files := Function.update world.files request.store (.ok (utf8 text)) } := by
    rw [writeFile, writable]
  exact Command.bind_ok (write _) _

/-- The store can be written and holds the keys of these acceptances, and of no others. -/
structure StoreHolds (libraries : Libraries) (store : String) (world : World)
    (accepted : List (Acceptance primitives)) : Prop where
  writable : world.writeError store = none
  loads : ∃ keys, loadSeen libraries store world = .ok keys world ∧
    ∀ next : Acceptance primitives, next.key ∈ keys ↔ next ∈ accepted

theorem mem_sortDedup_utf8 {key : String} {keys : List String} : key ∈ sortDedup utf8 keys ↔ key ∈ keys := by
  constructor
  · exact mem_of_mem_sortDedup
  · intro member
    have kept : ∃ kept ∈ sortDedup utf8 keys, utf8 kept = utf8 key := exists_mem_sortDedup member
    obtain ⟨kept, keptMember, same⟩ := kept
    rwa [← utf8_injective same]

/-- One call of the gate: its answer is whether the acceptance is a repeated one, and the store holds it from then
    on. -/
theorem StoreHolds.gate {accepted : List (Acceptance primitives)} (readsBack : ReadsBack libraries)
    (holds : StoreHolds libraries store world accepted) (next : Acceptance primitives) :
    ∃ replayed after, gate libraries (next.request store) next.proofId world = .ok replayed after ∧
      (replayed = true ↔ next ∈ accepted) ∧ StoreHolds libraries store after (accepted ++ [next]) := by
  obtain ⟨keys, loads, exact⟩ := holds.loads
  by_cases seen : next.key ∈ keys
  · have earlier := (exact next).mp seen
    refine ⟨true, world, gate_seen loads seen, by simpa using earlier, holds.writable, keys, loads, ?_⟩
    intro other
    rw [exact other, List.mem_append, List.mem_singleton]
    constructor
    · exact .inl
    · rintro (member | rfl)
      · exact member
      · exact earlier
  · have fresh : next ∉ accepted := fun member => seen ((exact next).mpr member)
    refine ⟨false, _, gate_fresh loads seen rfl holds.writable, by simpa using fresh, holds.writable,
      sortDedup utf8 (next.key :: keys), ?_, ?_⟩
    · exact loadSeen_written readsBack (Function.update_self store _ world.files)
    · intro other
      rw [mem_sortDedup_utf8, List.mem_cons, exact other, List.mem_append, List.mem_singleton,
        Acceptance.key_injective.eq_iff, or_comm]

end

/-! ## Commands that leave the store alone -/

/-- The store is as it was, and can be written as before. -/
structure SameStore (store : String) (before after : World) : Prop where
  file : after.files store = before.files store
  writeError : after.writeError store = before.writeError store

theorem SameStore.refl (store : String) (world : World) : SameStore store world world := ⟨rfl, rfl⟩

theorem SameStore.trans {store : String} {first second third : World} (earlier : SameStore store first second)
    (later : SameStore store second third) : SameStore store first third :=
  ⟨later.file.trans earlier.file, later.writeError.trans earlier.writeError⟩

namespace Command

variable {α β : Type} {store : String}

/-- The world a command leaves, also when it fails. -/
def after (command : Command α) (world : World) : World :=
  match command world with
  | .ok _ left => left
  | .error _ left => left

def Spares (store : String) (command : Command α) : Prop := ∀ world, SameStore store world (command.after world)

theorem Spares.of_ok {command : Command α} (spares : command.Spares store) {world left : World} {value : α}
    (done : command world = .ok value left) : SameStore store world left := by
  have same := spares world
  rwa [after, done] at same

/-- A command that is a function of the world and reads past some of its input. -/
theorem spares_of_eq {command : Command α} (result : World → Except String α) (left : World → World)
    (ends : ∀ world, command world = of (result world) (left world))
    (same : ∀ world, SameStore store world (left world)) : command.Spares store := by
  intro world
  rw [after, ends world]
  cases result world with
  | ok value => exact same world
  | error message => exact same world

theorem spares_of (result : Except String α) : (of result).Spares store :=
  spares_of_eq (fun _ => result) id (fun _ => rfl) (SameStore.refl store)

theorem spares_pure (value : α) : (pure value : Command α).Spares store :=
  spares_of (.ok value)

theorem spares_throw (message : String) : (throw message : Command α).Spares store :=
  spares_of (.error message)

theorem Spares.bind {command : Command α} {next : α → Command β} (first : command.Spares store)
    (second : ∀ value, (next value).Spares store) : (command >>= next).Spares store := by
  intro world
  have earlier := first world
  rw [after] at earlier ⊢
  change SameStore store world (match EStateM.bind command next world with | .ok _ left => left | .error _ left => left)
  cases done : command world with
  | ok value middle =>
    rw [done] at earlier
    simp only [EStateM.bind, done]
    exact earlier.trans (second value middle)
  | error message middle =>
    rw [done] at earlier
    simp only [EStateM.bind, done]
    exact earlier

theorem after_caught (command : Command α) (world : World) : command.caught.after world = command.after world := by
  rw [after, after, caught]
  cases command world <;> rfl

theorem after_under (command : Command α) (lead : String) (world : World) :
    (command.under lead).after world = command.after world := by
  rw [after, after, under]
  cases command world <;> rfl

theorem Spares.caught {command : Command α} (spares : command.Spares store) : command.caught.Spares store := by
  intro world
  rw [after_caught]
  exact spares world

theorem Spares.under {command : Command α} (spares : command.Spares store) (lead : String) :
    (command.under lead).Spares store := by
  intro world
  rw [after_under]
  exact spares world

end Command

section
variable {libraries : Libraries} {primitives : Primitives} {order : HashOrder} {store : String}

theorem World.afterRead_sameStore (path : String) (world : World) : SameStore store world (world.afterRead path) := by
  rw [World.afterRead]
  split
  · exact ⟨rfl, rfl⟩
  · exact .refl store world

theorem spares_load {α : Type} (parse : String → String → Except String α) (path : String) :
    (readInputText path >>= fun input => Command.of (parse input.2 input.1)).Spares store :=
  Command.spares_of_eq _ _ (load_eq parse path) (World.afterRead_sameStore path)

theorem loadProof_spares (path : String) : (loadProof libraries path).Spares store :=
  spares_load (proofOfText libraries) path

theorem loadProofBytesRaw_spares (path : String) : (loadProofBytesRaw libraries path).Spares store :=
  spares_load (rawOfText libraries) path

theorem readInputFile_spares (path : String) : (readInputFile path).Spares store :=
  Command.spares_of_eq (fun world => fileText path (world.files path)) id (fun _ => rfl) (SameStore.refl store)

theorem loadStatus_spares (path : String) : (loadStatus libraries primitives path).Spares store :=
  spares_load (statusOfText libraries primitives path) path

theorem loadStatuses_spares (paths : List String) : (loadStatuses libraries primitives paths).Spares store := by
  induction paths with
  | nil => exact Command.spares_pure []
  | cons path paths inductionHypothesis =>
    refine (loadStatus_spares path).bind fun status => ?_
    exact inductionHypothesis.bind fun statuses => Command.spares_pure _

theorem loadableStatuses_spares (paths : List String) : (loadableStatuses libraries primitives paths).Spares store := by
  induction paths with
  | nil => exact Command.spares_pure []
  | cons path paths inductionHypothesis =>
    refine (loadStatus_spares path).caught.bind fun status => inductionHypothesis.bind fun statuses => ?_
    cases status with
    | ok status => exact Command.spares_pure _
    | error message => exact Command.spares_pure _

theorem emitReport_spares (report : VerifyReport) {out : Option String} (elsewhere : out ≠ some store) :
    (emitReport libraries report out).Spares store := by
  cases out with
  | none => exact Command.spares_pure ()
  | some path =>
    rw [emitReport]
    split
    · exact Command.spares_pure ()
    · have apart : store ≠ path := fun same => elsewhere (same ▸ rfl)
      intro world
      rw [Command.after, writeFile]
      cases world.writeError path with
      | some failure => exact .refl store world
      | none => exact ⟨Function.update_of_ne apart _ world.files, rfl⟩

theorem finish_spares {cli : Cli} (exit : ExitCode) (report : VerifyReport) (elsewhere : cli.opt "out" ≠ some store) :
    (finish libraries cli exit report).Spares store :=
  (emitReport_spares report elsewhere).bind fun _ => Command.spares_pure _

theorem verifyUnloaded_spares {cli : Cli} {inputs : CommonInputs} {policy : VerifierPolicy} (path message : String)
    (elsewhere : cli.opt "out" ≠ some store) :
    (verifyUnloaded libraries primitives order cli inputs policy path message).Spares store := by
  rw [verifyUnloaded]
  split
  · exact finish_spares _ _ elsewhere
  · split
    · exact finish_spares _ _ elsewhere
    · split
      · exact Command.spares_throw message
      · refine (loadProofBytesRaw_spares path).caught.bind fun raw => ?_
        cases raw with
        | error reason => exact Command.spares_throw message
        | ok raw =>
          refine (loadableStatuses_spares (cli.many "status")).bind fun statuses => ?_
          split
          · exact finish_spares _ _ elsewhere
          · exact finish_spares _ _ elsewhere

/-! ## Acceptances of the commands -/

/-- A proof whose report says valid is named by its members. -/
theorem isFullProofId_of_valid {ctx : VerifyCtx} {bytes : Bytes} {proof : Proof} {report : VerifyReport}
    (read : (decodeStrict bytes ctx.limits >>= cborToProof ctx.limits) = .ok proof)
    (verified : verifyProof primitives order ctx bytes = .ok report) (valid : report.cryptographicValidity = .valid) :
    IsFullProofId primitives proof.proofId ∧ report.proofId = some proof.proofId := by
  obtain ⟨value, eventIds, recomputed, graph, stages⟩ := stagesRan_of_read read verified
  have named := stages.named
  rw [recomputedProofId_eq primitives (cborToProof_versions stages.parsed), Except.ok.injEq,
    (stages.cryptoValid_iff.mp valid).1] at named
  exact ⟨⟨_, _, _, _, _, _, _, _, named.symm⟩, stages.proofId_eq⟩

/-- A command comes to the gate with a proof that verified, and its exit is the gate's answer. -/
def Gated (libraries : Libraries) (primitives : Primitives) (store context : String) (world after : World)
    (exit : ExitCode) (report : VerifyReport) : Prop :=
  ∃ (next : Acceptance primitives) (replayed : Bool) (middle : World), next.context = context ∧
    report.proofId = some next.proofId ∧ report.cryptographicValidity = .valid ∧ SameStore store world middle ∧
    gate libraries (next.request store) next.proofId middle = .ok replayed after ∧
    exit = if replayed then .fail else .ok

theorem exit_eq_fail {exit : ExitCode} (refused : exit ≠ .ok) : exit = .fail := by
  cases exit with
  | ok => exact absurd rfl refused
  | fail => rfl

/-- The proof of the command line does not load. -/
def Unloaded (libraries : Libraries) (cli : Cli) (world : World) : Prop :=
  ∃ path message after, cli.proofPath = .ok path ∧ loadProof libraries path world = .error message after

variable {cli : Cli} {context : String} {world after : World}

/-- A proof that was read comes to the gate when it is accepted, and only then. -/
theorem verifyLoaded_gated {inputs : CommonInputs} {policy : VerifierPolicy} {loaded : LoadedProof}
    {outcome : VerifyOutcome}
    (readIs : (decodeStrict loaded.canonical Limits.default >>= cborToProof Limits.default) = .ok loaded.proof)
    (elsewhere : cli.opt "out" ≠ some store)
    (done : verifyLoaded libraries primitives order cli inputs policy (some { store, context, record := true }) loaded
      world = .ok outcome after) :
    (SameStore store world after ∧ outcome.exit = .fail) ∨
      Gated libraries primitives store context world after outcome.exit outcome.report := by
  obtain ⟨statuses, first, statusesLoaded, done⟩ := Command.bind_eq_ok.mp done
  have before : SameStore store world first := (loadStatuses_spares _).of_ok statusesLoaded
  cases verified : verifyProof primitives order (buildCtx cli inputs policy statuses) loaded.canonical with
  | error failure =>
    simp only [verified] at done
    exact absurd done Command.throw_ne_ok
  | ok report =>
    simp only [verified] at done
    obtain ⟨_, written, emitted, done⟩ := Command.bind_eq_ok.mp done
    have middle := before.trans ((emitReport_spares report elsewhere).of_ok emitted)
    split at done
    · obtain ⟨rfl, rfl⟩ := Command.pure_eq_ok.mp done
      exact .inl ⟨middle, rfl⟩
    · split at done
      · rename_i refused
        obtain ⟨rfl, rfl⟩ := Command.pure_eq_ok.mp done
        exact .inl ⟨middle, exit_eq_fail refused⟩
      · rename_i accepted
        obtain ⟨replayed, last, answered, done⟩ := Command.bind_eq_ok.mp done
        obtain ⟨rfl, rfl⟩ := Command.pure_eq_ok.mp done
        have valid := (verdictExit_eq_ok.mp (not_not.mp accepted)).1
        obtain ⟨formed, named⟩ := isFullProofId_of_valid readIs verified valid
        exact .inr ⟨⟨context, loaded.proof.proofId, formed⟩, replayed, written, rfl, named, valid, middle, answered,
          rfl⟩

/-- What was read before the gate left the store alone. -/
theorem Gated.earlier {middle : World} {exit : ExitCode} {report : VerifyReport} (same : SameStore store world middle)
    (gated : Gated libraries primitives store context middle after exit report) :
    Gated libraries primitives store context world after exit report := by
  obtain ⟨acceptance, replayed, written, inContext, named, valid, kept, answered, exitIs⟩ := gated
  exact ⟨acceptance, replayed, written, inContext, named, valid, same.trans kept, answered, exitIs⟩

/-- `verify` comes to no gate with a proof that it does not accept, and with one that does not load. -/
theorem verify_gated {outcome : VerifyOutcome}
    (asked : seenRequest cli = .ok (some { store, context, record := true }))
    (elsewhere : cli.opt "out" ≠ some store)
    (done : verify libraries primitives order cli world = .ok outcome after) :
    (SameStore store world after ∧ (outcome.exit = .fail ∨ Unloaded libraries cli world)) ∨
      Gated libraries primitives store context world after outcome.exit outcome.report := by
  obtain ⟨inputs, first, read, done⟩ := Command.bind_eq_ok.mp done
  obtain ⟨_, rfl⟩ := Command.of_eq_ok.mp read
  obtain ⟨policy, second, read, done⟩ := Command.bind_eq_ok.mp done
  obtain ⟨_, rfl⟩ := Command.of_eq_ok.mp read
  obtain ⟨seen, third, read, done⟩ := Command.bind_eq_ok.mp done
  obtain ⟨found, rfl⟩ := Command.of_eq_ok.mp read
  rw [asked] at found
  cases found
  obtain ⟨path, fourth, read, done⟩ := Command.bind_eq_ok.mp done
  obtain ⟨pathIs, rfl⟩ := Command.of_eq_ok.mp read
  obtain ⟨loaded, fifth, tried, done⟩ := Command.bind_eq_ok.mp done
  have loading : SameStore store world fifth := (loadProof_spares path).caught.of_ok tried
  cases loaded with
  | error message =>
    rcases Command.caught_eq_ok.mp tried with ⟨_, same, _⟩ | ⟨_, _, refused⟩
    · cases same
    · exact .inl ⟨loading.trans ((verifyUnloaded_spares path message elsewhere).of_ok done),
        .inr ⟨path, _, fifth, pathIs, refused⟩⟩
  | ok loaded =>
    rcases Command.caught_eq_ok.mp tried with ⟨_, same, loadedIs⟩ | ⟨_, same, _⟩
    · cases same
      rcases verifyLoaded_gated (read_of_loadProof loadedIs) elsewhere done with ⟨kept, failed⟩ | gated
      · exact .inl ⟨loading.trans kept, .inl failed⟩
      · exact .inr (Gated.earlier loading gated)
    · cases same

theorem evaluateRequest_eq_ok {request : EvaluateRequest}
    (done : evaluateRequest libraries primitives cli world = .ok request after) :
    seenRequest cli = .ok request.seen ∧ SameStore store world after ∧
      (decodeStrict request.loaded.canonical Limits.default >>= cborToProof Limits.default) =
        .ok request.loaded.proof := by
  obtain ⟨path, first, read, done⟩ := Command.bind_eq_ok.mp done
  obtain ⟨_, rfl⟩ := Command.of_eq_ok.mp read
  obtain ⟨loaded, second, loadedIs, done⟩ := Command.bind_eq_ok.mp done
  obtain ⟨inputs, third, read, done⟩ := Command.bind_eq_ok.mp done
  obtain ⟨_, rfl⟩ := Command.of_eq_ok.mp read
  obtain ⟨seen, fourth, read, done⟩ := Command.bind_eq_ok.mp done
  obtain ⟨asked, rfl⟩ := Command.of_eq_ok.mp read
  obtain ⟨policyPath, fifth, read, done⟩ := Command.bind_eq_ok.mp done
  obtain ⟨_, rfl⟩ := Command.of_eq_ok.mp read
  obtain ⟨text, sixth, textRead, done⟩ := Command.bind_eq_ok.mp done
  obtain ⟨policy, seventh, read, done⟩ := Command.bind_eq_ok.mp done
  obtain ⟨_, rfl⟩ := Command.of_eq_ok.mp read
  obtain ⟨statuses, eighth, statusesLoaded, done⟩ := Command.bind_eq_ok.mp done
  obtain ⟨verifier, ninth, read, done⟩ := Command.bind_eq_ok.mp done
  obtain ⟨_, rfl⟩ := Command.of_eq_ok.mp read
  obtain ⟨rfl, rfl⟩ := Command.pure_eq_ok.mp done
  have loading : SameStore store _ second := (loadProof_spares path).of_ok loadedIs
  have policyRead : SameStore store second sixth :=
    ((readInputFile_spares policyPath).under "read policy: ").of_ok textRead
  have statusesRead : SameStore store sixth _ := (loadStatuses_spares (cli.many "status")).of_ok statusesLoaded
  exact ⟨asked, (loading.trans policyRead).trans statusesRead, read_of_loadProof loadedIs⟩

/-- A PASS is a decision on a valid proof. -/
theorem evaluated_pass {request : EvaluateRequest} {report : VerifyReport} {decided : PolicyOutcome}
    (done : evaluated primitives order cli request = .ok (report, decided)) (passed : decided.decision = .pass) :
    verifyProof primitives order (buildCtx cli request.inputs request.verifier request.statuses)
        request.loaded.canonical = .ok report ∧ report.cryptographicValidity = .valid := by
  rw [evaluated] at done
  split at done
  · cases done
  · rename_i verdict verified
    split at done
    · cases done
    · rename_i state projected
      split at done
      · cases done
      · rename_i outcome decision
        cases done
        have valid := (evaluatePolicy_decided decision (by rw [passed]; decide)).1
        rw [(stateFromReportAndProof_copies projected).1, decide_eq_true_eq] at valid
        exact ⟨verified, valid⟩

theorem evaluate_gated {outcome : EvaluateOutcome}
    (asked : seenRequest cli = .ok (some { store, context, record := true }))
    (elsewhere : cli.opt "out" ≠ some store)
    (done : evaluate libraries primitives order cli world = .ok outcome after) :
    (SameStore store world after ∧ outcome.exit = .fail) ∨
      Gated libraries primitives store context world after outcome.exit outcome.report := by
  obtain ⟨request, first, gathered, done⟩ := Command.bind_eq_ok.mp done
  obtain ⟨seen, before, readIs⟩ := evaluateRequest_eq_ok gathered
  obtain ⟨⟨report, decided⟩, second, read, done⟩ := Command.bind_eq_ok.mp done
  obtain ⟨ran, rfl⟩ := Command.of_eq_ok.mp read
  obtain ⟨_, written, emitted, done⟩ := Command.bind_eq_ok.mp done
  have middle := before.trans ((emitReport_spares report elsewhere).of_ok emitted)
  split at done
  · obtain ⟨rfl, rfl⟩ := Command.pure_eq_ok.mp done
    exact .inl ⟨middle, rfl⟩
  · split at done
    · obtain ⟨rfl, rfl⟩ := Command.pure_eq_ok.mp done
      exact .inl ⟨middle, rfl⟩
    · rename_i passed
      rw [← Except.ok.inj (asked.symm.trans seen)] at done
      obtain ⟨replayed, last, answered, done⟩ := Command.bind_eq_ok.mp done
      obtain ⟨rfl, rfl⟩ := Command.pure_eq_ok.mp done
      obtain ⟨verified, valid⟩ := evaluated_pass ran (not_not.mp passed)
      obtain ⟨formed, named⟩ := isFullProofId_of_valid readIs verified valid
      exact .inr ⟨⟨context, request.loaded.proof.proofId, formed⟩, replayed, written, rfl, named, valid, middle,
        answered, rfl⟩

end

/-! ## Runs -/

/-- A run on one store: the acceptances that came to the gate, each with its answer, and the world they leave.  Between
    them anything may happen that leaves the store alone. -/
inductive ReplayRun (libraries : Libraries) (primitives : Primitives) (store : String) (start : World) :
    List (Acceptance primitives × Bool) → World → Prop where
  | start : ReplayRun libraries primitives store start [] start
  | accept {history : List (Acceptance primitives × Bool)} {world after : World} {next : Acceptance primitives}
      {replayed : Bool} (run : ReplayRun libraries primitives store start history world)
      (answered : gate libraries (next.request store) next.proofId world = .ok replayed after) :
      ReplayRun libraries primitives store start (history ++ [(next, replayed)]) after
  | elsewhere {history : List (Acceptance primitives × Bool)} {world after : World}
      (run : ReplayRun libraries primitives store start history world) (same : SameStore store world after) :
      ReplayRun libraries primitives store start history after

/-- Every answer says whether the acceptance is a repeated one. -/
def Answered {primitives : Primitives} (history : List (Acceptance primitives × Bool)) : Prop :=
  ∀ earlier next replayed later, history = earlier ++ (next, replayed) :: later →
    (replayed = true ↔ next ∈ earlier.map Prod.fst)

section
variable {libraries : Libraries} {primitives : Primitives} {order : HashOrder} {store : String}
  {start world after : World} {history : List (Acceptance primitives × Bool)}

theorem Answered.snoc {next : Acceptance primitives} {replayed : Bool} (answered : Answered history)
    (last : replayed = true ↔ next ∈ history.map Prod.fst) : Answered (history ++ [(next, replayed)]) := by
  intro earlier other answer later split
  rcases List.eq_nil_or_concat later with rfl | ⟨between, final, rfl⟩
  · obtain ⟨rfl, same⟩ := List.append_inj' split rfl
    cases same
    exact last
  · rw [List.concat_eq_append, ← List.cons_append, ← List.append_assoc] at split
    exact answered earlier other answer between (List.append_inj_left' split rfl)

theorem StoreHolds.elsewhere {accepted : List (Acceptance primitives)}
    (holds : StoreHolds libraries store world accepted) (same : SameStore store world after) :
    StoreHolds libraries store after accepted := by
  obtain ⟨keys, loads, exact⟩ := holds.loads
  refine ⟨same.writeError.trans holds.writable, keys, ?_, exact⟩
  rw [loadSeen] at loads ⊢
  rw [same.file]
  exact Command.of_eq_ok.mpr ⟨(Command.of_eq_ok.mp loads).1, rfl⟩

/-- After any run the store holds what was accepted, and every answer was right. -/
theorem ReplayRun.holds (readsBack : ReadsBack libraries)
    (empty : StoreHolds libraries store start ([] : List (Acceptance primitives)))
    (run : ReplayRun libraries primitives store start history world) :
    StoreHolds libraries store world (history.map Prod.fst) ∧ Answered history := by
  induction run with
  | start => exact ⟨empty, by simp [Answered]⟩
  | accept run answered inductionHypothesis =>
    rename_i history world after next replayed
    obtain ⟨answer, left, given, right, holds⟩ := inductionHypothesis.1.gate readsBack next
    rw [given] at answered
    cases answered
    rw [List.map_append]
    exact ⟨holds, inductionHypothesis.2.snoc right⟩
  | elsewhere run same inductionHypothesis =>
    exact ⟨inductionHypothesis.1.elsewhere same, inductionHypothesis.2⟩

theorem storeHolds_missing {failure : FileError} (absent : start.files store = .error failure)
    (missing : failure.notFound = true) (writable : start.writeError store = none) :
    StoreHolds libraries store start ([] : List (Acceptance primitives)) :=
  ⟨writable, [], loadSeen_missing absent missing, by simp⟩

/-- A guarded command leaves the run as it was, and then there is this reason for it, or adds one acceptance and
    refuses it exactly if it is a repeated one. -/
def Continues (libraries : Libraries) (primitives : Primitives) (store : String) (start : World)
    (history : List (Acceptance primitives × Bool)) (skipped : Prop) (context : String) (exit : ExitCode)
    (report : VerifyReport) (after : World) : Prop :=
  skipped ∧ ReplayRun libraries primitives store start history after ∨
    ∃ next replayed, next.context = context ∧ report.proofId = some next.proofId ∧
      exit = (if replayed then .fail else .ok) ∧ (replayed = true ↔ next ∈ history.map Prod.fst) ∧
      ReplayRun libraries primitives store start (history ++ [(next, replayed)]) after

theorem ReplayRun.continues {skipped : Prop} {context : String} {exit : ExitCode} {report : VerifyReport}
    (readsBack : ReadsBack libraries) (empty : StoreHolds libraries store start ([] : List (Acceptance primitives)))
    (run : ReplayRun libraries primitives store start history world)
    (ends : (SameStore store world after ∧ skipped) ∨
      Gated libraries primitives store context world after exit report) :
    Continues libraries primitives store start history skipped context exit report after := by
  rcases ends with ⟨same, why⟩ | ⟨next, replayed, middle, contextIs, named, _, same, answered, exitIs⟩
  · exact .inl ⟨why, run.elsewhere same⟩
  · have longer := (run.elsewhere same).accept answered
    have right := (longer.holds readsBack empty).2 history next replayed [] rfl
    exact .inr ⟨next, replayed, contextIs, named, exitIs, right, longer⟩

end

/-- From a missing store on, the gate answers every acceptance that is to be recorded, and it reports a replay exactly
    for a pair of context and proof that has been accepted before, also as the last step of `verify` and `evaluate`.
    The commands go past the gate only when they refuse, and `verify` also with a proof that does not load.  Different
    pairs have different keys. -/
theorem replayGate_exact {libraries : Libraries} {primitives : Primitives} {store : String} {start world : World}
    {history : List (Acceptance primitives × Bool)} {failure : FileError} (readsBack : ReadsBack libraries)
    (absent : start.files store = .error failure) (missing : failure.notFound = true)
    (writable : start.writeError store = none)
    (run : ReplayRun libraries primitives store start history world) :
    Answered history ∧
      (∀ next : Acceptance primitives, ∃ replayed after,
        gate libraries (next.request store) next.proofId world = .ok replayed after ∧
          (replayed = true ↔ next ∈ history.map Prod.fst)) ∧
      (∀ order cli context, seenRequest cli = .ok (some { store, context, record := true }) →
        cli.opt "out" ≠ some store →
          (∀ outcome after, verify libraries primitives order cli world = .ok outcome after →
            Continues libraries primitives store start history (outcome.exit = .fail ∨ Unloaded libraries cli world)
              context outcome.exit outcome.report after) ∧
          ∀ outcome after, evaluate libraries primitives order cli world = .ok outcome after →
            Continues libraries primitives store start history (outcome.exit = .fail) context outcome.exit
              outcome.report after) ∧
      Function.Injective fun next : Acceptance primitives => next.key := by
  have empty : StoreHolds libraries store start ([] : List (Acceptance primitives)) :=
    storeHolds_missing absent missing writable
  obtain ⟨holds, answered⟩ := run.holds readsBack empty
  refine ⟨answered, ?_, ?_, Acceptance.key_injective⟩
  · intro next
    obtain ⟨replayed, after, given, right, _⟩ := holds.gate readsBack next
    exact ⟨replayed, after, given, right⟩
  · intro order cli context asked elsewhere
    constructor
    · intro outcome after done
      exact run.continues readsBack empty (verify_gated asked elsewhere done)
    · intro outcome after done
      exact run.continues readsBack empty (evaluate_gated asked elsewhere done)

/-! ## An order that is paid once -/

open QuotedText in
/-- The seen set as the library lays it out. -/
def seenText (keys : List String) : List Char :=
  match keys with
  | [] => document [("\x7b\n  ".toList, "seen")] ": []\n\x7d".toList
  | key :: keys =>
    document
      (("\x7b\n  ".toList, "seen") :: (": [\n    ".toList, key) :: keys.map fun key => (",\n    ".toList, key))
      "\n  ]\n\x7d".toList

/-- A library that writes and reads seen sets. -/
def seenLibraries : Libraries where
  fromStr text :=
    match QuotedText.quotedTexts (text.toList.length + 1) text.toList with
    | some ("seen" :: keys) => .ok (.object [("seen", texts keys)])
    | _ => .error "expected value at line 1 column 1"
  fromStr_empty := ⟨_, rfl⟩
  toStringPretty json :=
    match json.get "seen" with
    | some (.array items) => String.ofList (seenText (items.filterMap Json.asStr))
    | _ => "null"
  hexError _ := "Invalid character"

theorem quotedTexts_seenText (keys : List String) :
    QuotedText.quotedTexts ((seenText keys ++ ['\n']).length + 1) (seenText keys ++ ['\n']) =
      some ("seen" :: keys) := by
  have quiet : ∀ piece ∈ ["\x7b\n  ", ": [\n    ", ",\n    ", ": []\n\x7d\n", "\n  ]\n\x7d\n"],
      '"' ∉ piece.toList := by decide +kernel
  simp only [List.forall_mem_cons] at quiet
  obtain ⟨opening, first, next, nothing, closing, _⟩ := quiet
  cases keys with
  | nil =>
    have laid : seenText [] ++ ['\n'] =
        QuotedText.document [("\x7b\n  ".toList, "seen")] ": []\n\x7d\n".toList := by decide +kernel
    rw [laid, QuotedText.quotedTexts_of_document ?_ nothing]
    · rfl
    · rw [List.forall_mem_singleton]
      exact opening
  | cons key keys =>
    have laid : seenText (key :: keys) ++ ['\n'] =
        QuotedText.document
          (("\x7b\n  ".toList, "seen") :: (": [\n    ".toList, key) :: keys.map fun key => (",\n    ".toList, key))
          "\n  ]\n\x7d\n".toList := by
      rw [seenText, QuotedText.document, QuotedText.document, List.append_assoc]
      rfl
    rw [laid, QuotedText.quotedTexts_of_document ?_ closing]
    · simp [Function.comp_def]
    · simp only [List.forall_mem_cons, List.forall_mem_map]
      exact ⟨opening, first, fun _ _ => next⟩

theorem seenLibraries_readsBack : ReadsBack seenLibraries := by
  intro keys
  have strings : (keys.map Json.string).filterMap Json.asStr = keys := by
    rw [List.filterMap_map]
    exact List.filterMap_some
  have pretty : seenLibraries.toStringPretty (.object [("seen", texts keys)]) = String.ofList (seenText keys) :=
    congrArg (fun keys => String.ofList (seenText keys)) strings
  have chars : (String.ofList (seenText keys) ++ "\n").toList = seenText keys ++ ['\n'] := by simp
  rw [pretty]
  simp only [seenLibraries, chars, quotedTexts_seenText]

/-- The proof of the strict runs, accepted for one order. -/
def orderAcceptance (context : String) : Acceptance hintedPrimitives where
  context := context
  proofId := idWith hintedPrimitives IdKind.proof (encodeCanonical (bindingOf hintedPrimitives hintedProof))
  formed := ⟨_, _, _, _, _, _, _, _, rfl⟩

def freshWorld : World where
  files _ := .error { notFound := true, text := "No such file or directory (os error 2)" }
  writeError _ := none
  stdin := []

/-- The world after the first use of the proof. -/
def paidWorld : World :=
  { freshWorld with
    files := Function.update freshWorld.files "seen.json"
      (.ok (seenDocument seenLibraries (sortDedup utf8 [(orderAcceptance "order:1").key]))) }

theorem firstOrder_accepted :
    gate seenLibraries ((orderAcceptance "order:1").request "seen.json") (orderAcceptance "order:1").proofId
      freshWorld = .ok false paidWorld :=
  gate_fresh (loadSeen_missing rfl rfl) List.not_mem_nil rfl rfl

/-- The order is not paid again; another order may use the same proof. -/
theorem secondOrder_replayed :
    (∃ after, gate seenLibraries ((orderAcceptance "order:1").request "seen.json")
      (orderAcceptance "order:1").proofId paidWorld = .ok true after) ∧
    ∃ after, gate seenLibraries ((orderAcceptance "order:2").request "seen.json")
      (orderAcceptance "order:2").proofId paidWorld = .ok false after := by
  obtain ⟨_, answers, _⟩ :=
    replayGate_exact seenLibraries_readsBack rfl rfl rfl (ReplayRun.start.accept firstOrder_accepted)
  obtain ⟨replayed, after, given, right⟩ := answers (orderAcceptance "order:1")
  obtain ⟨otherReplayed, otherAfter, otherGiven, otherRight⟩ := answers (orderAcceptance "order:2")
  have repeated : replayed = true := right.mpr (List.mem_singleton.mpr rfl)
  have other : otherReplayed = false := by
    rw [← Bool.not_eq_true, otherRight]
    intro member
    have contexts := congrArg Acceptance.context (List.mem_singleton.mp member)
    exact absurd contexts (show "order:2" ≠ "order:1" by decide)
  exact ⟨⟨after, repeated ▸ given⟩, ⟨otherAfter, other ▸ otherGiven⟩⟩

end ProofEngine
