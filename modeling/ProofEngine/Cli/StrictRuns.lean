import ProofEngine.Cli.Acceptance

/-! # Runs of a strict verify

A run reads its proof once or twice.  A file gives the same text both times; standard input is used up as it is read,
and a second read that finds more of it verifies bytes the first one never saw. -/

namespace ProofEngine

open Text

/-! ## The two reads -/

/-- The text of what one read takes from standard input. -/
def stdinText (buffer : Bytes) : Except String String :=
  if maxInputFileBytes < buffer.length then .error "stdin: input too large"
  else
    match fromUtf8 buffer with
    | some text => .ok text
    | none => .error "stdin: invalid UTF-8"

/-- What a read of `path` finds. -/
def inputText (path : String) (world : World) : Except String String :=
  if path = "-" then stdinText (world.stdin.take (maxInputFileBytes + 1)) else fileText path (world.files path)

/-- The world after a read of `path`. -/
def World.afterRead (world : World) (path : String) : World :=
  if path = "-" then { world with stdin := world.stdin.drop (maxInputFileBytes + 1) } else world

theorem World.afterRead_file {world : World} {path : String} (file : path ≠ "-") : world.afterRead path = world :=
  if_neg file

theorem readStdinText_eq (world : World) :
    readStdinText world = Command.of (stdinText (world.stdin.take (maxInputFileBytes + 1))) (world.afterRead "-") := by
  simp only [readStdinText, stdinText, World.afterRead, if_true]
  split
  · rfl
  · cases fromUtf8 (world.stdin.take (maxInputFileBytes + 1)) <;> rfl

/-- A command that ends like a result, followed by pure work. -/
theorem Command.bind_of {α β : Type} {command : Command α} {result : Except String α} {world middle : World}
    (done : command world = Command.of result middle) (next : α → Except String β) :
    (command >>= fun value => Command.of (next value)) world = Command.of (result >>= next) middle := by
  change EStateM.bind command _ world = _
  cases result with
  | ok value => simp only [EStateM.bind, done, Command.of, ok_bind]
  | error message => simp only [EStateM.bind, done, Command.of, error_bind]

theorem readInputText_eq (path : String) (world : World) :
    readInputText path world =
      Command.of (inputText path world >>= fun text => .ok (text, wrapperLabel path)) (world.afterRead path) := by
  by_cases piped : path = "-"
  · subst piped
    exact Command.bind_of (readStdinText_eq world) fun text => .ok (text, wrapperLabel "-")
  · rw [World.afterRead_file piped, inputText, if_neg piped]
    rw [readInputText, if_neg piped]
    exact Command.bind_of (show readInputFile path world = _ from rfl) fun text => .ok (text, wrapperLabel path)

/-- A load reads the text and parses it under its label. -/
theorem load_eq {α : Type} (parse : String → String → Except String α) (path : String) (world : World) :
    (readInputText path >>= fun input => Command.of (parse input.2 input.1)) world =
      Command.of (inputText path world >>= parse (wrapperLabel path)) (world.afterRead path) := by
  rw [Command.bind_of (readInputText_eq path world) fun input => parse input.2 input.1]
  cases inputText path world <;> rfl

section
variable {libraries : Libraries}

theorem loadProof_eq (path : String) (world : World) :
    loadProof libraries path world =
      Command.of (inputText path world >>= proofOfText libraries (wrapperLabel path)) (world.afterRead path) :=
  load_eq (proofOfText libraries) path world

theorem loadProofBytesRaw_eq (path : String) (world : World) :
    loadProofBytesRaw libraries path world =
      Command.of (inputText path world >>= rawOfText libraries (wrapperLabel path)) (world.afterRead path) :=
  load_eq (rawOfText libraries) path world

theorem read_of_loaded {label text : String} {loaded : LoadedProof}
    (done : proofOfText libraries label text = .ok loaded) :
    (decodeStrict loaded.canonical Limits.default >>= cborToProof Limits.default) = .ok loaded.proof := by
  obtain ⟨json, _, done⟩ := bind_eq_ok.mp done
  obtain ⟨_, _, done⟩ := bind_eq_ok.mp done
  obtain ⟨_, _, done⟩ := bind_eq_ok.mp done
  obtain ⟨bytes, _, done⟩ := bind_eq_ok.mp done
  obtain ⟨value, decoded, done⟩ := bind_eq_ok.mp done
  obtain ⟨proof, parsed, done⟩ := bind_eq_ok.mp done
  obtain ⟨_, _, done⟩ := bind_eq_ok.mp done
  cases done
  exact bind_eq_ok.mpr ⟨value, labelled_eq_ok.mp decoded, labelled_eq_ok.mp parsed⟩

theorem read_of_loadProof {path : String} {loaded : LoadedProof} {world after : World}
    (done : loadProof libraries path world = .ok loaded after) :
    (decodeStrict loaded.canonical Limits.default >>= cborToProof Limits.default) = .ok loaded.proof := by
  rw [loadProof_eq] at done
  obtain ⟨text, _, parsed⟩ := bind_eq_ok.mp (Command.of_eq_ok.mp done).1
  exact read_of_loaded parsed

/-! ## Texts that do not load -/

/-- A message that says the wrapper lies or is misshapen. -/
def BlamesWrapper (message : String) : Prop :=
  contains message "envelope id mismatch" = true ∨ contains message "envelope kind mismatch" = true ∨
    contains message "wrapper has unknown field" = true ∨ contains message "wrapper must be a JSON object" = true ∨
    contains message "wrapper `kind` must be a string" = true

variable {label text message : String} {json : Json}

theorem rejectUnknownWrapperFields_blames {allowed : List String}
    (failed : rejectUnknownWrapperFields json label allowed = .error message) : BlamesWrapper message := by
  cases json with
  | object entries =>
    rw [rejectUnknownWrapperFields] at failed
    split at failed
    · cases failed
    · cases failed
      refine .inr (.inr (.inl ?_))
      simp only [String.append_assoc]
      exact contains_append_left _ (contains_append_right _ (by decide +kernel))
  | _ =>
    cases failed
    exact .inr (.inr (.inr (.inl (contains_append_left _ (by decide +kernel)))))

theorem checkKind_blames (failed : checkKind label json = .error message) : BlamesWrapper message := by
  rw [checkKind] at failed
  split at failed
  · cases failed
  · split at failed
    · cases failed
      exact .inr (.inr (.inr (.inr (contains_append_left _ (by decide +kernel)))))
    · split at failed
      · cases failed
      · cases failed
        refine .inr (.inl ?_)
        simp only [String.append_assoc]
        exact contains_append_left _ (contains_append_right _ (by decide +kernel))

theorem checkClaimedId_blames {proof : Proof} (failed : checkClaimedId label json proof = .error message) :
    BlamesWrapper message := by
  rw [checkClaimedId] at failed
  split at failed
  · cases failed
  · split at failed
    · cases failed
    · cases failed
      refine .inl ?_
      simp only [String.append_assoc]
      exact contains_append_left _ (contains_append_right _ (by decide +kernel))

/-- A text that holds bytes but does not load, for no fault of the wrapper, holds bytes that are no proof. -/
theorem unread_of_unloaded {bytes : Bytes} (failed : proofOfText libraries label text = .error message)
    (raw : rawOfText libraries label text = .ok bytes) (blameless : ¬ BlamesWrapper message) (proof : Proof) :
    (decodeStrict bytes Limits.default >>= cborToProof Limits.default) ≠ .ok proof := by
  intro read
  obtain ⟨value, decoded, parsed⟩ := bind_eq_ok.mp read
  obtain ⟨json, document, wrapped⟩ := bind_eq_ok.mp raw
  simp only [proofOfText, document, wrapped, decoded, parsed, labelled, ok_bind] at failed
  cases fields : rejectUnknownWrapperFields json label proofWrapperAllowed with
  | error reason =>
    simp only [fields, error_bind, Except.error.injEq] at failed
    exact blameless (failed ▸ rejectUnknownWrapperFields_blames fields)
  | ok _ =>
    cases kind : checkKind label json with
    | error reason =>
      simp only [fields, kind, ok_bind, error_bind, Except.error.injEq] at failed
      exact blameless (failed ▸ checkKind_blames kind)
    | ok _ =>
      cases claimed : checkClaimedId label json proof with
      | error reason =>
        simp only [fields, kind, claimed, ok_bind, error_bind, Except.error.injEq] at failed
        exact blameless (failed ▸ checkClaimedId_blames claimed)
      | ok _ => simp [fields, kind, claimed] at failed

/-- The bytes of a loaded proof are the ones in the wrapper. -/
theorem rawOfText_of_loaded {loaded : LoadedProof} (done : proofOfText libraries label text = .ok loaded) :
    rawOfText libraries label text = .ok loaded.canonical := by
  obtain ⟨json, document, done⟩ := bind_eq_ok.mp done
  obtain ⟨_, _, done⟩ := bind_eq_ok.mp done
  obtain ⟨_, _, done⟩ := bind_eq_ok.mp done
  obtain ⟨bytes, wrapped, done⟩ := bind_eq_ok.mp done
  obtain ⟨_, _, done⟩ := bind_eq_ok.mp done
  obtain ⟨_, _, done⟩ := bind_eq_ok.mp done
  obtain ⟨_, _, done⟩ := bind_eq_ok.mp done
  cases done
  exact bind_eq_ok.mpr ⟨json, document, wrapped⟩

/-- There are no bytes in the empty text. -/
theorem rawOfText_empty {bytes : Bytes} : rawOfText libraries label "" ≠ .ok bytes := by
  intro done
  obtain ⟨json, document, _⟩ := bind_eq_ok.mp done
  obtain ⟨message, failed⟩ := libraries.fromStr_empty
  simp [parseJson, failed] at document

end

/-! ## The two paths of the command -/

section
variable {libraries : Libraries} {primitives : Primitives} {order : HashOrder} {cli : Cli} {inputs : CommonInputs}
  {policy : VerifierPolicy} {world after : World} {outcome : VerifyOutcome}

theorem finish_eq_ok {exit : ExitCode} {report : VerifyReport}
    (done : finish libraries cli exit report world = .ok outcome after) : outcome = { exit, report } := by
  obtain ⟨_, _, _, returned⟩ := Command.bind_eq_ok.mp done
  exact (Command.pure_eq_ok.mp returned).1.symm

/-- A proof that did not load is accepted only on a second read, and for the pipeline's verdict on what it finds. -/
theorem verifyUnloaded_accepts {path message : String}
    (done : verifyUnloaded libraries primitives order cli inputs policy path message world = .ok outcome after)
    (accepted : outcome.exit = .ok) :
    ¬ BlamesWrapper message ∧ ∃ raw middle statuses, loadProofBytesRaw libraries path world = .ok raw middle ∧
      verifyProof primitives order (buildCtx cli inputs policy statuses) raw = .ok outcome.report ∧
      verdictExit outcome.report = .ok := by
  rw [verifyUnloaded] at done
  split at done
  · rw [finish_eq_ok done] at accepted
    cases accepted
  · rename_i idMatches
    split at done
    · rw [finish_eq_ok done] at accepted
      cases accepted
    · rename_i kindMatches
      split at done
      · exact absurd done Command.throw_ne_ok
      · rename_i wellShaped
        simp only [Bool.or_eq_true, not_or] at wellShaped
        have blameless : ¬ BlamesWrapper message := by
          rintro (id | kind | field | object | text)
          · exact idMatches id
          · exact kindMatches kind
          · exact wellShaped.1.1 field
          · exact wellShaped.1.2 object
          · exact wellShaped.2 text
        obtain ⟨found, middle, reread, done⟩ := Command.bind_eq_ok.mp done
        rcases Command.caught_eq_ok.mp reread with ⟨raw, rfl, rawFound⟩ | ⟨_, rfl, _⟩
        · obtain ⟨statuses, later, _, done⟩ := Command.bind_eq_ok.mp done
          refine ⟨blameless, raw, middle, statuses, rawFound, ?_⟩
          cases verified : verifyProof primitives order (buildCtx cli inputs policy statuses) raw with
          | ok report =>
            simp only [verified] at done
            have same := finish_eq_ok done
            subst same
            exact ⟨rfl, accepted⟩
          | error failure =>
            simp only [verified] at done
            rw [finish_eq_ok done] at accepted
            cases accepted
        · exact absurd done Command.throw_ne_ok

/-- A loaded proof is accepted by a strict run only if its report passes the strict check. -/
theorem verifyLoaded_accepts {seen : Option SeenRequest} {loaded : LoadedProof}
    (strict : cli.has "production" = true ∨ cli.has "strict-current" = true)
    (done : verifyLoaded libraries primitives order cli inputs policy seen loaded world = .ok outcome after)
    (accepted : outcome.exit = .ok) :
    ∃ statuses later, loadStatuses libraries primitives (cli.many "status") world = .ok statuses later ∧
      verifyProof primitives order (buildCtx cli inputs policy statuses) loaded.canonical = .ok outcome.report ∧
      verdictExit outcome.report = .ok ∧ isCurrentlyAcceptable outcome.report = true := by
  obtain ⟨statuses, later, loadedStatuses, done⟩ := Command.bind_eq_ok.mp done
  refine ⟨statuses, later, loadedStatuses, ?_⟩
  cases verified : verifyProof primitives order (buildCtx cli inputs policy statuses) loaded.canonical with
  | error failure =>
    simp only [verified] at done
    exact absurd done Command.throw_ne_ok
  | ok report =>
    simp only [verified] at done
    obtain ⟨_, written, _, done⟩ := Command.bind_eq_ok.mp done
    have flagged : (cli.has "strict-current" || cli.has "production") = true := by
      rw [Bool.or_eq_true]
      exact strict.symm
    rw [flagged, Bool.true_and] at done
    split at done
    · obtain ⟨rfl, _⟩ := Command.pure_eq_ok.mp done
      cases accepted
    · rename_i acceptable
      split at done
      · rename_i invalid
        obtain ⟨rfl, _⟩ := Command.pure_eq_ok.mp done
        exact absurd accepted invalid
      · rename_i valid
        have reported : outcome.report = report := by
          split at done
          · obtain ⟨rfl, _⟩ := Command.pure_eq_ok.mp done
            rfl
          · obtain ⟨_, _, _, done⟩ := Command.bind_eq_ok.mp done
            obtain ⟨rfl, _⟩ := Command.pure_eq_ok.mp done
            rfl
        rw [reported]
        exact ⟨rfl, not_not.mp valid, by simpa using acceptable⟩

end

/-! ## Runs -/

/-- A run of the command, with the code outside the program. -/
structure VerifyRun where
  libraries : Libraries
  primitives : Primitives
  order : HashOrder
  cli : Cli
  world : World

namespace VerifyRun

def result (run : VerifyRun) : EStateM.Result String World VerifyOutcome :=
  verify run.libraries run.primitives run.order run.cli run.world

/-- Acceptance is asked for, not only history. -/
def Strict (run : VerifyRun) : Prop :=
  run.cli.has "production" = true ∨ run.cli.has "strict-current" = true

/-- What the pipeline is to be run on: the bytes in the proof input, under the flags, the clock and the status objects
    of the command line. -/
structure Reading (run : VerifyRun) where
  path : String
  path_eq : run.cli.proofPath = .ok path
  text : String
  text_eq : inputText path run.world = .ok text
  bytes : Bytes
  bytes_eq : rawOfText run.libraries (wrapperLabel path) text = .ok bytes
  inputs : CommonInputs
  inputs_eq : common run.cli = .ok inputs
  policy : VerifierPolicy
  policy_eq : verifierPolicy run.cli = .ok policy
  statuses : List SignedStatus
  later : World
  statuses_eq : loadStatuses run.libraries run.primitives (run.cli.many "status") (run.world.afterRead path) =
    .ok statuses later

def Reading.report {run : VerifyRun} (reading : run.Reading) : Except Failure VerifyReport :=
  verifyProof run.primitives run.order (buildCtx run.cli reading.inputs reading.policy reading.statuses) reading.bytes

/-- A strict run that ends well has reported on its proof, and the report is current. -/
def AcceptsOnlyCurrent (run : VerifyRun) : Prop :=
  ∀ outcome after, run.result = .ok outcome after → outcome.exit = .ok → run.Strict →
    ∃ reading : run.Reading, reading.report = .ok outcome.report ∧ outcome.report.Current

/-- Nothing of standard input is left for a second read. -/
def Exhausts (path : String) (stdin : Bytes) : Prop := path = "-" → stdin.length ≤ maxInputFileBytes + 1

/-- After a proof that did not load, the second read finds the same text, or none. -/
theorem inputText_again {path : String} {world : World} (exhausts : Exhausts path world.stdin) :
    inputText path (world.afterRead path) = inputText path world ∨ inputText path (world.afterRead path) = .ok "" := by
  by_cases piped : path = "-"
  · subst piped
    right
    have nothing : world.stdin.drop (maxInputFileBytes + 1) = [] := List.drop_eq_nil_of_le (exhausts rfl)
    simp only [inputText, World.afterRead, if_true, nothing, List.take_nil]
    decide +kernel
  · left
    rw [World.afterRead_file piped]

/-- A second read finds no proof where the first one found none. -/
theorem unread_again {libraries : Libraries} {path message : String} {world : World} {raw : Bytes}
    (exhausts : Exhausts path world.stdin)
    (failed : (inputText path world >>= proofOfText libraries (wrapperLabel path)) = .error message)
    (reread : (inputText path (world.afterRead path) >>= rawOfText libraries (wrapperLabel path)) = .ok raw)
    (blameless : ¬ BlamesWrapper message) (proof : Proof) :
    (decodeStrict raw Limits.default >>= cborToProof Limits.default) ≠ .ok proof := by
  obtain ⟨text, found, wrapped⟩ := bind_eq_ok.mp reread
  rcases inputText_again exhausts with same | nothing
  · rw [← same, found] at failed
    exact unread_of_unloaded failed wrapped blameless proof
  · have empty := Except.ok.inj (found.symm.trans nothing)
    subst empty
    exact absurd wrapped rawOfText_empty

/-- The steps of a run up to the load of the proof. -/
theorem result_eq_ok {run : VerifyRun} {path : String} {outcome : VerifyOutcome} {after : World}
    (reads : run.cli.proofPath = .ok path) (done : run.result = .ok outcome after) :
    ∃ inputs policy seen, common run.cli = .ok inputs ∧ verifierPolicy run.cli = .ok policy ∧
      ((∃ loaded, (inputText path run.world >>= proofOfText run.libraries (wrapperLabel path)) = .ok loaded ∧
          verifyLoaded run.libraries run.primitives run.order run.cli inputs policy seen loaded
            (run.world.afterRead path) = .ok outcome after) ∨
        ∃ message, (inputText path run.world >>= proofOfText run.libraries (wrapperLabel path)) = .error message ∧
          verifyUnloaded run.libraries run.primitives run.order run.cli inputs policy path message
            (run.world.afterRead path) = .ok outcome after) := by
  obtain ⟨inputs, _, inputsDone, done⟩ := Command.bind_eq_ok.mp done
  obtain ⟨inputsRead, rfl⟩ := Command.of_eq_ok.mp inputsDone
  obtain ⟨policy, _, policyDone, done⟩ := Command.bind_eq_ok.mp done
  obtain ⟨policyRead, rfl⟩ := Command.of_eq_ok.mp policyDone
  obtain ⟨seen, _, seenDone, done⟩ := Command.bind_eq_ok.mp done
  obtain ⟨_, rfl⟩ := Command.of_eq_ok.mp seenDone
  obtain ⟨found, _, pathDone, done⟩ := Command.bind_eq_ok.mp done
  obtain ⟨pathRead, rfl⟩ := Command.of_eq_ok.mp pathDone
  have samePath := Except.ok.inj (pathRead.symm.trans reads)
  subst samePath
  obtain ⟨loaded, middle, caught, done⟩ := Command.bind_eq_ok.mp done
  refine ⟨inputs, policy, seen, inputsRead, policyRead, ?_⟩
  simp only [Command.caught, loadProof_eq] at caught
  cases loading : inputText found run.world >>= proofOfText run.libraries (wrapperLabel found) with
  | ok proof =>
    simp only [loading, Command.of, EStateM.Result.ok.injEq] at caught
    obtain ⟨rfl, rfl⟩ := caught
    exact .inl ⟨proof, rfl, done⟩
  | error message =>
    simp only [loading, Command.of, EStateM.Result.ok.injEq] at caught
    obtain ⟨rfl, rfl⟩ := caught
    exact .inr ⟨message, rfl, done⟩

theorem acceptsOnlyCurrent_of_exhausts {run : VerifyRun} {path : String} (reads : run.cli.proofPath = .ok path)
    (exhausts : Exhausts path run.world.stdin) : run.AcceptsOnlyCurrent := by
  intro outcome after done accepted strict
  obtain ⟨inputs, policy, seen, inputsRead, policyRead, ⟨loaded, loading, done⟩ | ⟨message, failed, done⟩⟩ :=
    result_eq_ok reads done
  · obtain ⟨text, found, loading⟩ := bind_eq_ok.mp loading
    obtain ⟨statuses, later, statusesRead, verified, valid, acceptable⟩ := verifyLoaded_accepts strict done accepted
    let reading : run.Reading :=
      { path, path_eq := reads
        text, text_eq := found
        bytes := loaded.canonical, bytes_eq := rawOfText_of_loaded loading
        inputs, inputs_eq := inputsRead
        policy, policy_eq := policyRead
        statuses, later, statuses_eq := statusesRead }
    exact ⟨reading, verified, current_of_acceptable verified valid acceptable⟩
  · -- nothing that did not load is accepted
    obtain ⟨blameless, raw, _, statuses, reread, verified, valid⟩ := verifyUnloaded_accepts done accepted
    rw [loadProofBytesRaw_eq] at reread
    have unread := unread_again exhausts failed (Command.of_eq_ok.mp reread).1 blameless
    exact absurd valid (verdictExit_unread unread verified)

/-! ## Reading on -/

/-- An input over the cap: the second read goes on where the first one stopped. -/
theorem inputText_overlong {world : World} {first : Bytes} {text : String}
    (overlong : first.length = maxInputFileBytes + 1)
    (fits : (utf8 text).length ≤ maxInputFileBytes) (piped : world.stdin = first ++ utf8 text) :
    inputText "-" world = .error "stdin: input too large" ∧ inputText "-" (world.afterRead "-") = .ok text := by
  have rest : (utf8 text).take (maxInputFileBytes + 1) = utf8 text := List.take_of_length_le (by omega)
  constructor
  · rw [inputText, if_pos rfl, piped, List.take_left' overlong, stdinText, if_pos (by omega)]
  · rw [inputText, if_pos rfl, World.afterRead, if_pos rfl, piped, List.drop_left' overlong, rest, stdinText,
      if_neg (by omega), fromUtf8_utf8]

/-- The bytes found there are reported on and accepted for their verdict, in a strict run too. -/
theorem result_overlong {run : VerifyRun} {first bytes : Bytes} {text : String} {inputs : CommonInputs}
    {policy : VerifierPolicy} {seen : Option SeenRequest} {report : VerifyReport}
    (overlong : first.length = maxInputFileBytes + 1) (fits : (utf8 text).length ≤ maxInputFileBytes)
    (piped : run.world.stdin = first ++ utf8 text) (reads : run.cli.proofPath = .ok "-")
    (inputsRead : common run.cli = .ok inputs) (policyRead : verifierPolicy run.cli = .ok policy)
    (seenRead : seenRequest run.cli = .ok seen) (noStatus : run.cli.many "status" = [])
    (noOut : run.cli.opt "out" = none) (wrapped : rawOfText run.libraries "stdin" text = .ok bytes)
    (verified : verifyProof run.primitives run.order (buildCtx run.cli inputs policy []) bytes = .ok report) :
    ∃ after, run.result = .ok { exit := verdictExit report, report } after := by
  obtain ⟨refused, found⟩ := inputText_overlong overlong fits piped
  have loading : (loadProof run.libraries "-").caught run.world =
      .ok (.error "stdin: input too large") (run.world.afterRead "-") := by
    simp only [Command.caught, loadProof_eq, refused, error_bind, Command.of]
  have rereading : (loadProofBytesRaw run.libraries "-").caught (run.world.afterRead "-") =
      .ok (.ok bytes) ((run.world.afterRead "-").afterRead "-") := by
    simp only [Command.caught, loadProofBytesRaw_eq, found, ok_bind, wrapperLabel, if_true, wrapped, Command.of]
  refine ⟨(run.world.afterRead "-").afterRead "-", ?_⟩
  rw [result, verify]
  rw [Command.bind_ok (Command.of_eq_ok.mpr ⟨inputsRead, rfl⟩),
    Command.bind_ok (Command.of_eq_ok.mpr ⟨policyRead, rfl⟩),
    Command.bind_ok (Command.of_eq_ok.mpr ⟨seenRead, rfl⟩), Command.bind_ok (Command.of_eq_ok.mpr ⟨reads, rfl⟩),
    Command.bind_ok loading]
  simp only
  rw [verifyUnloaded, if_neg (by decide +kernel), if_neg (by decide +kernel), if_neg (by decide +kernel),
    Command.bind_ok rereading]
  simp only [noStatus]
  rw [loadableStatuses, Command.bind_ok (Command.pure_eq_ok.mpr ⟨rfl, rfl⟩)]
  simp only [verified, finish, noOut]
  rfl

/-- A run that reads `path` first, and finds there what is at the front of `stdin` if it is the standard input, with
    more to come or not. -/
structure Reads (run : VerifyRun) (path : String) (stdin : Bytes) : Prop where
  path : run.cli.proofPath = .ok path
  first : run.world.stdin.take (maxInputFileBytes + 1) = stdin.take (maxInputFileBytes + 1)
  more : maxInputFileBytes + 1 < run.world.stdin.length ↔ maxInputFileBytes + 1 < stdin.length

end VerifyRun

/-! ## A hint after an overlong input -/

/-- Evidence that names an attestation no one has seen. -/
def hintedItem : Evidence where
  v := 1
  kind := "document"
  digest := { v := 1, alg := .sha256, digest := List.replicate 32 1 }
  attestationRef := some "att:v1:AAAAAAAAAAAAAAAAAAAAAAAAAAAAAAAAAAAAAAAAAAA"
  hint := none

def hintedItemDigest : Bytes :=
  [0x0e, 0xef, 0xca, 0x41, 0xa7, 0xeb, 0x69, 0xe8, 0x8f, 0x34, 0xd9, 0xe8, 0x0f, 0xf0, 0x32, 0xdd,
   0xff, 0x62, 0x86, 0x94, 0x27, 0x5d, 0xc5, 0x0a, 0x27, 0xf4, 0x19, 0x19, 0xe3, 0xb3, 0x98, 0xdb]

def hintedTable : List (Bytes × Bytes) := [(encodeCanonical (evidenceToCbor hintedItem), hintedItemDigest)]

def hintedProof : Proof :=
  { bareProof with
    proofId := "prf:v1:rzH_w1T_96qfaI_437ks1JAc5Dk5OHbX2p_gFIF-qmE"
    evidence := [hintedItem] }

def hintedDigest : Bytes :=
  [0xaf, 0x31, 0xff, 0xc3, 0x54, 0xff, 0xf7, 0xaa, 0x9f, 0x68, 0x8f, 0xf8, 0xdf, 0xb9, 0x2c, 0xd4,
   0x90, 0x1c, 0xe4, 0x39, 0x39, 0x38, 0x76, 0xd7, 0xda, 0x9f, 0xe0, 0x14, 0x81, 0x7e, 0xaa, 0x61]

def hintedPrimitives : Primitives :=
  Primitives.ofTable (hintedTable ++
    [(encodeCanonical (bindingOf (Primitives.ofTable hintedTable []) hintedProof), hintedDigest)]) []

def hintedBytes : Bytes := ((proofToCbor hintedProof).toOption.map encodeCanonical).getD []

/-- The wrapper of the proof, as one line of JSON. -/
def hintedText : String := "\x7b\"cbor\":\"" ++ Hex.encode hintedBytes ++ "\"\x7d"

theorem len_hintedText : 0 < len hintedText ∧ len hintedText ≤ maxInputFileBytes := by
  have front : len "\x7b\"cbor\":\"" = 9 := by decide +kernel
  have back : len "\"\x7d" = 2 := by decide +kernel
  have chars : (hintedBytes.flatMap Hex.encodeByte).length < 2 ^ 16 := by decide +kernel
  have middle := len_ofList_le (hintedBytes.flatMap Hex.encodeByte)
  rw [hintedText, len_append, len_append, front, back, Hex.encode, maxInputFileBytes]
  omega

theorem hintedText_ne_empty : "" ≠ hintedText := by
  intro empty
  have positive := len_hintedText.1
  rw [← empty] at positive
  exact absurd positive (by decide)

/-- Libraries that know one document. -/
def Libraries.ofDocument (document : String) (json : Json) (nonempty : "" ≠ document) : Libraries where
  fromStr text := if text = document then .ok json else .error "expected value at line 1 column 1"
  fromStr_empty := ⟨_, if_neg nonempty⟩
  toStringPretty _ := ""
  hexError _ := "Invalid character"

/-- The bytes are found in a document that is a wrapper of them. -/
theorem rawOfText_ofDocument (label document : String) (bytes : Bytes) (nonempty : "" ≠ document) :
    rawOfText (.ofDocument document (.object [("cbor", .string (Hex.encode bytes))]) nonempty) label document =
      .ok bytes := by
  simp [rawOfText, parseJson, Libraries.ofDocument, wrappedBytes, Json.strField, Json.get, Json.asStr]

def hintedLibraries : Libraries :=
  .ofDocument hintedText (.object [("cbor", .string (Hex.encode hintedBytes))]) hintedText_ne_empty

def productionFlags : Cli where
  values := [("proof", "-"), ("clock", "1700000100")]
  flags := ["production"]

/-- A production run on a standard input that goes on after `first`. -/
def rereadRun (first : Bytes) : VerifyRun where
  libraries := hintedLibraries
  primitives := hintedPrimitives
  order := .inserted
  cli := productionFlags
  world :=
    { files := fun _ => .error { notFound := true, text := "No such file or directory (os error 2)" }
      writeError := fun _ => none
      stdin := first ++ utf8 hintedText }

/-- The hint leaves both verdicts valid and the evidence unknown. -/
theorem hintedProof_reported : ∃ inputs policy report, common productionFlags = .ok inputs ∧
    verifierPolicy productionFlags = .ok policy ∧
    verifyProof hintedPrimitives .inserted (buildCtx productionFlags inputs policy []) hintedBytes = .ok report ∧
    verdictExit report = .ok ∧ report.evidenceStatus.map EvidenceStatusRecord.status = [.unknown] := by
  obtain ⟨inputs, inputsRead⟩ := exists_of_isOk (show (common productionFlags).isOk = true by decide +kernel)
  obtain ⟨policy, policyRead⟩ := exists_of_isOk (show (verifierPolicy productionFlags).isOk = true by decide +kernel)
  have computed : (do
      let inputs ← common productionFlags
      let policy ← verifierPolicy productionFlags
      pure ((verifyProof hintedPrimitives .inserted (buildCtx productionFlags inputs policy []) hintedBytes).map
        fun report => (verdictExit report, report.evidenceStatus.map EvidenceStatusRecord.status))) =
      .ok (.ok (.ok, [.unknown])) := by
    decide +kernel
  rw [inputsRead, policyRead] at computed
  obtain ⟨report, verified, outcome⟩ := map_eq_ok.mp (Except.ok.inj computed)
  obtain ⟨accepted, statuses⟩ := Prod.mk.inj outcome
  exact ⟨inputs, policy, report, inputsRead, policyRead, verified, accepted, statuses⟩

theorem rereadRun_accepts {first : Bytes} (overlong : first.length = maxInputFileBytes + 1) :
    ∃ outcome after, (rereadRun first).result = .ok outcome after ∧ outcome.exit = .ok ∧
      outcome.report.evidenceStatus.map EvidenceStatusRecord.status = [.unknown] := by
  obtain ⟨inputs, policy, report, inputsRead, policyRead, verified, accepted, statuses⟩ := hintedProof_reported
  have run : ∃ after, (rereadRun first).result = .ok { exit := verdictExit report, report } after :=
    VerifyRun.result_overlong overlong len_hintedText.2 rfl rfl inputsRead policyRead rfl rfl rfl
      (rawOfText_ofDocument _ _ _ hintedText_ne_empty) verified
  obtain ⟨after, done⟩ := run
  exact ⟨_, after, done, accepted, statuses⟩

theorem rereadRun_breaks {first : Bytes} (overlong : first.length = maxInputFileBytes + 1) :
    ¬ (rereadRun first).AcceptsOnlyCurrent := by
  intro current
  obtain ⟨outcome, after, done, accepted, statuses⟩ := rereadRun_accepts overlong
  obtain ⟨_, _, report⟩ := current outcome after done accepted (.inl rfl)
  obtain ⟨record, member, status⟩ := List.mem_map.mp (statuses ▸ List.mem_singleton_self EvidenceStatus.unknown)
  rw [report.available record member] at status
  cases status

/-- Strict runs accept only current proofs wherever nothing is left for a second read, and only there. -/
theorem strictRuns_current_iff (path : String) (stdin : Bytes) :
    (∀ run : VerifyRun, run.Reads path stdin → run.AcceptsOnlyCurrent) ↔
      (path = "-" → stdin.length ≤ maxInputFileBytes + 1) := by
  constructor
  · intro current piped
    subst piped
    by_contra more
    have overlong : (stdin.take (maxInputFileBytes + 1)).length = maxInputFileBytes + 1 :=
      List.length_take_of_le (by omega)
    have reads : (rereadRun (stdin.take (maxInputFileBytes + 1))).Reads "-" stdin := by
      refine ⟨rfl, List.take_left' overlong, ?_⟩
      have text : 0 < (utf8 hintedText).length := len_hintedText.1
      simp only [rereadRun, List.length_append, overlong]
      omega
    exact rereadRun_breaks overlong (current _ reads)
  · intro exhausts run reads
    refine VerifyRun.acceptsOnlyCurrent_of_exhausts reads.path fun piped => ?_
    have bounded := exhausts piped
    have more := reads.more
    omega

/-- A production run accepts a proof whose evidence rests on an unseen attestation, after 8 MiB and a byte of blanks. -/
theorem overlongInput_accepted :
    (rereadRun (List.replicate (maxInputFileBytes + 1) 0x20)).Strict ∧
      (∃ outcome after, (rereadRun (List.replicate (maxInputFileBytes + 1) 0x20)).result = .ok outcome after ∧
        outcome.exit = .ok ∧ outcome.report.evidenceStatus.map EvidenceStatusRecord.status = [.unknown]) ∧
      ¬ (rereadRun (List.replicate (maxInputFileBytes + 1) 0x20)).AcceptsOnlyCurrent :=
  ⟨.inl rfl, rereadRun_accepts List.length_replicate, rereadRun_breaks List.length_replicate⟩

end ProofEngine
