import ProofEngine.Cli.Args
import ProofEngine.Core.Json
import ProofEngine.Lib.Hex
import ProofEngine.Lib.StableSort

/-! # Files and wrappers

A command runs in a world of files and a standard input that is read once: what a read takes from it is gone, also
when the read is refused.  Proofs and status objects come in JSON wrappers with a closed set of fields. -/

namespace ProofEngine

open Text StableSort

/-! ## The world -/

/-- Why a file cannot be read. -/
structure FileError where
  notFound : Bool
  text : String
  deriving DecidableEq, Repr

structure World where
  files : String → Except FileError Bytes
  /-- Why a file cannot be written, if it cannot. -/
  writeError : String → Option String
  /-- What is left of standard input. -/
  stdin : Bytes

/-- A command; a failed one leaves the world as far as it got. -/
abbrev Command := EStateM String World

namespace Command

def of {α : Type} (result : Except String α) : Command α :=
  fun world =>
    match result with
    | .ok value => .ok value world
    | .error message => .error message world

/-- The outcome of a command as a value. -/
def caught {α : Type} (command : Command α) : Command (Except String α) :=
  fun world =>
    match command world with
    | .ok value after => .ok (.ok value) after
    | .error message after => .ok (.error message) after

theorem bind_eq_ok {α β : Type} {command : Command α} {next : α → Command β} {world after : World} {result : β} :
    (command >>= next) world = .ok result after ↔
      ∃ value middle, command world = .ok value middle ∧ next value middle = .ok result after := by
  change EStateM.bind command next world = _ ↔ _
  cases done : command world with
  | ok value middle => simp [EStateM.bind, done]
  | error message middle => simp [EStateM.bind, done]

theorem bind_ok {α β : Type} {command : Command α} {world middle : World} {value : α}
    (done : command world = .ok value middle) (next : α → Command β) :
    (command >>= next) world = next value middle := by
  change EStateM.bind command next world = _
  simp [EStateM.bind, done]

theorem of_eq_ok {α : Type} {result : Except String α} {world after : World} {value : α} :
    of result world = .ok value after ↔ result = .ok value ∧ world = after := by
  cases result with
  | ok found => simp [of]
  | error message => simp [of]

theorem pure_eq_ok {α : Type} {value result : α} {world after : World} :
    (pure value : Command α) world = .ok result after ↔ value = result ∧ world = after := by
  change EStateM.Result.ok value world = _ ↔ _
  simp

theorem throw_ne_ok {α : Type} {message : String} {world after : World} {result : α} :
    (throw message : Command α) world ≠ .ok result after := by
  change EStateM.Result.error message world ≠ _
  simp

theorem caught_eq_ok {α : Type} {command : Command α} {world after : World} {outcome : Except String α} :
    caught command world = .ok outcome after ↔
      (∃ value, outcome = .ok value ∧ command world = .ok value after) ∨
        ∃ message, outcome = .error message ∧ command world = .error message after := by
  cases done : command world with
  | ok value middle =>
    simp only [caught, done]
    constructor
    · intro same
      cases same
      exact .inl ⟨value, rfl, rfl⟩
    · rintro (⟨found, rfl, same⟩ | ⟨_, _, same⟩)
      · cases same
        rfl
      · cases same
  | error message middle =>
    simp only [caught, done]
    constructor
    · intro same
      cases same
      exact .inr ⟨message, rfl, rfl⟩
    · rintro (⟨_, _, same⟩ | ⟨found, rfl, same⟩)
      · cases same
      · cases same
        rfl

end Command

/-! ## Reading -/

/-- The cap for any input, 8 MiB. -/
def maxInputFileBytes : Nat := 8 * 2 ^ 20

/-- The rest of standard input; the byte over the cap is taken as well. -/
def readStdinText : Command String := fun world =>
  let buffer := world.stdin.take (maxInputFileBytes + 1)
  let after := { world with stdin := world.stdin.drop (maxInputFileBytes + 1) }
  if maxInputFileBytes < buffer.length then .error "stdin: input too large" after
  else
    match fromUtf8 buffer with
    | some text => .ok text after
    | none => .error "stdin: invalid UTF-8" after

/-- The text of a file. -/
def fileText (path : String) : Except FileError Bytes → Except String String
  | .error failure => .error ("read " ++ path ++ ": " ++ failure.text)
  | .ok bytes =>
    if maxInputFileBytes < bytes.length then
      .error (path ++ ": file too large (>" ++ toString maxInputFileBytes ++ " bytes)")
    else
      match fromUtf8 bytes with
      | some text => .ok text
      | none => .error (path ++ ": invalid UTF-8")

def readInputFile (path : String) : Command String := fun world =>
  Command.of (fileText path (world.files path)) world

/-- How messages call an input. -/
def wrapperLabel (path : String) : String := if path = "-" then "stdin" else path

def readInputText (path : String) : Command (String × String) := do
  let text ← if path = "-" then readStdinText else readInputFile path
  pure (text, wrapperLabel path)

/-! ## JSON wrappers -/

/-- The third-party code of the command line. -/
structure Libraries where
  /-- A document, or the parser's message. -/
  fromStr : String → Except String Json
  /-- The empty text is no document. -/
  fromStr_empty : ∃ message, fromStr "" = .error message
  toStringPretty : Json → String
  /-- The decoder's message for text that is not hexadecimal. -/
  hexError : String → String

def proofWrapperAllowed : List String := ["cbor", "id", "kind", "container_version"]

def statusWrapperAllowed : List String :=
  ["cbor", "id", "kind", "issuer", "claim_type", "sign1_b64", "sign1", "container_version"]

/-- Names the first unknown field in sorted order. -/
def rejectUnknownWrapperFields (json : Json) (label : String) (allowed : List String) : Except String Unit :=
  match json with
  | .object entries =>
    match sortOn utf8 ((entries.map Prod.fst).filter fun key => !allowed.contains key) with
    | [] => .ok ()
    | key :: _ =>
      .error (label ++ ": wrapper has unknown field \"" ++ key ++ "\" (allowed: " ++ String.intercalate "," allowed ++
        " — unknown wrapper fields rejected fail-closed)")
  | _ => .error (label ++ ": wrapper must be a JSON object")

section
variable (libraries : Libraries)

def parseJson (label text : String) : Except String Json :=
  match libraries.fromStr text with
  | .ok json => .ok json
  | .error message => .error ("parse " ++ label ++ ": " ++ message)

/-! ## Proofs -/

structure LoadedProof where
  canonical : Bytes
  proof : Proof
  deriving DecidableEq, Repr

/-- The bytes in the `cbor` field. -/
def wrappedBytes (label : String) (json : Json) : Except String Bytes :=
  match json.strField "cbor" with
  | none => .error (label ++ ": missing `cbor`")
  | some hex =>
    match Hex.decode hex with
    | some bytes => .ok bytes
    | none => .error (label ++ ": bad hex: " ++ libraries.hexError hex)

/-- A `kind`, where present, must be `proof`. -/
def checkKind (label : String) (json : Json) : Except String Unit :=
  match json.get "kind" with
  | none => .ok ()
  | some kind =>
    match kind.asStr with
    | none => .error (label ++ ": wrapper `kind` must be a string")
    | some kind =>
      if kind = "proof" then .ok ()
      else
        .error (label ++ ": envelope kind mismatch (wrapper says kind \"" ++ kind ++ "\", expected \"proof\")")

/-- An `id`, where present, must be the one the bytes carry. -/
def checkClaimedId (label : String) (json : Json) (proof : Proof) : Except String Unit :=
  match json.strField "id" with
  | none => .ok ()
  | some claimed =>
    if claimed = proof.proofId then .ok ()
    else
      .error (label ++ ": envelope id mismatch (wrapper says " ++ claimed ++ ", bytes bind " ++ proof.proofId ++ ")")

/-- An error of the engine under the label of the input. -/
def labelled {α : Type} (label : String) : Result α → Except String α
  | .ok value => .ok value
  | .error failure => .error (label ++ ": " ++ failure.display)

theorem labelled_eq_ok {α : Type} {label : String} {result : Result α} {value : α} :
    labelled label result = .ok value ↔ result = .ok value := by
  cases result <;> simp [labelled]

def proofOfText (label text : String) : Except String LoadedProof := do
  let json ← parseJson libraries label text
  rejectUnknownWrapperFields json label proofWrapperAllowed
  checkKind label json
  let bytes ← wrappedBytes libraries label json
  let value ← labelled label (decodeStrict bytes Limits.default)
  let proof ← labelled label (cborToProof Limits.default value)
  checkClaimedId label json proof
  .ok { canonical := bytes, proof }

def loadProof (path : String) : Command LoadedProof := do
  let (text, label) ← readInputText path
  Command.of (proofOfText libraries label text)

/-- The bytes of a wrapper whose other fields are not looked at. -/
def rawOfText (label text : String) : Except String Bytes := do
  let json ← parseJson libraries label text
  wrappedBytes libraries label json

def loadProofBytesRaw (path : String) : Command Bytes := do
  let (text, label) ← readInputText path
  Command.of (rawOfText libraries label text)

/-! ## Status objects -/

variable (primitives : Primitives)

def statusOfText (path label text : String) : Except String SignedStatus := do
  let json ← parseJson libraries label text
  rejectUnknownWrapperFields json label statusWrapperAllowed
  -- `sign1` counts only where there is no `sign1_b64`
  match ((json.get "sign1_b64").orElse fun _ => json.get "sign1").bind Json.asStr with
  | none => .error (label ++ ": missing `sign1_b64`")
  | some encoded =>
    match b64uDecode primitives encoded with
    | .error failure => .error (path ++ ": bad sign1_b64: " ++ failure.display)
    | .ok sign1 =>
      match json.strField "issuer" with
      | none => .error (path ++ ": missing `issuer`")
      | some issuer =>
        let content ← labelled path (verifyStatusObject primitives sign1 issuer .strict Limits.default)
        .ok { content, sign1 }

def loadStatus (path : String) : Command SignedStatus := do
  let (text, label) ← readInputText path
  Command.of (statusOfText libraries primitives path label text)

def loadStatuses : List String → Command (List SignedStatus)
  | [] => pure []
  | path :: paths => do
    let status ← loadStatus libraries primitives path
    let statuses ← loadStatuses paths
    pure (status :: statuses)

/-- The status objects that load; the others are skipped. -/
def loadableStatuses : List String → Command (List SignedStatus)
  | [] => pure []
  | path :: paths => do
    let status ← (loadStatus libraries primitives path).caught
    let statuses ← loadableStatuses paths
    match status with
    | .ok status => pure (status :: statuses)
    | .error _ => pure statuses

end

end ProofEngine
