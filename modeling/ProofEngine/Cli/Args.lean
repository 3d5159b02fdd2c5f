import ProofEngine.Lib.TextSearch
import ProofEngine.Verify.Context

/-! # Command-line arguments

What `verify` reads off its flags: the clock, the verifier policy and the replay store.  Usage errors are texts;
nothing of the proof is read before they are reported. -/

namespace ProofEngine

open Text

/-- A parsed command line; a flag without a value is in `flags`, the last value of a flag in `values`. -/
structure Cli where
  positional : List String := []
  values : List (String × String) := []
  multi : List (String × List String) := []
  flags : List String := []
  deriving DecidableEq, Repr

/-- An unsigned 64-bit number: an optional plus sign and decimal digits. -/
def parseU64 (text : String) : Option UInt64 :=
  let digits := match text.toList with
    | '+' :: digits => digits
    | digits => digits
  if digits.isEmpty || !digits.all Char.isDigit then none
  else
    let value := digits.foldl (fun value digit => 10 * value + (digit.toNat - 48)) 0
    if value < 2 ^ 64 then some (UInt64.ofNat value) else none

namespace Cli

def opt (cli : Cli) (name : String) : Option String := cli.values.lookup name

def req (cli : Cli) (name : String) : Except String String :=
  match cli.opt name with
  | some value => .ok value
  | none => .error ("missing required flag --" ++ name)

/-- All values of a repeatable flag, in order. -/
def many (cli : Cli) (name : String) : List String := (cli.multi.lookup name).getD []

def has (cli : Cli) (name : String) : Bool := cli.flags.contains name

def u64Value (name text : String) : Except String UInt64 :=
  match parseU64 text with
  | some value => .ok value
  | none => .error ("--" ++ name ++ " must be a u64")

def reqU64 (cli : Cli) (name : String) : Except String UInt64 := do
  let text ← cli.req name
  u64Value name text

def optU64 (cli : Cli) (name : String) : Except String (Option UInt64) :=
  match cli.opt name with
  | none => .ok none
  | some text => (u64Value name text).map some

/-- The proof to verify; `-` is standard input. -/
def proofPath (cli : Cli) : Except String String :=
  match cli.opt "proof", cli.positional with
  | some path, _ => .ok path
  | none, [path] => .ok path
  | none, [] =>
    .error "missing required flag --proof (or pass the proof path positionally, e.g. `verify proof.json`; `-` reads stdin)"
  | none, _ => .error "expected a single proof path (got several positional arguments)"

end Cli

/-! ## The clock -/

structure CommonInputs where
  verifiedAt : UInt64
  skew : UInt64
  revocationsKnownAt : Option UInt64
  deriving DecidableEq, Repr

def common (cli : Cli) : Except String CommonInputs := do
  let verifiedAt ← cli.reqU64 "clock"
  let skew ← cli.optU64 "skew"
  let revocationsKnownAt ← cli.optU64 "revocations-known-at"
  .ok { verifiedAt, skew := skew.getD 300, revocationsKnownAt }

/-! ## The verifier policy -/

structure VerifierPolicy where
  allowedAlgs : AllowedAlgs
  reportAllFailures : Bool
  acceptedVocabularies : List VocabularyAccept
  extraGrounded : List String
  requireAcyclicProvenance : Bool
  requireStatusFeed : Bool
  production : Bool
  deriving DecidableEq, Repr

/-- The non-empty, trimmed pieces of the comma-separated values of a flag. -/
def listedItems (cli : Cli) (name : String) : List String :=
  (((cli.many name).flatMap fun item => splitAt item ',').map trim).filter fun piece => !piece.isEmpty

def extraGrounded (cli : Cli) : List String := listedItems cli "extra-grounded"

/-- An accepted vocabulary `ns:max_version`. -/
def acceptedVocabulary (entry : String) : Except String VocabularyAccept :=
  match cut entry ":" with
  -- the text names no entry: the message is not a format string
  | none => .error "--accepted-vocab must be ns:max_version (e.g. `acme:2`), got `\x7bentry\x7d`"
  | some (ns, maxVersion) =>
    if (trim ns).isEmpty then .error "--accepted-vocab namespace must not be empty"
    else
      match parseU64 (trim maxVersion) with
      | none => .error ("--accepted-vocab max_version must be u64, got `" ++ maxVersion ++ "`")
      | some version => .ok { ns := trim ns, maxVersion := version }

def verifierPolicy (cli : Cli) : Except String VerifierPolicy := do
  let acceptedVocabularies ← (listedItems cli "accepted-vocab").mapM acceptedVocabulary
  .ok
    { allowedAlgs :=
        { AllowedAlgs.strict with
          esp256 := cli.has "esp256"
          allowDeprecated := cli.has "historical" || cli.has "allow-deprecated" }
      reportAllFailures := cli.has "report-all"
      acceptedVocabularies
      extraGrounded := extraGrounded cli
      requireAcyclicProvenance := cli.has "require-acyclic" || cli.has "production"
      requireStatusFeed := !cli.has "no-require-status"
      production := cli.has "production" }

/-- The context of a run under the given flags and status objects. -/
def buildCtx (cli : Cli) (inputs : CommonInputs) (policy : VerifierPolicy) (statuses : List SignedStatus) :
    VerifyCtx :=
  { VerifyCtx.default with
    verifiedAt := inputs.verifiedAt
    clockSkewLeeway := inputs.skew
    trustedIssuers := cli.many "trusted"
    statusObjects := statuses
    revocationAuthorities := cli.many "authority"
    revocationsKnownAt := inputs.revocationsKnownAt
    allowedAlgs := policy.allowedAlgs
    reportAllFailures := policy.reportAllFailures
    acceptedVocabularies := policy.acceptedVocabularies
    extraGrounded := policy.extraGrounded
    requireAcyclicProvenance := policy.requireAcyclicProvenance
    requireStatusFeed := policy.requireStatusFeed }

/-! ## The replay store -/

structure SeenRequest where
  store : String
  context : String
  record : Bool
  deriving DecidableEq, Repr

def seenRequest (cli : Cli) : Except String (Option SeenRequest) :=
  match cli.opt "seen-store", cli.opt "seen-context" with
  | none, none =>
    if cli.has "seen-record" then .error "--seen-record needs --seen-store <file> and --seen-context <ctx>"
    else .ok none
  | none, some _ => .error "--seen-context needs --seen-store <file>"
  | some _, none => .error "--seen-store needs --seen-context <ctx> to bind replays to one business action"
  | some store, some context =>
    if context.isEmpty then .error "--seen-context must not be empty"
    else .ok (some { store, context, record := cli.has "seen-record" })

end ProofEngine
