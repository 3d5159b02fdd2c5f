import ProofEngine.Cli.Args

/-! # The argument parser

The parser knows which flags a command takes but not which of them take a value: the next token is the
value unless it looks like a flag itself.  Commands read their safety profile off flags without a
value, so a profile flag that ends up with one is not seen. -/

namespace ProofEngine

open Text

def shortFlagAlias : String → String
  | "o" => "out"
  | "h" => "help"
  | "q" => "quiet"
  | "j" => "json"
  | "p" => "proof"
  | "c" => "clock"
  | "k" => "skew"
  | "s" => "subject"
  | "t" => "type"
  | name => name

def globalFlags : List String := ["help", "quiet", "json", "out", "verbose"]

def commandFlags : List (String × List String) :=
  [("create-event", ["type", "subject", "effective-at", "payload-hex", "payload-file", "meta"]),
   ("attest",
     ["seed", "seed-file", "subject", "claim-type", "claim", "issued-at", "expires-at", "evidence-ref",
      "production"]),
   ("add-evidence", ["kind", "digest-hex", "digest-file", "attestation-ref", "hint"]),
   ("relate", ["from", "to", "type", "evidence-ref", "attestation-ref", "allow-ungrounded"]),
   ("revoke", ["seed", "seed-file", "target", "reason", "at", "production"]),
   ("supersede", ["seed", "seed-file", "target", "old", "new", "successor", "reason", "at", "production"]),
   ("withdraw", ["seed", "seed-file", "target", "reason", "at", "production"]),
   ("compromise", ["seed", "seed-file", "target", "compromised-at", "reason", "at", "production"]),
   ("build",
     ["kind", "subject", "predicate", "object", "at-time", "created-at", "context", "events", "attestations",
      "evidence", "relationships", "out"]),
   ("verify",
     ["proof", "clock", "skew", "revocations-known-at", "trusted", "authority", "status", "esp256",
      "historical", "allow-deprecated", "accepted-vocab", "extra-grounded", "report-all", "require-acyclic",
      "require-status", "no-require-status", "strict-current", "production", "seen-store", "seen-context",
      "seen-record"]),
   ("evaluate",
     ["proof", "policy", "clock", "skew", "revocations-known-at", "trusted", "authority", "status", "esp256",
      "historical", "allow-deprecated", "accepted-vocab", "extra-grounded", "report-all", "require-acyclic",
      "require-status", "no-require-status", "strict-current", "production", "seen-store", "seen-context",
      "seen-record"]),
   ("explain",
     ["proof", "policy", "clock", "skew", "revocations-known-at", "trusted", "authority", "status", "esp256",
      "historical", "allow-deprecated", "accepted-vocab", "extra-grounded", "report-all", "require-acyclic",
      "require-status", "no-require-status", "strict-current", "production", "seen-store", "seen-context",
      "seen-record"]),
   ("batch-verify",
     ["proofs", "clock", "skew", "revocations-known-at", "trusted", "authority", "status", "esp256",
      "historical", "allow-deprecated", "accepted-vocab", "extra-grounded", "report-all", "require-acyclic",
      "require-status", "no-require-status", "strict-current", "production", "max-batch"]),
   ("inspect", ["proof"]),
   ("id", ["artifact", "field"]),
   ("commit", ["value", "value-file", "salt", "alg", "production"]),
   ("graph", ["proof", "format", "depth"]),
   ("export", ["proof"]),
   ("import", ["proof"]),
   ("convert", ["proof"]),
   ("compose",
     ["proofs", "kind", "subject", "predicate", "object", "at-time", "created-at", "context", "events",
      "attestations", "evidence", "relationships", "out", "status", "authority"]),
   ("resolve",
     ["proof", "status", "store", "clock", "skew", "revocations-known-at", "trusted", "authority", "esp256",
      "historical", "allow-deprecated", "accepted-vocab", "extra-grounded", "report-all", "require-acyclic",
      "require-status", "no-require-status", "strict-current", "production"]),
   ("ingest", ["in", "out-dir", "dry-run", "skip-bad"]),
   ("init-policy", ["issuer", "attestation", "proof", "relationship", "evidence-kind", "template", "out"]),
   ("demo", ["interactive"]),
   ("doctor", []),
   ("completion", ["shell"])]

/-- The flags of a known command. -/
def allowedFlags (command : String) : Option (List String) :=
  (commandFlags.lookup command).map fun specific => globalFlags ++ specific

/-- A flag is refused only for a known command that does not take it. -/
def permits (allowed : Option (List String)) (name : String) : Bool :=
  match allowed with
  | some flags => flags.contains name
  | none => true

/-! ## Tokens -/

inductive Token where
  | positional
  | short (name : String)
  | long (name : String) (inline : Option String)
  deriving DecidableEq, Repr

/-- One dash and one more byte. -/
def shortName (arg : String) : Option String :=
  (strip arg "-").filter fun name => !startsWith name "-" && len name = 1

/-- How a token is read that is not the value of a flag; a single dash stands for standard input. -/
def readToken (arg : String) : Token :=
  if arg = "-" then .positional
  else
    match shortName arg with
    | some name => .short name
    | none =>
      match strip arg "--" with
      | none => .positional
      | some body =>
        match cut body "=" with
        | some (name, value) => .long name (some value)
        | none => .long body none

namespace Cli

/-- One more value of a flag. -/
def store (cli : Cli) (name value : String) : Cli :=
  { cli with multi := (name, cli.many name ++ [value]) :: cli.multi, values := (name, value) :: cli.values }

/-- A flag without a value. -/
def mark (cli : Cli) (name : String) : Cli := { cli with flags := name :: cli.flags }

def push (cli : Cli) (arg : String) : Cli := { cli with positional := cli.positional ++ [arg] }

@[simp] theorem has_store (cli : Cli) (flag name value : String) : (cli.store flag value).has name = cli.has name :=
  rfl

@[simp] theorem has_push (cli : Cli) (name arg : String) : (cli.push arg).has name = cli.has name := rfl

@[simp] theorem has_mark (cli : Cli) (flag name : String) :
    (cli.mark flag).has name = (decide (name = flag) || cli.has name) := by
  simp [has, mark]

/-! ## The loop -/

/-- A token that a short flag takes as its value. -/
def isShortValue (token : String) : Bool := !startsWith token "-"

/-- A token that a long flag takes as its value. -/
def isLongValue (token : String) : Bool := token = "-" || !startsWith token "-"

def unknownFlag (dashes name command : String) : String :=
  "unknown flag " ++ dashes ++ name ++ " for `" ++ command ++ "` (try `proof-cli help " ++ command ++ "`)"

def parseTokens (command : String) (allowed : Option (List String)) : List String → Cli → Except String Cli
  | [], cli => .ok cli
  | arg :: rest, cli =>
    match readToken arg with
    | .positional => parseTokens command allowed rest (cli.push arg)
    | .short name =>
      if !permits allowed (shortFlagAlias name) then .error (unknownFlag "-" name command)
      else
        match rest with
        | [] => .ok (cli.mark (shortFlagAlias name))
        | value :: after =>
          if isShortValue value then parseTokens command allowed after (cli.store (shortFlagAlias name) value)
          else parseTokens command allowed (value :: after) (cli.mark (shortFlagAlias name))
    | .long name inline =>
      if !permits allowed name then .error (unknownFlag "--" name command)
      else
        match inline, rest with
        | some value, rest => parseTokens command allowed rest (cli.store name value)
        | none, [] => .ok (cli.mark name)
        | none, value :: after =>
          if isLongValue value then parseTokens command allowed after (cli.store name value)
          else parseTokens command allowed (value :: after) (cli.mark name)

/-- The command; the usual top-level flags stand for commands. -/
def commandOf : String → String
  | "--help" | "-h" => "help"
  | "--version" => "version"
  | raw => raw

/-- The command and what follows it. -/
def parse : List String → Except String (String × Cli)
  | [] => .error "missing command (try `help`)"
  | raw :: args => do
    let cli ← parseTokens (commandOf raw) (allowedFlags (commandOf raw)) args {}
    .ok (commandOf raw, cli)

/-! ## Flags without a value -/

/-- Somewhere the flag is written alone: as the last token or before one that looks like a flag. -/
def bareFlag (name : String) : List String → Bool
  | [] => false
  | arg :: rest => (decide (arg = "--" ++ name) && rest.head?.all fun next => !isLongValue next) || bareFlag name rest

/-- A name that the parser can only take from `--name`. -/
structure LongOnly (name : String) : Prop where
  plain : '=' ∉ name.toList
  unaliased : ∀ short, len short = 1 → shortFlagAlias short ≠ name

theorem readToken_short {arg short : String} (read : readToken arg = .short short) : len short = 1 := by
  unfold readToken at read
  split at read
  · cases read
  · split at read
    case h_1 found =>
      cases read
      have kept := (Option.filter_eq_some_iff.mp found).2
      simp only [Bool.and_eq_true, decide_eq_true_eq] at kept
      exact kept.2
    case h_2 =>
      split at read
      · cases read
      · split at read <;> cases read

theorem readToken_long {arg flag : String} (read : readToken arg = .long flag none) : arg = "--" ++ flag := by
  unfold readToken at read
  split at read
  · cases read
  · split at read
    case h_1 => cases read
    case h_2 =>
      split at read
      case h_1 => cases read
      case h_2 body stripped =>
        split at read
        · cases read
        · cases read
          exact strip_eq_some stripped

/-- A token that is taken as a value is no long flag. -/
theorem ne_of_value {name value : String} (taken : isLongValue value = true ∨ isShortValue value = true) :
    value ≠ "--" ++ name := by
  rintro rfl
  have dashes : "--" ++ name = "-" ++ ("-" ++ name) := by simp [← String.toList_inj]
  have starts : startsWith ("--" ++ name) "-" = true := by rw [dashes, startsWith_append]
  have notSingle : "--" ++ name ≠ "-" := by simp [← String.toList_inj]
  rcases taken with taken | taken
  · simp [isLongValue, starts, notSingle] at taken
  · simp [isShortValue, starts] at taken

theorem bareFlag_cons_of_ne {name arg : String} {rest : List String} (different : arg ≠ "--" ++ name) :
    bareFlag name (arg :: rest) = bareFlag name rest := by
  simp [bareFlag, different]

section
variable {name : String} (longOnly : LongOnly name)

include longOnly

theorem LongOnly.readToken_eq : readToken ("--" ++ name) = .long name none := by
  have dashes : "--" ++ name = "-" ++ ("-" ++ name) := by simp [← String.toList_inj]
  have notSingle : "--" ++ name ≠ "-" := by simp [← String.toList_inj]
  have notShort : shortName ("--" ++ name) = none := by
    rw [dashes, shortName, strip_append]
    simp
  have whole : cut name "=" = none := cut_eq_none longOnly.plain
  rw [readToken, if_neg notSingle, notShort, strip_append]
  simp only [whole]

theorem LongOnly.ne_of_read {arg : String} {token : Token} (read : readToken arg = token)
    (other : token ≠ .long name none) : arg ≠ "--" ++ name := by
  rintro rfl
  exact other (read.symm.trans longOnly.readToken_eq)

/-- After parsing, exactly the flags that were written alone are set. -/
theorem LongOnly.parseTokens_has {command : String} {allowed : Option (List String)} {args : List String}
    {cli parsed : Cli} (done : parseTokens command allowed args cli = .ok parsed) :
    parsed.has name = (bareFlag name args || cli.has name) := by
  fun_induction parseTokens command allowed args cli
  case case1 cli =>
    cases done
    rfl
  case case2 arg rest cli read inductionHypothesis =>
    rw [inductionHypothesis done, bareFlag_cons_of_ne (longOnly.ne_of_read read (by simp)), has_push]
  case case3 => cases done
  case case4 arg cli short read _ =>
    cases done
    have unaliased := (longOnly.unaliased short (readToken_short read)).symm
    rw [has_mark, bareFlag_cons_of_ne (longOnly.ne_of_read read (by simp))]
    simp [bareFlag, unaliased]
  case case5 arg cli short read _ value after taken inductionHypothesis =>
    rw [inductionHypothesis done, bareFlag_cons_of_ne (longOnly.ne_of_read read (by simp)),
      bareFlag_cons_of_ne (ne_of_value (.inr taken)), has_store]
  case case6 arg cli short read _ value after taken inductionHypothesis =>
    have unaliased := (longOnly.unaliased short (readToken_short read)).symm
    have bare := @bareFlag_cons_of_ne name arg (value :: after) (longOnly.ne_of_read read (by simp))
    rw [inductionHypothesis done, bare, has_mark, decide_eq_false unaliased, Bool.false_or]
  case case7 => cases done
  case case8 arg cli flag _ value rest read inductionHypothesis =>
    rw [inductionHypothesis done, bareFlag_cons_of_ne (longOnly.ne_of_read read (by simp)), has_store]
  case case9 arg cli flag _ read =>
    cases done
    rw [has_mark, readToken_long read]
    simp [bareFlag, eq_comm]
  case case10 arg cli flag _ value after taken read inductionHypothesis =>
    -- a flag before a value is not alone, and the value is no flag
    have bare : bareFlag name (arg :: value :: after) = bareFlag name (value :: after) := by
      simp [bareFlag, taken]
    rw [inductionHypothesis done, bare, bareFlag_cons_of_ne (ne_of_value (.inl taken)), has_store]
  case case11 arg cli flag _ value after taken read inductionHypothesis =>
    have bare : bareFlag name (arg :: value :: after) =
        (decide (name = flag) || bareFlag name (value :: after)) := by
      rw [bareFlag, readToken_long read]
      simp [taken, eq_comm]
    rw [inductionHypothesis done, bare, has_mark, Bool.or_left_comm, Bool.or_assoc]

end

/-! ## Safety flags -/

/-- The profile flags that commands only ask `has` about. -/
def safetyFlags : List String :=
  ["production", "strict-current", "require-acyclic", "no-require-status", "seen-record", "skip-bad", "dry-run"]

theorem longOnly_safetyFlags : ∀ name ∈ safetyFlags, LongOnly name := by
  have plain : ∀ name ∈ safetyFlags, '=' ∉ name.toList := by decide
  have long : ∀ name ∈ safetyFlags, len name ≠ 1 := by decide +kernel
  have unaliased : ∀ name ∈ safetyFlags,
      name ∉ ["out", "help", "quiet", "json", "proof", "clock", "skew", "subject", "type"] := by decide
  intro name member
  refine ⟨plain name member, ?_⟩
  rintro short one rfl
  have known : shortFlagAlias short ∈ ["out", "help", "quiet", "json", "proof", "clock", "skew", "subject", "type"] ∨
      shortFlagAlias short = short := by
    unfold shortFlagAlias
    split <;> simp
  rcases known with aliased | same
  · exact unaliased _ member aliased
  · exact long _ member (same.symm ▸ one)

/-- A token that names the flag.  It is always read as a flag: values of other flags do not start with
    two dashes. -/
def namesFlag (name token : String) : Bool := token = "--" ++ name || startsWith token ("--" ++ name ++ "=")

/-- If the flag occurs among the arguments, the command sees it. -/
def FlagKept (name : String) (args : List String) (cli : Cli) : Prop :=
  (∃ token ∈ args, namesFlag name token = true) → cli.has name = true

/-- A safety flag that occurs is kept exactly if it occurs alone: as the last token or before a token that
    starts with a dash and is not the single dash. -/
theorem safetyFlag_kept_iff (raw : String) (args : List String) (command : String) (cli : Cli)
    (accepted : parse (raw :: args) = .ok (command, cli)) (name : String) (safety : name ∈ safetyFlags) :
    FlagKept name args cli ↔
      (∀ token ∈ args, namesFlag name token = false) ∨ bareFlag name args = true := by
  simp only [parse, bind_eq_ok] at accepted
  obtain ⟨parsed, done, accepted⟩ := accepted
  cases accepted
  have has := (longOnly_safetyFlags name safety).parseTokens_has done
  have unset : ({} : Cli).has name = false := rfl
  rw [unset, Bool.or_false] at has
  rw [FlagKept, has]
  constructor
  · intro kept
    by_cases named : ∃ token ∈ args, namesFlag name token = true
    · exact .inr (kept named)
    · left
      simpa using named
  · rintro (absent | bare) ⟨token, member, names⟩
    · rw [absent token member] at names
      cases names
    · exact bare

theorem production_parsed :
    parse ["verify", "--production", "--proof", "proof.json"] = .ok ("verify",
      { values := [("proof", "proof.json")], multi := [("proof", ["proof.json"])], flags := ["production"] }) := by
  decide +kernel

/-- Before another flag the flag is seen. -/
theorem production_kept : ∃ cli, parse ["verify", "--production", "--proof", "proof.json"] = .ok ("verify", cli) ∧
    cli.has "production" = true := by
  refine ⟨_, production_parsed, ?_⟩
  refine (safetyFlag_kept_iff _ _ _ _ production_parsed "production" (by decide)).mpr (.inr ?_) ?_
  · decide +kernel
  · exact ⟨"--production", List.mem_cons_self, by decide +kernel⟩

/-- In front of the path the flag takes the path as its value, and with an inline value it has that one;
    the run is not a production run either way. -/
theorem production_dropped :
    (∃ cli, parse ["verify", "--production", "proof.json"] = .ok ("verify", cli) ∧
      ¬ FlagKept "production" ["--production", "proof.json"] cli ∧
      (verifierPolicy cli).map (fun policy => policy.production) = .ok false) ∧
    ∃ cli, parse ["verify", "proof.json", "--production=true"] = .ok ("verify", cli) ∧
      ¬ FlagKept "production" ["proof.json", "--production=true"] cli ∧
      (verifierPolicy cli).map (fun policy => policy.production) = .ok false := by
  have swallowed : parse ["verify", "--production", "proof.json"] = .ok ("verify",
      { values := [("production", "proof.json")], multi := [("production", ["proof.json"])] }) := by
    decide +kernel
  have inline : parse ["verify", "proof.json", "--production=true"] = .ok ("verify",
      { positional := ["proof.json"], values := [("production", "true")],
        multi := [("production", ["true"])] }) := by
    decide +kernel
  refine ⟨⟨_, swallowed, fun kept => ?_, rfl⟩, ⟨_, inline, fun kept => ?_, rfl⟩⟩
  · exact absurd (kept ⟨"--production", List.mem_cons_self, by decide +kernel⟩) (by decide)
  · have named : namesFlag "production" "--production=true" = true := by decide +kernel
    exact absurd (kept ⟨"--production=true", List.mem_cons_of_mem _ List.mem_cons_self, named⟩) (by decide)

end Cli

end ProofEngine
