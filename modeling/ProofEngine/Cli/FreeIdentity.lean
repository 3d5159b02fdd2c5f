import ProofEngine.Graph.Validate

/-! # Free identities

`relate` lets an endpoint of an identity assertion through unresolved where it has not the shape of an id.  The
graph decides on the shape again, with a rule of its own: it takes the known prefixes for ids whatever version
follows, and does not mind a slash. -/

namespace ProofEngine

open Text

/-! ## Parts -/

/-- The text before the first colon, that before the second one and the rest, if there are two. -/
def splitThree (chars : List Char) : Option (List Char × List Char × List Char) :=
  match splitColon chars with
  | (_, none) => none
  | (lead, some more) =>
    match splitColon more with
    | (_, none) => none
    | (version, some rest) => some (lead, version, rest)

/-- A `v` and decimal digits. -/
def isVersion : List Char → Bool
  | 'v' :: digit :: digits => (digit :: digits).all fun char => '0' ≤ char && char ≤ '9'
  | _ => false

def isKnownPrefix (lead : List Char) : Bool := ["evt", "att", "evd", "rel", "prf"].contains (String.ofList lead)

namespace Cli

/-- `prefix:v1:rest` with a known prefix. -/
def looksLikeArtifactId (text : String) : Bool :=
  match splitThree text.toList with
  | some (lead, version, rest) => version = ['v', '1'] && isKnownPrefix lead && !rest.isEmpty
  | none => false

/-- `prefix:vN:rest` with any prefix that has neither spaces nor slashes. -/
def looksShaped (text : String) : Bool :=
  match splitThree text.toList with
  | some (lead, version, rest) =>
    !lead.isEmpty && !lead.contains ' ' && !lead.contains '/' && isVersion version && !rest.isEmpty
  | none => false

/-- White space among the ASCII characters; the bytes of other characters are never among them. -/
def isAsciiWhitespace (char : Char) : Bool := [' ', '\t', '\n', '\x0C', '\r'].contains char

/-- What an identity may be spelled like, its shape aside. -/
def isPlainIdentity (text : String) : Bool :=
  !text.isEmpty && decide (len text ≤ 256) && !text.toList.any isAsciiWhitespace

def isFreeIdentityRef (text : String) : Bool := isPlainIdentity text && !looksShaped text

/-- One endpoint of `relate`. -/
def relateEndpoint (flag : String) (isEquivalent : Bool) (v : String) : Except String Unit :=
  if looksLikeArtifactId v then .ok ()
  else if isEquivalent && isFreeIdentityRef v then .ok ()
  else if isEquivalent && looksShaped v then
    .error ("`--" ++ flag ++ " " ++ v ++ "` looks like an artifact id but is malformed (want `evt:…`, `att:…` or `evd:…`); shaped ids must resolve — free identity refs must not contain `:vN:`")
  else
    .error ("`--" ++ flag ++ " " ++ v ++ "` is not an artifact id (want `evt:…`, `att:…` or `evd:…`); bare labels like `invoice:i9` never resolve — create the artifact first (e.g. `create-event`) and use its id" ++
      if isEquivalent then
        "; for EQUIVALENT identity refs use free strings like `did:org:acme` (grounding still required)"
      else "")

end Cli

/-! ## The two rules -/

section
variable {text : String} {chars lead version rest more : List Char}

theorem splitColon_eq_some :
    splitColon chars = (lead, some more) ↔ chars = lead ++ ':' :: more ∧ ':' ∉ lead := by
  induction chars generalizing lead with
  | nil => simp [splitColon]
  | cons char chars inductionHypothesis =>
    by_cases colon : char = ':'
    · subst colon
      cases lead with
      | nil => simp [splitColon]
      | cons first lead =>
        simp only [splitColon, List.cons_append, List.cons.injEq, List.mem_cons, not_or]
        simp +contextual [eq_comm]
    · have split : splitColon (char :: chars) = (char :: (splitColon chars).1, (splitColon chars).2) := by
        simp only [splitColon, List.dropWhile_cons, List.takeWhile_cons, ne_eq, colon, not_false_eq_true, decide_true,
          if_true]
        split <;> rfl
      rw [split]
      cases lead with
      | nil => simp [colon]
      | cons first lead =>
        have := @inductionHypothesis lead
        cases here : splitColon chars with
        | mk before after =>
          simp only [here, Prod.mk.injEq, List.cons.injEq, List.cons_append, List.mem_cons, not_or] at this ⊢
          constructor
          · rintro ⟨⟨rfl, rfl⟩, rfl⟩
            obtain ⟨rfl, absent⟩ := this.mp ⟨rfl, rfl⟩
            exact ⟨⟨rfl, rfl⟩, Ne.symm colon, absent⟩
          · rintro ⟨⟨rfl, rfl⟩, _, absent⟩
            obtain ⟨rfl, rfl⟩ := this.mpr ⟨rfl, absent⟩
            exact ⟨⟨rfl, rfl⟩, rfl⟩

/-- The text has these three parts. -/
structure Parts (text : String) (lead version rest : List Char) : Prop where
  spelled : text.toList = lead ++ ':' :: (version ++ ':' :: rest)
  leadPlain : ':' ∉ lead
  versionPlain : ':' ∉ version

theorem splitThree_eq_some : splitThree text.toList = some (lead, version, rest) ↔ Parts text lead version rest := by
  constructor
  · intro found
    rw [splitThree] at found
    split at found
    · cases found
    · rename_i first more here
      split at found
      · cases found
      · rename_i there
        cases found
        obtain ⟨spelled, leadPlain⟩ := splitColon_eq_some.mp here
        obtain ⟨rfl, versionPlain⟩ := splitColon_eq_some.mp there
        exact ⟨spelled, leadPlain, versionPlain⟩
  · rintro ⟨spelled, leadPlain, versionPlain⟩
    have here := splitColon_eq_some.mpr ⟨spelled, leadPlain⟩
    have there : splitColon (version ++ ':' :: rest) = (version, some rest) :=
      splitColon_eq_some.mpr ⟨rfl, versionPlain⟩
    simp only [splitThree, here, there]

/-- The rule of the graph, on the parts. -/
theorem looksLikeArtifactId_of_parts (parts : Parts text lead version rest) :
    looksLikeArtifactId text =
      (isKnownPrefix lead && !rest.isEmpty ||
        isVersion version && !rest.isEmpty && !lead.isEmpty && !lead.contains ' ') := by
  have here := splitColon_eq_some.mpr ⟨parts.spelled, parts.leadPlain⟩
  have there : splitColon (version ++ ':' :: rest) = (version, some rest) :=
    splitColon_eq_some.mpr ⟨rfl, parts.versionPlain⟩
  simp only [looksLikeArtifactId, here, there, isKnownPrefix, isVersion]
  -- the graph asks for the rest within its rule for versions
  split
  · simp only [Bool.and_assoc]
  · simp only [Bool.false_and]

theorem looksLikeArtifactId_parts (shaped : looksLikeArtifactId text = true) :
    ∃ lead version rest, Parts text lead version rest := by
  rw [looksLikeArtifactId] at shaped
  split at shaped
  · cases shaped
  · rename_i lead more here
    split at shaped
    · cases shaped
    · rename_i version rest there
      obtain ⟨spelled, leadPlain⟩ := splitColon_eq_some.mp here
      obtain ⟨rfl, versionPlain⟩ := splitColon_eq_some.mp there
      exact ⟨lead, version, rest, spelled, leadPlain, versionPlain⟩

/-- A plain identity has no space anywhere. -/
theorem no_space (plain : Cli.isPlainIdentity text = true) : ' ' ∉ text.toList := by
  intro member
  simp only [Cli.isPlainIdentity, Bool.and_eq_true, Bool.not_eq_true', List.any_eq_false] at plain
  exact plain.2 ' ' member (by decide)

theorem knownPrefix_ne_nil (known : isKnownPrefix lead = true) : lead ≠ [] := by
  have listed := List.contains_iff_mem.mp known
  have spelled : lead = (String.ofList lead).toList := String.toList_ofList.symm
  simp only [List.mem_cons, List.not_mem_nil, or_false] at listed
  rcases listed with same | same | same | same | same <;> rw [spelled, same] <;> decide

end

/-- The shapes on which the rules differ: a known prefix before something that is no version, and a version behind
    a prefix with a slash in it. -/
structure Unmirrored (text : String) : Prop where
  plain : Cli.isPlainIdentity text = true
  shape : ∃ lead version rest, Parts text lead version rest ∧ rest ≠ [] ∧
    (isKnownPrefix lead = true ∧ isVersion version = false ∨ '/' ∈ lead ∧ isVersion version = true)

/-- A free identity of the command line is none of the graph's ids, except on the shapes where the rules differ. -/
theorem freeIdentity_mirrored_iff (text : String) :
    (Cli.isFreeIdentityRef text = true → looksLikeArtifactId text = false) ↔ ¬ Unmirrored text := by
  constructor
  · rintro mirrored ⟨plain, lead, version, rest, parts, filled, differs⟩
    have spaceless : ' ' ∉ lead := by
      intro member
      refine no_space plain ?_
      rw [parts.spelled]
      exact List.mem_append_left _ member
    have cliParts := splitThree_eq_some.mpr parts
    have free : Cli.isFreeIdentityRef text = true := by
      rw [Cli.isFreeIdentityRef, plain, Cli.looksShaped, cliParts]
      rcases differs with ⟨_, unversioned⟩ | ⟨slash, _⟩
      · simp [unversioned]
      · simp [slash]
    have refused := mirrored free
    rw [looksLikeArtifactId_of_parts parts] at refused
    rcases differs with ⟨known, _⟩ | ⟨slash, versioned⟩
    · simp [known, filled] at refused
    · have named : lead ≠ [] := List.ne_nil_of_mem slash
      simp [versioned, filled, named, spaceless] at refused
  · intro mirrored free
    rw [Cli.isFreeIdentityRef, Bool.and_eq_true, Bool.not_eq_true'] at free
    obtain ⟨plain, unshaped⟩ := free
    rw [Bool.eq_false_iff]
    intro shaped
    obtain ⟨lead, version, rest, parts⟩ := looksLikeArtifactId_parts shaped
    rw [looksLikeArtifactId_of_parts parts] at shaped
    rw [Cli.looksShaped, splitThree_eq_some.mpr parts] at unshaped
    have filled : rest ≠ [] := by
      rintro rfl
      simp at shaped
    refine mirrored ⟨plain, lead, version, rest, parts, filled, ?_⟩
    cases versioned : isVersion version with
    | false =>
      left
      simpa [versioned, filled] using shaped
    | true =>
      right
      -- only a slash keeps the command line from seeing the shape
      have named : lead ≠ [] ∧ ' ' ∉ lead := by
        simp only [versioned, Bool.or_eq_true, Bool.and_eq_true, Bool.not_eq_true', List.isEmpty_eq_false_iff,
          List.contains_eq_mem, decide_eq_false_iff_not, and_assoc] at shaped
        rcases shaped with ⟨known, _⟩ | ⟨_, _, named⟩
        · refine ⟨knownPrefix_ne_nil known, fun member => no_space plain ?_⟩
          rw [parts.spelled]
          exact List.mem_append_left _ member
        · exact named
      simpa [versioned, filled, named] using unshaped

/-- Both shapes pass `relate` as free identities and do not resolve in a graph without such a member. -/
theorem unmirrored_dangling :
    (Cli.isFreeIdentityRef "evt:foo:bar" = true ∧ Cli.relateEndpoint "to" true "evt:foo:bar" = .ok () ∧
        looksLikeArtifactId "evt:foo:bar" = true ∧
        identityEndpoint (NodeSet.new []) "to" "evt:foo:bar" =
          .error (ErrorCode.danglingReference.err "unknown to evt:foo:bar")) ∧
      Cli.isFreeIdentityRef "a/b:v1:x" = true ∧ Cli.relateEndpoint "to" true "a/b:v1:x" = .ok () ∧
        looksLikeArtifactId "a/b:v1:x" = true ∧
        identityEndpoint (NodeSet.new []) "to" "a/b:v1:x" =
          .error (ErrorCode.danglingReference.err "unknown to a/b:v1:x") := by
  decide +kernel

end ProofEngine
