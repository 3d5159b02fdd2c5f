import ProofEngine.Cli.Artifact
import ProofEngine.Cli.FileStore
import ProofEngine.Cli.Seen
import ProofEngine.Verify.BuilderVerifies

/-! # What is written is loaded

The file that a creating command writes holds its artifact, and no file is touched that no command names. -/

namespace ProofEngine

open Text

/-! ## Reading wrappers back -/

/-- The text of a wrapper in its file. -/
def artifactText (libraries : Libraries) (fields : WrapperFields) : String :=
  libraries.toStringPretty (wrapper fields) ++ "\n"

/-- The library parses its own text of these fields, in whatever order, and the text is not over the cap. -/
structure ReadsWrapper (libraries : Libraries) (fields : WrapperFields) : Prop where
  parses : ∃ entries, libraries.fromStr (artifactText libraries fields) = .ok (.object entries) ∧
    entries.Perm (fields.map fun field => (field.1, .string field.2))
  fits : len (artifactText libraries fields) ≤ maxInputFileBytes

/-- A file that holds the text. -/
def World.written (world : World) (path text : String) : World :=
  { world with files := Function.update world.files path (.ok (utf8 text)) }

section
variable {libraries : Libraries} {fields : WrapperFields} {entries : JsonMap}

theorem get_of_perm (permuted : entries.Perm (fields.map fun field => (field.1, .string field.2)))
    (distinct : (fields.map Prod.fst).Nodup) (name : String) {text : String} (member : (name, text) ∈ fields) :
    (Json.object entries).get name = some (.string text) := by
  have keys : (entries.map Prod.fst).Nodup := by
    rw [(permuted.map Prod.fst).nodup_iff, List.map_map]
    exact distinct
  have here : (name, Json.string text) ∈ entries :=
    permuted.mem_iff.mpr (List.mem_map.mpr ⟨(name, text), member, rfl⟩)
  clear permuted
  change entries.lookup name = _
  induction entries with
  | nil => cases here
  | cons entry entries inductionHypothesis =>
    rw [List.map_cons, List.nodup_cons] at keys
    rw [List.lookup_cons]
    rcases List.mem_cons.mp here with rfl | later
    · simp
    · have other : (name == entry.1) = false := by
        rw [beq_eq_false_iff_ne]
        rintro rfl
        exact keys.1 (List.mem_map.mpr ⟨_, later, rfl⟩)
      rw [other]
      exact inductionHypothesis keys.2 later

theorem rejectUnknown_of_perm (permuted : entries.Perm (fields.map fun field => (field.1, .string field.2)))
    {label : String} {allowed : List String} (known : ∀ field ∈ fields, field.1 ∈ allowed) :
    rejectUnknownWrapperFields (.object entries) label allowed = .ok () := by
  have nothing : (entries.map Prod.fst).filter (fun key => !allowed.contains key) = [] := by
    rw [List.filter_eq_nil_iff]
    intro key member
    obtain ⟨entry, inEntries, rfl⟩ := List.mem_map.mp member
    obtain ⟨field, inFields, rfl⟩ := List.mem_map.mp (permuted.mem_iff.mp inEntries)
    simp [known field inFields]
  rw [rejectUnknownWrapperFields, nothing]
  rfl

/-- A loader sees the text in its file. -/
theorem inputText_written {world : World} {path : String} (file : path ≠ "-")
    (there : world.files path = .ok (utf8 (artifactText libraries fields)))
    (fits : len (artifactText libraries fields) ≤ maxInputFileBytes) :
    inputText path world = .ok (artifactText libraries fields) := by
  have small : ¬ maxInputFileBytes < (utf8 (artifactText libraries fields)).length := not_lt.mpr fits
  rw [inputText, if_neg file, there, fileText, if_neg small, fromUtf8_utf8]

end

/-! ## Loading what was written -/

section
variable {libraries : Libraries} {primitives : Primitives} {path label : String}

theorem verifyId_idWith (kind : String) (canonical : Bytes) :
    verifyId primitives kind (idWith primitives kind canonical) canonical = .ok () := by
  have stripped : strip (idWith primitives kind canonical) (kind ++ ":v1:") =
      some (b64uNopad (primitives.sha256 canonical).1) := strip_append _ _
  have decoded : b64uDecode primitives (b64uNopad (primitives.sha256 canonical).1) =
      .ok (primitives.sha256 canonical).1 := b64uDecode_eq_ok.mpr rfl
  rw [verifyId, stripped]
  simp only [decoded, ok_bind]
  rw [if_neg (not_not.mpr rfl), if_neg (not_not.mpr (primitives.sha256 canonical).2), if_neg (not_not.mpr rfl)]

theorem verifyMember_idWith {α : Type} {kind : String} {parse : Limits → CborValue → Result α} {canonical : Bytes}
    {limits : Limits} {content : α} (read : (decodeStrict canonical limits >>= parse limits) = .ok content) :
    verifyMember primitives kind parse canonical (some (idWith primitives kind canonical)) limits =
      .ok (content, idWith primitives kind canonical) := by
  obtain ⟨value, decoded, parsed⟩ := bind_eq_ok.mp read
  simp only [verifyMember, decodeAndCheckCanonical_eq, decoded, parsed, ok_bind, verifyId_idWith]

theorem wrappedBytes_of_get {json : Json} {canonical : Bytes}
    (got : json.get "cbor" = some (.string (Hex.encode canonical))) :
    wrappedBytes libraries path json = .ok canonical := by
  simp [wrappedBytes, Json.strField, got, Json.asStr]

theorem optStr_of_get {json : Json} {key text : String} (got : json.get key = some (.string text)) :
    optStr json path key = .ok (some text) := by
  simp [optStr, got, Json.asStr]

theorem memberOfText_written {α : Type} {allowed : List String} {kind what : String}
    {parse : Limits → CborValue → Result α} {canonical : Bytes} {content : α} {id : String}
    (known : ∀ name ∈ ["kind", "id", "cbor"], name ∈ allowed) (named : id = idWith primitives kind canonical)
    (reads : ReadsWrapper libraries (wrappedMember what id canonical))
    (read : (decodeStrict canonical Limits.default >>= parse Limits.default) = .ok content) :
    memberOfText libraries primitives allowed kind parse path label
      (artifactText libraries (wrappedMember what id canonical)) = .ok content := by
  subst named
  obtain ⟨⟨entries, parses, permuted⟩, _⟩ := reads
  obtain ⟨value, decoded, parsed⟩ := bind_eq_ok.mp read
  have distinct : ((wrappedMember what (idWith primitives kind canonical) canonical).map Prod.fst).Nodup := by
    simp [wrappedMember]
  have allKnown : ∀ field ∈ wrappedMember what (idWith primitives kind canonical) canonical, field.1 ∈ allowed := by
    simpa [wrappedMember] using known
  have bytes := @wrappedBytes_of_get libraries path (.object entries) canonical
    (get_of_perm permuted distinct "cbor" (by simp [wrappedMember]))
  have id := @optStr_of_get path (.object entries) "id" (idWith primitives kind canonical)
    (get_of_perm permuted distinct "id" (by simp [wrappedMember]))
  simp only [memberOfText, parseJson, parses, ok_bind, rejectUnknown_of_perm permuted allKnown, bytes, id,
    labelled_eq_ok.mpr (verifyMember_idWith read), labelled_eq_ok.mpr decoded, labelled_eq_ok.mpr parsed]

theorem verifyAttestation_attest {content : AttestationContent} {key : Ed25519Key} {created : CreatedAttestation}
    (genuine : key.Genuine primitives) (done : attest primitives content key Limits.default = .ok created)
    (fits : created.canonical.length ≤ Limits.default.maxFieldSize.toNat) :
    verifyAttestation primitives created.sign1 created.content.issuer .strict Limits.default =
      .ok (created.content, created.id) := by
  obtain ⟨issuer, spelled, read, named, signed⟩ := attest_eq_ok done
  obtain ⟨value, decoded, parsed⟩ := bind_eq_ok.mp read
  have permitted : AllowedAlgs.strict.ed25519 = true := rfl
  have id : attestationId primitives created.canonical = created.id := by rw [named, attestationMemberId, spelled]
  have verified := @verifySign1_signEd25519 primitives created.canonical key .strict genuine permitted fits
  have payload : (signedParts created.canonical key).payload = created.canonical := rfl
  simp only [verifyAttestation, signed, issuer, verified, ok_bind, payload, decodeAndCheckCanonical_eq, decoded, parsed]
  rw [if_neg (not_not.mpr rfl), id]

theorem attestationOfText_written {content : AttestationContent} {key : Ed25519Key} {created : CreatedAttestation}
    (genuine : key.Genuine primitives) (done : attest primitives content key Limits.default = .ok created)
    (fits : created.canonical.length ≤ Limits.default.maxFieldSize.toNat)
    (reads : ReadsWrapper libraries (wrappedAttestation created)) :
    attestationOfText libraries primitives path label (artifactText libraries (wrappedAttestation created)) =
      .ok created := by
  obtain ⟨⟨entries, parses, permuted⟩, _⟩ := reads
  obtain ⟨_, spelled, read, _, _⟩ := attest_eq_ok done
  obtain ⟨value, decoded, parsed⟩ := bind_eq_ok.mp read
  have distinct : ((wrappedAttestation created).map Prod.fst).Nodup := by simp [wrappedAttestation]
  have known : ∀ field ∈ wrappedAttestation created, field.1 ∈ attestationWrapperAllowed := by
    simp [wrappedAttestation, attestationWrapperAllowed]
  have sign1 : wrappedSign1 label (.object entries) = .ok (b64uNopad created.sign1) := by
    have got : (Json.object entries).get "sign1_b64" = some (.string (b64uNopad created.sign1)) :=
      get_of_perm permuted distinct "sign1_b64" (by simp [wrappedAttestation])
    simp [wrappedSign1, got, Json.asStr]
  have bytes := @wrappedBytes_of_get libraries path (.object entries) created.canonical
    (get_of_perm permuted distinct "cbor" (by simp [wrappedAttestation]))
  have envelope : b64uDecode primitives (b64uNopad created.sign1) = .ok created.sign1 := b64uDecode_eq_ok.mpr rfl
  have issuer : wrappedIssuer (.object entries) path = .ok created.content.issuer := by
    simp only [wrappedIssuer, @optStr_of_get path (.object entries) "issuer" created.content.issuer
      (get_of_perm permuted distinct "issuer" (by simp [wrappedAttestation])), ok_bind]
  have id : checkWrappedId (.object entries) path created.id = .ok () := by
    simp only [checkWrappedId, @optStr_of_get path (.object entries) "id" created.id
      (get_of_perm permuted distinct "id" (by simp [wrappedAttestation])), ok_bind]
    exact if_neg (not_not.mpr rfl)
  simp only [attestationOfText, parseJson, parses, ok_bind, rejectUnknown_of_perm permuted known, sign1, bytes,
    labelled_eq_ok.mpr envelope, issuer, labelled_eq_ok.mpr (verifyAttestation_attest genuine done fits), id,
    labelled_eq_ok.mpr decoded]
  rw [if_neg (not_not.mpr (decodeStrict_sound decoded).1.symm)]
  simp only [labelled_eq_ok.mpr parsed, ok_bind]
  exact if_neg (not_not.mpr rfl)

theorem statusOfText_written {content : AttestationContent} {key : Ed25519Key} {created : CreatedAttestation}
    (genuine : key.Genuine primitives) (done : attest primitives content key Limits.default = .ok created)
    (fits : created.canonical.length ≤ Limits.default.maxFieldSize.toNat)
    (status : (claimKind created.content).isStatus = true)
    (reads : ReadsWrapper libraries (wrappedStatus created)) :
    statusOfText libraries primitives path label (artifactText libraries (wrappedStatus created)) =
      .ok { content := created.content, sign1 := created.sign1 } := by
  obtain ⟨⟨entries, parses, permuted⟩, _⟩ := reads
  have distinct : ((wrappedStatus created).map Prod.fst).Nodup := by simp [wrappedStatus]
  have known : ∀ field ∈ wrappedStatus created, field.1 ∈ statusWrapperAllowed := by
    simp [wrappedStatus, statusWrapperAllowed]
  have sign1 : (Json.object entries).get "sign1_b64" = some (.string (b64uNopad created.sign1)) :=
    get_of_perm permuted distinct "sign1_b64" (by simp [wrappedStatus])
  have issuer : (Json.object entries).get "issuer" = some (.string created.content.issuer) :=
    get_of_perm permuted distinct "issuer" (by simp [wrappedStatus])
  have envelope : b64uDecode primitives (b64uNopad created.sign1) = .ok created.sign1 := b64uDecode_eq_ok.mpr rfl
  have verified : verifyStatusObject primitives created.sign1 created.content.issuer .strict Limits.default =
      .ok created.content := by
    simp only [verifyStatusObject, verifyAttestation_attest genuine done fits, ok_bind, status]
    rfl
  simp only [statusOfText, parseJson, parses, ok_bind, rejectUnknown_of_perm permuted known, sign1, Option.orElse_some,
    Option.bind_some, Json.asStr, envelope, Json.strField, issuer, labelled_eq_ok.mpr verified]

end

/-! ## Commands and artifacts -/

/-- The creating commands. -/
inductive Creation where
  | createEvent
  | attest
  | addEvidence
  | relate
  | status (kind : String)
  deriving DecidableEq, Repr

inductive Artifact where
  | event (created : CreatedEvent)
  | attestation (created : CreatedAttestation)
  | evidence (created : CreatedEvidence)
  | relationship (created : CreatedRelationship)
  | status (created : CreatedAttestation)
  deriving DecidableEq, Repr

namespace Artifact

def wrapped : Artifact → WrapperFields
  | .event created => wrappedMember "event" created.id created.canonical
  | .attestation created => wrappedAttestation created
  | .evidence created => wrappedMember "evidence" created.id created.canonical
  | .relationship created => wrappedMember "relationship" created.id created.canonical
  | .status created => wrappedStatus created

/-- What is signed, where something is, is no longer than the verifier reads. -/
def Fits : Artifact → Prop
  | .attestation created | .status created => created.canonical.length ≤ Limits.default.maxFieldSize.toNat
  | _ => True

section
variable (libraries : Libraries) (primitives : Primitives) (fromSeed : Seed → Ed25519Key)

/-- The file at `path` is loaded as this artifact. -/
def LoadsFrom (path : String) (world : World) : Artifact → Prop
  | .event created => loadEvent libraries primitives path world = .ok created.content world
  | .attestation created => loadAttestation libraries primitives path world = .ok created world
  | .evidence created => loadEvidence libraries primitives path world = .ok created.content world
  | .relationship created => loadRelationship libraries primitives path world = .ok created.content world
  | .status created =>
    loadStatus libraries primitives path world = .ok { content := created.content, sign1 := created.sign1 } world

/-- Canonical bytes under their id; what is signed is signed by a key that can be loaded. -/
def Made : Artifact → Prop
  | .event created => created.id = idWith primitives IdKind.event created.canonical ∧
      (decodeStrict created.canonical Limits.default >>= cborToEvent Limits.default) = .ok created.content
  | .attestation created => ∃ content seed, ProofEngine.attest primitives content (fromSeed seed) Limits.default =
      .ok created
  | .evidence created => created.id = idWith primitives IdKind.evidence created.canonical ∧
      (decodeStrict created.canonical Limits.default >>= cborToEvidence Limits.default) = .ok created.content
  | .relationship created => created.id = idWith primitives IdKind.rel created.canonical ∧
      (decodeStrict created.canonical Limits.default >>= cborToRelationship Limits.default) = .ok created.content
  | .status created => (claimKind created.content).isStatus = true ∧ ∃ content seed,
      ProofEngine.attest primitives content (fromSeed seed) Limits.default = .ok created

end

end Artifact

section
variable {libraries : Libraries} {primitives : Primitives} {fromSeed : Seed → Ed25519Key}

/-- A file that holds the text of an artifact is loaded as that artifact. -/
theorem Artifact.Made.loads {artifact : Artifact} (genuine : ∀ seed, (fromSeed seed).Genuine primitives)
    (made : artifact.Made primitives fromSeed) (fits : artifact.Fits) (reads : ReadsWrapper libraries artifact.wrapped)
    {path : String} {world : World} (file : path ≠ "-")
    (there : world.files path = .ok (utf8 (artifactText libraries artifact.wrapped))) :
    artifact.LoadsFrom libraries primitives path world := by
  have input := inputText_written file there reads.fits
  -- every loader reads the text and parses it
  have loads : ∀ {α : Type} (parse : String → String → Except String α) {value : α},
      parse (wrapperLabel path) (artifactText libraries artifact.wrapped) = .ok value →
        (readInputText path >>= fun input => Command.of (parse input.2 input.1)) world = .ok value world := by
    intro α parse value parsed
    rw [load_eq parse, World.afterRead_file file, input, ok_bind, parsed]
    rfl
  cases artifact with
  | event created =>
    obtain ⟨named, read⟩ := made
    exact loads (memberOfText libraries primitives _ _ _ path)
      (memberOfText_written (by simp [eventWrapperAllowed]) named reads read)
  | attestation created =>
    obtain ⟨content, seed, done⟩ := made
    exact loads (attestationOfText libraries primitives path)
      (attestationOfText_written (genuine seed) done fits reads)
  | evidence created =>
    obtain ⟨named, read⟩ := made
    exact loads (memberOfText libraries primitives _ _ _ path)
      (memberOfText_written (by simp [evidenceWrapperAllowed]) named reads read)
  | relationship created =>
    obtain ⟨named, read⟩ := made
    exact loads (memberOfText libraries primitives _ _ _ path)
      (memberOfText_written (by simp [relationshipWrapperAllowed]) named reads read)
  | status created =>
    obtain ⟨status, content, seed, done⟩ := made
    exact loads (statusOfText libraries primitives path)
      (statusOfText_written (genuine seed) done fits status reads)

/-! ## One command -/

/-- The worlds differ in standard input only. -/
def World.SameFiles (world after : World) : Prop := after.files = world.files ∧ after.writeError = world.writeError

theorem World.SameFiles.refl (world : World) : world.SameFiles world := ⟨rfl, rfl⟩

theorem readInputBytes_sameFiles {path : String} {world after : World} {bytes : Bytes}
    (done : readInputBytes path world = .ok bytes after) : world.SameFiles after := by
  simp only [readInputBytes] at done
  split at done
  · split at done
    · cases done
    · cases done
      exact ⟨rfl, rfl⟩
  · split at done
    · cases done
    · split at done
      · cases done
      · cases done
        exact .refl _

theorem digestInput_sameFiles {cli : Cli} {command fileFlag hexFlag : String} {world after : World} {hash : HashRef}
    (done : digestInput libraries primitives cli command fileFlag hexFlag world = .ok hash after) :
    world.SameFiles after := by
  unfold digestInput at done
  cases named : cli.opt fileFlag with
  | some path =>
    simp only [named] at done
    obtain ⟨bytes, middle, read, hashed⟩ := Command.bind_eq_ok.mp done
    obtain ⟨_, rfl⟩ := Command.of_eq_ok.mp hashed
    rw [Command.under] at read
    split at read
    · rename_i readBytes
      cases read
      exact readInputBytes_sameFiles readBytes
    · cases read
  | none =>
    simp only [named] at done
    cases spelled : cli.req hexFlag with
    | ok hex =>
      simp only [spelled] at done
      obtain ⟨_, rfl⟩ := Command.of_eq_ok.mp done
      exact .refl _
    | error message =>
      simp only [spelled] at done
      exact absurd done Command.throw_ne_ok

theorem loadKeyMaterial_eq_ok {seed what : String} {key : Ed25519Key}
    (done : loadKeyMaterial libraries fromSeed seed what = .ok key) : ∃ seed, key = fromSeed seed := by
  rw [loadKeyMaterial] at done
  split at done
  · cases done
    exact ⟨_, rfl⟩
  · split at done
    · cases done
    · split at done
      · cases done
        exact ⟨_, rfl⟩
      · cases done

theorem loadKeyOpt_eq_ok {cli : Cli} {world after : World} {key : Ed25519Key}
    (done : loadKeyOpt libraries fromSeed cli world = .ok key after) : after = world ∧ ∃ seed, key = fromSeed seed := by
  unfold loadKeyOpt at done
  cases spelled : cli.opt "seed" with
  | none =>
    cases named : cli.opt "seed-file" with
    | none =>
      simp only [spelled, named] at done
      exact absurd done Command.throw_ne_ok
    | some path =>
      simp only [spelled, named] at done
      obtain ⟨seed, middle, read, loaded⟩ := Command.bind_eq_ok.mp done
      obtain ⟨material, rfl⟩ := Command.of_eq_ok.mp loaded
      obtain ⟨_, rfl⟩ := Command.of_eq_ok.mp read
      exact ⟨rfl, loadKeyMaterial_eq_ok material⟩
  | some seed =>
    cases named : cli.opt "seed-file" with
    | some path =>
      simp only [spelled, named] at done
      exact absurd done Command.throw_ne_ok
    | none =>
      simp only [spelled, named] at done
      by_cases production : cli.has "production" = true
      · rw [if_pos production] at done
        exact absurd done Command.throw_ne_ok
      · rw [if_neg production] at done
        obtain ⟨material, rfl⟩ := Command.of_eq_ok.mp done
        exact ⟨rfl, loadKeyMaterial_eq_ok material⟩

/-- The world in which `--out` holds the text; standard output is no file. -/
def World.withOutput (world : World) (out text : String) : World := if out = "-" then world else world.written out text

theorem writeArtifact_eq_ok {α : Type} {cli : Cli} {fields : α → WrapperFields} {result : Except String α} {created : α}
    {world after : World} (done : writeArtifact libraries cli fields result world = .ok created after) :
    result = .ok created ∧ ∃ out, cli.req "out" = .ok out ∧
      after = world.withOutput out (artifactText libraries (fields created)) := by
  obtain ⟨made, _, madeDone, done⟩ := Command.bind_eq_ok.mp done
  obtain ⟨result, rfl⟩ := Command.of_eq_ok.mp madeDone
  obtain ⟨out, _, outDone, done⟩ := Command.bind_eq_ok.mp done
  obtain ⟨named, rfl⟩ := Command.of_eq_ok.mp outDone
  obtain ⟨_, middle, written, done⟩ := Command.bind_eq_ok.mp done
  obtain ⟨rfl, rfl⟩ := Command.pure_eq_ok.mp done
  refine ⟨result, out, named, ?_⟩
  rw [writeJson] at written
  rw [World.withOutput]
  split at written
  · rename_i piped
    obtain ⟨_, rfl⟩ := Command.pure_eq_ok.mp written
    rw [if_pos piped]
  · rename_i file
    rw [if_neg file]
    rw [writeFile] at written
    split at written
    · cases written
    · cases written
      rfl

end

/-- A creating command with its flags. -/
def Creation.run (libraries : Libraries) (primitives : Primitives) (fromSeed : Seed → Ed25519Key) (cli : Cli) :
    Creation → Command Artifact
  | .createEvent => Artifact.event <$> writeEvent libraries primitives cli
  | .attest => Artifact.attestation <$> writeAttestation libraries primitives fromSeed cli
  | .addEvidence => Artifact.evidence <$> writeEvidence libraries primitives cli
  | .relate => Artifact.relationship <$> writeRelationship libraries primitives cli
  | .status kind => Artifact.status <$> writeStatusObject libraries primitives fromSeed cli kind

section
variable {libraries : Libraries} {primitives : Primitives} {fromSeed : Seed → Ed25519Key}

theorem createEvent_made {content : EventContent} {created : CreatedEvent}
    (done : createEvent primitives content Limits.default = .ok created) :
    (Artifact.event created).Made primitives fromSeed := by
  rw [createEvent] at done
  split at done
  · cases done
  · obtain ⟨value, _, done⟩ := bind_eq_ok.mp done
    obtain ⟨canonical, written, done⟩ := bind_eq_ok.mp done
    cases done
    exact ⟨rfl, (createMember_eq_ok written).2⟩

theorem makeEvidence_made {kind : String} {digest : HashRef} {attestationRef hint : Option String}
    {created : CreatedEvidence}
    (done : makeEvidence primitives kind digest attestationRef hint Limits.default = .ok created) :
    (Artifact.evidence created).Made primitives fromSeed := by
  simp only [makeEvidence, bind_eq_ok] at done
  obtain ⟨_, _, canonical, written, done⟩ := done
  cases done
  exact ⟨rfl, (createMember_eq_ok written).2⟩

theorem makeRelationship_made {content : Relationship} {created : CreatedRelationship}
    (done : makeRelationship primitives content Limits.default = .ok created) :
    (Artifact.relationship created).Made primitives fromSeed := by
  rw [makeRelationship] at done
  split at done
  · cases done
  · obtain ⟨canonical, written, done⟩ := bind_eq_ok.mp done
    cases done
    exact ⟨rfl, (createMember_eq_ok written).2⟩

theorem targetAttestation_attest {claimType target : String} {fields : List (String × MetaValue)}
    {reason : Option String} {key : Ed25519Key} {issuedAt : UInt64} {created : CreatedAttestation}
    (done : targetAttestation primitives claimType target fields reason key issuedAt Limits.default = .ok created) :
    ∃ content, attest primitives content key Limits.default = .ok created := by
  rw [targetAttestation] at done
  split at done
  · cases done
  · obtain ⟨stated, _, done⟩ := bind_eq_ok.mp done
    exact ⟨_, done⟩

theorem isStatus_of_claimType {content : AttestationContent} {claimType : String}
    (claimed : content.claim.claimType = claimType)
    (member : claimType ∈ [ClaimType.revoke, ClaimType.supersede, ClaimType.withdraw, ClaimType.compromise]) :
    (claimKind content).isStatus = true := by
  rw [claimKind, claimed]
  simp only [List.mem_cons, List.not_mem_nil, or_false] at member
  rcases member with rfl | rfl | rfl | rfl
  · decide
  · decide
  · decide
  · decide

theorem statusRequest_made {request : StatusRequest} {seed : Seed} {issuedAt : UInt64} {created : CreatedAttestation}
    (done : request.build primitives (fromSeed seed) issuedAt Limits.default = .ok created) :
    (Artifact.status created).Made primitives fromSeed := by
  have status := @isStatus_of_claimType created.content
  cases request with
  | revoke target reason =>
    obtain ⟨content, attested⟩ := targetAttestation_attest done
    exact ⟨status (targetAttestation_eq_ok done).2.1 (by simp), content, seed, attested⟩
  | withdraw target reason =>
    obtain ⟨content, attested⟩ := targetAttestation_attest done
    exact ⟨status (targetAttestation_eq_ok done).2.1 (by simp), content, seed, attested⟩
  | compromise target atTime reason =>
    obtain ⟨content, attested⟩ := targetAttestation_attest done
    exact ⟨status (targetAttestation_eq_ok done).2.1 (by simp), content, seed, attested⟩
  | supersede old new =>
    change supersedeAttestation _ _ _ _ _ _ = _ at done
    rw [supersedeAttestation] at done
    split at done
    · cases done
    · split at done
      · cases done
      · have claimed := congrArg (fun content : AttestationContent => content.claim.claimType) (attest_content done)
        exact ⟨status claimed (by simp), _, seed, done⟩

theorem Command.map_eq_ok {α β : Type} {command : Command α} {wrap : α → β} {world after : World} {result : β} :
    (wrap <$> command) world = .ok result after ↔ ∃ value, command world = .ok value after ∧ wrap value = result := by
  change EStateM.map wrap command world = _ ↔ _
  cases done : command world with
  | ok value middle => simp [EStateM.map, done, and_comm]
  | error message middle => simp [EStateM.map, done]

/-- What a creating command makes, and the one file it writes. -/
theorem Creation.run_eq_ok {creation : Creation} {cli : Cli} {artifact : Artifact} {world after : World}
    (done : creation.run libraries primitives fromSeed cli world = .ok artifact after) :
    artifact.Made primitives fromSeed ∧ ∃ middle out, world.SameFiles middle ∧ cli.req "out" = .ok out ∧
      after = middle.withOutput out (artifactText libraries artifact.wrapped) := by
  cases creation with
  | createEvent =>
    obtain ⟨created, wrote, rfl⟩ := Command.map_eq_ok.mp done
    obtain ⟨payloadRef, middle, digested, wrote⟩ := Command.bind_eq_ok.mp wrote
    obtain ⟨content, _, stated, wrote⟩ := Command.bind_eq_ok.mp wrote
    obtain ⟨_, rfl⟩ := Command.of_eq_ok.mp stated
    obtain ⟨made, out, named, written⟩ := writeArtifact_eq_ok wrote
    exact ⟨createEvent_made (labelled_eq_ok.mp made), _, out, digestInput_sameFiles digested, named, written⟩
  | attest =>
    obtain ⟨created, wrote, rfl⟩ := Command.map_eq_ok.mp done
    obtain ⟨key, _, loaded, wrote⟩ := Command.bind_eq_ok.mp wrote
    obtain ⟨rfl, seed, rfl⟩ := loadKeyOpt_eq_ok loaded
    obtain ⟨content, _, stated, wrote⟩ := Command.bind_eq_ok.mp wrote
    obtain ⟨_, rfl⟩ := Command.of_eq_ok.mp stated
    obtain ⟨made, out, named, written⟩ := writeArtifact_eq_ok wrote
    exact ⟨⟨content, seed, labelled_eq_ok.mp made⟩, _, out, .refl _, named, written⟩
  | addEvidence =>
    obtain ⟨created, wrote, rfl⟩ := Command.map_eq_ok.mp done
    obtain ⟨digest, middle, digested, wrote⟩ := Command.bind_eq_ok.mp wrote
    obtain ⟨_, _, checked, wrote⟩ := Command.bind_eq_ok.mp wrote
    obtain ⟨_, rfl⟩ := Command.of_eq_ok.mp checked
    obtain ⟨kind, _, kinded, wrote⟩ := Command.bind_eq_ok.mp wrote
    obtain ⟨_, rfl⟩ := Command.of_eq_ok.mp kinded
    obtain ⟨made, out, named, written⟩ := writeArtifact_eq_ok wrote
    exact ⟨makeEvidence_made (labelled_eq_ok.mp made), _, out, digestInput_sameFiles digested, named, written⟩
  | relate =>
    obtain ⟨created, wrote, rfl⟩ := Command.map_eq_ok.mp done
    obtain ⟨content, _, stated, wrote⟩ := Command.bind_eq_ok.mp wrote
    obtain ⟨_, rfl⟩ := Command.of_eq_ok.mp stated
    obtain ⟨made, out, named, written⟩ := writeArtifact_eq_ok wrote
    exact ⟨makeRelationship_made (labelled_eq_ok.mp made), _, out, .refl _, named, written⟩
  | status kind =>
    obtain ⟨created, wrote, rfl⟩ := Command.map_eq_ok.mp done
    obtain ⟨key, _, loaded, wrote⟩ := Command.bind_eq_ok.mp wrote
    obtain ⟨rfl, seed, rfl⟩ := loadKeyOpt_eq_ok loaded
    obtain ⟨issuedAt, _, timed, wrote⟩ := Command.bind_eq_ok.mp wrote
    obtain ⟨_, rfl⟩ := Command.of_eq_ok.mp timed
    obtain ⟨request, _, requested, wrote⟩ := Command.bind_eq_ok.mp wrote
    obtain ⟨_, rfl⟩ := Command.of_eq_ok.mp requested
    obtain ⟨made, out, named, written⟩ := writeArtifact_eq_ok wrote
    exact ⟨statusRequest_made (labelled_eq_ok.mp made), _, out, .refl _, named, written⟩

theorem World.withOutput_files {world : World} {out text path : String} (other : path ≠ "-" → out ≠ path) :
    (world.withOutput out text).files path = world.files path := by
  rw [World.withOutput]
  split
  · rfl
  · rename_i file
    by_cases same : out = path
    · exact absurd same (other (same ▸ file))
    · exact Function.update_of_ne (Ne.symm same) _ _

theorem World.withOutput_self {world : World} {out text : String} (file : out ≠ "-") :
    (world.withOutput out text).files out = .ok (utf8 text) := by
  rw [World.withOutput, if_neg file]
  exact Function.update_self ..

end

/-! ## Runs -/

/-- A command that was given, and the artifact it made. -/
structure CreationStep where
  creation : Creation
  cli : Cli
  artifact : Artifact

/-- The step writes the file. -/
def CreationStep.Writes (step : CreationStep) (path : String) : Prop := step.cli.req "out" = .ok path

/-- Creating commands one after the other; what comes between them leaves their files alone. -/
inductive CreationRun (libraries : Libraries) (primitives : Primitives) (fromSeed : Seed → Ed25519Key) :
    World → List CreationStep → World → Prop where
  | nil (world : World) : CreationRun libraries primitives fromSeed world [] world
  | step {world between next after : World} {step : CreationStep} {steps : List CreationStep}
      (kept : between.files = world.files)
      (done : step.creation.run libraries primitives fromSeed step.cli between = .ok step.artifact next)
      (rest : CreationRun libraries primitives fromSeed next steps after) :
      CreationRun libraries primitives fromSeed world (step :: steps) after

section
variable {libraries : Libraries} {primitives : Primitives} {fromSeed : Seed → Ed25519Key}

theorem CreationRun.frame {world after : World} {steps : List CreationStep}
    (run : CreationRun libraries primitives fromSeed world steps after) {path : String}
    (other : ∀ step ∈ steps, ¬ step.Writes path) : after.files path = world.files path := by
  induction run with
  | nil world => rfl
  | step kept done rest inductionHypothesis =>
    obtain ⟨here, later⟩ := List.forall_mem_cons.mp other
    obtain ⟨_, middle, out, same, named, rfl⟩ := Creation.run_eq_ok done
    have untouched : path ≠ "-" → out ≠ path := by
      rintro _ rfl
      exact here named
    rw [inductionHypothesis later, World.withOutput_files untouched, same.1, kept]

end

/-! ## An attestation that is made -/

/-- The keys and values of a flat object, each behind its lead. -/
def wrapperPieces (lead : String) : WrapperFields → List (List Char × String)
  | [] => []
  | (name, text) :: fields => (lead.toList, name) :: (": ".toList, text) :: wrapperPieces ",\n  " fields

def pairUp : List String → Option WrapperFields
  | [] => some []
  | [_] => none
  | name :: text :: texts => (pairUp texts).map fun fields => (name, text) :: fields

/-- Libraries that write and read flat objects of texts. -/
def artifactLibraries : Libraries where
  fromStr text :=
    match (QuotedText.quotedTexts (text.toList.length + 1) text.toList).bind pairUp with
    | some (field :: fields) => .ok (wrapper (field :: fields))
    | _ => .error "expected value at line 1 column 1"
  fromStr_empty := ⟨_, rfl⟩
  toStringPretty json :=
    match json with
    | .object entries =>
      String.ofList (QuotedText.document
        (wrapperPieces "\x7b\n  " (entries.map fun entry => (entry.1, entry.2.asStr.getD ""))) "\n\x7d".toList)
    | _ => "null"
  hexError _ := "Invalid character"

theorem pairUp_wrapperPieces (lead : String) (fields : WrapperFields) :
    pairUp ((wrapperPieces lead fields).map Prod.snd) = some fields := by
  induction fields generalizing lead with
  | nil => rfl
  | cons field fields inductionHypothesis =>
    rw [wrapperPieces, List.map_cons, List.map_cons, pairUp, inductionHypothesis]
    rfl

theorem wrapperPieces_unquoted {lead : String} (opening : QuotedText.Unquoted lead.toList) (fields : WrapperFields) :
    ∀ piece ∈ wrapperPieces lead fields, QuotedText.Unquoted piece.1 := by
  have quiet : ∀ piece ∈ [": ", ",\n  "], '"' ∉ piece.toList := by decide +kernel
  simp only [List.forall_mem_cons] at quiet
  obtain ⟨colon, comma, _⟩ := quiet
  induction fields generalizing lead with
  | nil =>
    intro piece member
    cases member
  | cons field fields inductionHypothesis =>
    rw [wrapperPieces]
    exact List.forall_mem_cons.mpr ⟨opening, List.forall_mem_cons.mpr ⟨colon, inductionHypothesis comma⟩⟩

theorem toList_artifactText (fields : WrapperFields) :
    (artifactText artifactLibraries fields).toList =
      QuotedText.document (wrapperPieces "\x7b\n  " fields) "\n\x7d\n".toList := by
  have texts : (fields.map fun field => (field.1, Json.string field.2)).map
      (fun entry => (entry.1, entry.2.asStr.getD "")) = fields := by
    rw [List.map_map]
    exact List.map_id'' (fun _ => rfl) fields
  simp only [artifactText, artifactLibraries, wrapper, texts, String.toList_append, String.toList_ofList,
    QuotedText.document, List.append_assoc]
  rfl

/-- Room for a key and a value, every character of which may be escaped. -/
def fieldRoom (field : String × String) : Nat := 2 * field.1.toList.length + 2 * field.2.toList.length + 10

theorem length_wrapperPieces_le {lead : String} (short : lead.toList.length ≤ 4) (fields : WrapperFields) :
    ((wrapperPieces lead fields).flatMap fun piece => piece.1 ++ QuotedText.quote piece.2).length ≤
      (fields.map fieldRoom).sum := by
  induction fields generalizing lead with
  | nil => exact Nat.zero_le _
  | cons field fields inductionHypothesis =>
    have later := @inductionHypothesis ",\n  " (by decide)
    have name := QuotedText.length_escape_le field.1.toList
    have text := QuotedText.length_escape_le field.2.toList
    have colon : (": ".toList).length = 2 := by decide
    simp only [wrapperPieces, List.flatMap_cons, List.length_append, QuotedText.quote, List.length_cons,
      List.length_nil, List.map_cons, List.sum_cons, fieldRoom, colon] at later ⊢
    omega

theorem artifactLibraries_reads {fields : WrapperFields} (filled : fields ≠ [])
    (small : (fields.map fieldRoom).sum ≤ 2 ^ 20) : ReadsWrapper artifactLibraries fields where
  fits := by
    have bounded := len_ofList_le (artifactText artifactLibraries fields).toList
    have room := length_wrapperPieces_le (show ("\x7b\n  ".toList).length ≤ 4 by decide) fields
    have tail : ("\n\x7d\n".toList).length = 3 := by decide
    rw [String.ofList_toList, toList_artifactText, QuotedText.document, List.length_append, tail] at bounded
    rw [maxInputFileBytes]
    omega
  parses := by
    have quiet : ∀ piece ∈ ["\x7b\n  ", "\n\x7d\n"], '"' ∉ piece.toList := by decide +kernel
    simp only [List.forall_mem_cons] at quiet
    obtain ⟨opening, closing, _⟩ := quiet
    have chars := toList_artifactText fields
    have read := QuotedText.quotedTexts_of_document (wrapperPieces_unquoted opening fields) closing
    refine ⟨fields.map fun field => (field.1, .string field.2), ?_, .refl _⟩
    simp only [artifactLibraries] at chars ⊢
    rw [chars, read, Option.bind_some, pairUp_wrapperPieces]
    cases fields with
    | nil => exact absurd rfl filled
    | cons field fields => rfl

def attestFlags : Cli where
  values := [("seed", "test"), ("subject", "acct:2"), ("claim-type", "settled"), ("issued-at", "1700000000"),
    ("out", "attestation.json")]

def attestStep : CreationStep := ⟨.attest, attestFlags, .attestation signedAttestation⟩

/-- What the step leaves in the empty directory. -/
def attestedWorld : World :=
  emptyDirectory.withOutput "attestation.json" (artifactText artifactLibraries (wrappedAttestation signedAttestation))

theorem testSigner_genuine : testSigner.Genuine signingPrimitives :=
  ⟨rfl, fun _ => decide_eq_true (show secondSignature = secondSignature from rfl)⟩

theorem attestStep_run :
    CreationRun artifactLibraries signingPrimitives (fun _ => testSigner) emptyDirectory [attestStep]
      attestedWorld := by
  refine .step (show emptyDirectory.files = emptyDirectory.files from rfl) ?_ (.nil _)
  have key : loadKeyOpt artifactLibraries (fun _ => testSigner) attestFlags emptyDirectory =
      .ok testSigner emptyDirectory := rfl
  have content : attestationContent attestFlags testSigner = .ok (settledStatement "acct:2") := by decide +kernel
  have attested : attest signingPrimitives (settledStatement "acct:2") testSigner Limits.default =
      .ok signedAttestation := by decide +kernel
  have written : writeAttestation artifactLibraries signingPrimitives (fun _ => testSigner) attestFlags
      emptyDirectory = .ok signedAttestation attestedWorld := by
    refine (Command.bind_ok key _).trans ((Command.bind_ok (Command.of_eq_ok.mpr ⟨content, rfl⟩) _).trans ?_)
    rw [attested]
    rfl
  exact Command.map_eq_ok.mpr ⟨_, written, rfl⟩

theorem wrappedAttestation_room {created : CreatedAttestation} (id : created.id.toList.length ≤ 500)
    (issuer : created.content.issuer.toList.length ≤ 500) (payload : created.canonical.length ≤ 500)
    (envelope : created.sign1.length ≤ 500) : ((wrappedAttestation created).map fieldRoom).sum ≤ 2 ^ 20 := by
  have cbor := Hex.length_encode created.canonical
  have sign1 := Base64Url.length_encode created.sign1
  have names : (["kind", "id", "issuer", "cbor", "sign1_b64", "attestation"].map fun name => name.toList.length) =
      [4, 2, 6, 4, 9, 11] := by decide
  simp only [List.map_cons, List.map_nil, List.cons.injEq, and_true] at names
  simp only [wrappedAttestation, b64uNopad, List.map_cons, List.map_nil, List.sum_cons, List.sum_nil, fieldRoom, names]
  omega

theorem attestStep_reads : ReadsWrapper artifactLibraries attestStep.artifact.wrapped := by
  have id : signedAttestation.id.toList.length = IdKind.attestation.toList.length + 47 :=
    length_idWith signingPrimitives IdKind.attestation (statementBytes "acct:2")
  have kind : IdKind.attestation.toList.length = 3 := by decide
  have issuer : testIssuer.toList.length ≤ 500 := by decide +kernel
  have payload : (statementBytes "acct:2").length ≤ 500 := by decide +kernel
  have envelope : secondSign1.length ≤ 500 := by decide +kernel
  exact artifactLibraries_reads (List.cons_ne_nil _ _)
    (wrappedAttestation_room (by omega) issuer payload envelope)

theorem attestStep_fits : attestStep.artifact.Fits := by
  have small : (statementBytes "acct:2").length ≤ Limits.default.maxFieldSize.toNat := by decide +kernel
  exact small

end ProofEngine
