import ProofEngine.Cli.ArtifactSound
import ProofEngine.Verify.EvidencePrecedence

/-! # The build command

Artifact files go into one proof.  Whatever the files hold and whoever wrote them, a proof that the command writes has
the members of the listed files and no others, and the verifier finds no fault with its bytes, ids and signatures. -/

namespace ProofEngine

open Text StableSort

/-! ## The command -/

/-- One input after the other. -/
def Command.each {α : Type} (load : String → Command α) : List String → Command (List α)
  | [] => pure []
  | path :: paths => do
    let value ← load path
    let values ← Command.each load paths
    pure (value :: values)

/-- A list of inputs that may be left out. -/
def optInputList (cli : Cli) (name : String) : Except String (List String) :=
  if (cli.many name).isEmpty then .ok [] else inputList cli name

section
variable (libraries : Libraries) (primitives : Primitives)

def Cli.createdEvent (content : EventContent) : Except String CreatedEvent :=
  displayed (createEvent primitives content Limits.default)

def Cli.createdEvidence (content : Evidence) : Except String CreatedEvidence :=
  displayed (makeEvidence primitives content.kind content.digest content.attestationRef content.hint Limits.default)

def Cli.createdRelationship (content : Relationship) : Except String CreatedRelationship :=
  displayed (makeRelationship primitives content Limits.default)

/-- A loaded member is made again. -/
def remade {α β : Type} (load : String → Command α) (created : α → Except String β) (path : String) : Command β := do
  let content ← load path
  Command.of (created content)

/-- The members a builder is given, in the order of the lists. -/
def memberCalls (events : List CreatedEvent) (attestations : List CreatedAttestation) (evidence : List CreatedEvidence)
    (relationships : List CreatedRelationship) : List BuilderCall :=
  events.map .addEvent ++ attestations.map .addAttestation ++ evidence.map .addEvidence ++
    relationships.map .addRelationship

def build (cli : Cli) : Command BuiltProof := do
  let proposition ← Command.of (composeProposition cli)
  let createdAt ← Command.of (cli.reqU64 "created-at")
  let eventPaths ← Command.of (inputList cli "events")
  let events ← Command.each (remade (loadEvent libraries primitives) (Cli.createdEvent primitives)) eventPaths
  let attestationPaths ← Command.of (inputList cli "attestations")
  let attestations ← Command.each (loadAttestation libraries primitives) attestationPaths
  let evidencePaths ← Command.of (optInputList cli "evidence")
  let evidence ← Command.each (remade (loadEvidence libraries primitives) (Cli.createdEvidence primitives))
    evidencePaths
  let relationshipPaths ← Command.of (optInputList cli "relationships")
  let relationships ← Command.each
    (remade (loadRelationship libraries primitives) (Cli.createdRelationship primitives)) relationshipPaths
  let calls := memberCalls events attestations evidence relationships
  let built ← Command.of (labelled "build"
    ((builderOf primitives proposition createdAt calls).build primitives Limits.default))
  let out ← Command.of (cli.req "out")
  writeProofFile libraries out built.id built.canonical
  pure built

end

/-! ## What a list of files gives -/

/-- The values of the listed files, each as its loader finds it; the files are those of this world. -/
def LoadedFrom {α : Type} (load : String → Command α) (world : World) (paths : List String) (values : List α) : Prop :=
  List.Forall₂ (fun path value => ∃ before after, world.SameFiles before ∧ load path before = .ok value after) paths
    values

theorem each_eq_ok {α : Type} {load : String → Command α}
    (readsOnly : ∀ path world after value, load path world = .ok value after → world.SameFiles after)
    {paths : List String} {values : List α} {world after : World}
    (done : Command.each load paths world = .ok values after) :
    LoadedFrom load world paths values ∧ world.SameFiles after := by
  induction paths generalizing values world with
  | nil =>
    obtain ⟨rfl, rfl⟩ := Command.pure_eq_ok.mp done
    exact ⟨.nil, .refl _⟩
  | cons path paths inductionHypothesis =>
    obtain ⟨value, middle, here, done⟩ := Command.bind_eq_ok.mp done
    obtain ⟨rest, _, later, done⟩ := Command.bind_eq_ok.mp done
    obtain ⟨rfl, rfl⟩ := Command.pure_eq_ok.mp done
    have kept := readsOnly path world middle value here
    obtain ⟨loaded, keptLater⟩ := inductionHypothesis later
    refine ⟨.cons ⟨world, middle, .refl _, here⟩ (loaded.imp fun path value => ?_), kept.trans keptLater⟩
    rintro ⟨before, after, same, done⟩
    exact ⟨before, after, kept.trans same, done⟩

theorem each_cons_ok {α : Type} {load : String → Command α} {path : String} {paths : List String} {value : α}
    {values : List α} {world middle after : World} (here : load path world = .ok value middle)
    (later : Command.each load paths middle = .ok values after) :
    Command.each load (path :: paths) world = .ok (value :: values) after :=
  (Command.bind_ok here _).trans ((Command.bind_ok later _).trans rfl)

theorem remade_ok {α β : Type} {load : String → Command α} {created : α → Except String β} {path : String}
    {world after : World} {content : α} {value : β} (loads : load path world = .ok content after)
    (made : created content = .ok value) : remade load created path world = .ok value after :=
  (Command.bind_ok loads _).trans (Command.of_eq_ok.mpr ⟨made, rfl⟩)

section
variable {libraries : Libraries} {primitives : Primitives}

theorem loadMember_sameFiles {α : Type} {allowed : List String} {kind path : String}
    {parse : Limits → CborValue → Result α} {world after : World} {content : α}
    (done : loadMember libraries primitives allowed kind parse path world = .ok content after) :
    world.SameFiles after :=
  (loaded_eq_ok (memberOfText libraries primitives allowed kind parse path) done).2

theorem loadAttestation_sameFiles {path : String} {world after : World} {created : CreatedAttestation}
    (done : loadAttestation libraries primitives path world = .ok created after) : world.SameFiles after :=
  (loaded_eq_ok (attestationOfText libraries primitives path) done).2

theorem remade_eq_ok {α β : Type} {load : String → Command α} {created : α → Except String β} {path : String}
    {world after : World} {value : β} (done : remade load created path world = .ok value after) :
    ∃ content, load path world = .ok content after ∧ created content = .ok value := by
  obtain ⟨content, _, loaded, done⟩ := Command.bind_eq_ok.mp done
  obtain ⟨made, rfl⟩ := Command.of_eq_ok.mp done
  exact ⟨content, loaded, made⟩

/-- The contents of files whose members were made again. -/
theorem contents_of_remade {α β : Type} {load : String → Command α} {created : α → Except String β}
    {content : β → α} {world : World} {paths : List String} {values : List β}
    (unchanged : ∀ path before after found value, load path before = .ok found after → created found = .ok value →
      content value = found)
    (loaded : LoadedFrom (remade load created) world paths values) :
    LoadedFrom load world paths (values.map content) ∧ ∀ value ∈ values, ∃ found, created found = .ok value := by
  induction loaded with
  | nil =>
    refine ⟨.nil, fun value member => ?_⟩
    cases member
  | cons here later inductionHypothesis =>
    obtain ⟨before, after, same, done⟩ := here
    obtain ⟨found, loadedHere, made⟩ := remade_eq_ok done
    obtain ⟨rest, each⟩ := inductionHypothesis
    refine ⟨.cons ⟨before, after, same, ?_⟩ rest, List.forall_mem_cons.mpr ⟨⟨found, made⟩, each⟩⟩
    rw [unchanged _ _ _ _ _ loadedHere made]
    exact loadedHere

theorem createdEvent_content {content : EventContent} {created : CreatedEvent}
    (done : Cli.createdEvent primitives content = .ok created) : created.content = content := by
  have made := displayed_eq_ok.mp done
  rw [createEvent] at made
  split at made
  · cases made
  · obtain ⟨_, _, made⟩ := bind_eq_ok.mp made
    obtain ⟨_, _, made⟩ := bind_eq_ok.mp made
    cases made
    rfl

theorem createdEvidence_content {path : String} {before after : World} {content : Evidence} {created : CreatedEvidence}
    (loaded : loadEvidence libraries primitives path before = .ok content after)
    (done : Cli.createdEvidence primitives content = .ok created) : created.content = content := by
  have made := displayed_eq_ok.mp done
  simp only [makeEvidence, bind_eq_ok] at made
  obtain ⟨_, _, _, _, made⟩ := made
  obtain ⟨⟨text, _, parsed⟩, _⟩ := loaded_eq_ok
    (memberOfText libraries primitives evidenceWrapperAllowed IdKind.evidence cborToEvidence path) loaded
  obtain ⟨_, _, _, _, read⟩ := memberOfText_eq_ok parsed
  obtain ⟨value, _, shaped⟩ := bind_eq_ok.mp read
  have version : content.v = 1 := (cborToEvidence_bounded shaped).1
  cases made
  rw [← version]

theorem createdRelationship_content {content : Relationship} {created : CreatedRelationship}
    (done : Cli.createdRelationship primitives content = .ok created) : created.content = content := by
  have made := displayed_eq_ok.mp done
  rw [makeRelationship] at made
  split at made
  · cases made
  · obtain ⟨_, _, made⟩ := bind_eq_ok.mp made
    cases made
    rfl

end

/-! ## What the command writes -/

/-- The proof states what the flags state, with the members of the listed files. -/
structure BuiltFrom (libraries : Libraries) (primitives : Primitives) (cli : Cli) (world : World) (proof : Proof) :
    Prop where
  proposition : composeProposition cli = .ok proof.proposition
  createdAt : cli.reqU64 "created-at" = .ok proof.createdAt
  events : ∃ paths contents, inputList cli "events" = .ok paths ∧
    LoadedFrom (loadEvent libraries primitives) world paths contents ∧ proof.events.Perm contents
  attestations : ∃ paths signed, inputList cli "attestations" = .ok paths ∧
    LoadedFrom (loadAttestation libraries primitives) world paths signed ∧
      proof.attestations.Perm (signed.map fun attestation => ⟨attestation.content, attestation.sign1⟩)
  evidence : ∃ paths contents, optInputList cli "evidence" = .ok paths ∧
    LoadedFrom (loadEvidence libraries primitives) world paths contents ∧ proof.evidence.Perm contents
  relationships : ∃ paths contents, optInputList cli "relationships" = .ok paths ∧
    LoadedFrom (loadRelationship libraries primitives) world paths contents ∧ proof.relationships.Perm contents
  linkage : proof.referencedProofs = [] ∧ proof.vocabularies = []


section
variable {libraries : Libraries} {primitives : Primitives} {proposition : Proposition} {createdAt : UInt64}
  {events : List CreatedEvent} {attestations : List CreatedAttestation} {evidence : List CreatedEvidence}
  {relationships : List CreatedRelationship}

theorem builderOf_memberCalls :
    builderOf primitives proposition createdAt (memberCalls events attestations evidence relationships) =
      { ProofBuilder.new proposition createdAt with events, attestations, evidence, relationships } := by
  rw [builderOf_eq]
  simp [memberCalls, ProofBuilder.new, List.filterMap_append, List.filterMap_map, Function.comp_def,
    BuilderCall.event?, BuilderCall.attestation?, BuilderCall.evidence?, BuilderCall.relationship?,
    BuilderCall.reference?, BuilderCall.vocabulary?]

/-- A proof built from members under their recomputed ids and authentic attestations is cryptographically valid. -/
theorem builtProof_valid {builder : ProofBuilder} {built : BuiltProof} (named : builder.Named primitives)
    (authentic : ∀ attestation ∈ builder.attestations, attestation.Authentic primitives)
    (done : builder.build primitives Limits.default = .ok built) {order : HashOrder} {ctx : VerifyCtx}
    {report : VerifyReport} (limits : ctx.limits = Limits.default) (permitted : ctx.allowedAlgs.ed25519 = true)
    (verified : verifyProof primitives order ctx built.canonical = .ok report) :
    NoFailure report.checks cryptoStages ∧ report.cryptographicValidity = .valid ∧
      report.proofId = some built.id := by
  obtain ⟨proposition, _, _, proofIs, idIs, read⟩ := build_eq_ok done
  have arranged : builder.arrange.Named primitives :=
    { events := fun event member => named.events event (mem_sortOn.mp member)
      attestations := fun attestation member => named.attestations attestation (mem_sortOn.mp member)
      evidence := fun evidence member => named.evidence evidence (mem_sortOn.mp member)
      relationships := fun relationship member => named.relationships relationship (mem_sortOn.mp member) }
  obtain ⟨value, decoded, parsed⟩ := bind_eq_ok.mp read
  have recomputed : built.id = idWith primitives IdKind.proof (encodeCanonical (bindingOf primitives built.proof)) := by
    rw [idIs, proofIs, arranged.proofId]
  rw [← limits] at read
  obtain ⟨_, _, _, _, stages⟩ := stagesRan_of_read read verified
  have rebound :=
    Except.ok.inj (stages.named.symm.trans (recomputedProofId_eq primitives (cborToProof_versions parsed)))
  have signatures : ∀ check ∈ signatureChecks primitives ctx built.proof, check.ok = true := by
    rw [proofIs]
    exact signatureChecks_of_entries fun attestation member =>
      (authentic attestation (mem_sortOn.mp member)).verifyEntry limits permitted
  have valid := stages.cryptoValid_iff.mpr ⟨by rw [rebound, ← recomputed, idIs], signatures⟩
  have clean := valid
  rw [stages.cryptographicValidity_eq, stageValid_eq_valid] at clean
  exact ⟨clean, valid, by rw [stages.proofId_eq, idIs]⟩

end

section
variable {libraries : Libraries} {primitives : Primitives} {cli : Cli} {world after : World} {built : BuiltProof}

theorem writeProofFile_eq_ok {path id : String} {canonical : Bytes}
    (done : writeProofFile libraries path id canonical world = .ok () after) :
    after = world.withOutput path (artifactText libraries (wrappedMember "proof" id canonical)) := by
  rw [writeProofFile, writeJson] at done
  rw [World.withOutput]
  split at done
  · rename_i piped
    obtain ⟨_, rfl⟩ := Command.pure_eq_ok.mp done
    rw [if_pos piped]
  · rename_i file
    rw [if_neg file]
    rw [writeFile] at done
    split at done
    · cases done
    · cases done
      rfl

/-- What a run that wrote a proof went through; the builder has the members of the listed files. -/
structure BuildSteps (libraries : Libraries) (primitives : Primitives) (cli : Cli) (world after : World)
    (built : BuiltProof) (proposition : Proposition) (createdAt : UInt64) (builder : ProofBuilder) : Prop where
  stated : composeProposition cli = .ok proposition
  timed : cli.reqU64 "created-at" = .ok createdAt
  started : builder.proposition = some proposition ∧ builder.createdAt = createdAt ∧
    builder.referencedProofs = [] ∧ builder.vocabularies = []
  events : ∃ paths, inputList cli "events" = .ok paths ∧
    LoadedFrom (remade (loadEvent libraries primitives) (Cli.createdEvent primitives)) world paths builder.events
  attestations : ∃ paths, inputList cli "attestations" = .ok paths ∧
    LoadedFrom (loadAttestation libraries primitives) world paths builder.attestations
  evidence : ∃ paths, optInputList cli "evidence" = .ok paths ∧
    LoadedFrom (remade (loadEvidence libraries primitives) (Cli.createdEvidence primitives)) world paths
      builder.evidence
  relationships : ∃ paths, optInputList cli "relationships" = .ok paths ∧
    LoadedFrom (remade (loadRelationship libraries primitives) (Cli.createdRelationship primitives)) world paths
      builder.relationships
  builds : builder.build primitives Limits.default = .ok built
  wrote : ∃ middle out, world.SameFiles middle ∧ cli.req "out" = .ok out ∧
    after = middle.withOutput out (artifactText libraries (wrappedMember "proof" built.id built.canonical))

theorem remade_sameFiles {α β : Type} {allowed : List String} {kind : String} {parse : Limits → CborValue → Result α}
    {created : α → Except String β} (path : String) (world after : World) (value : β)
    (done : remade (loadMember libraries primitives allowed kind parse) created path world = .ok value after) :
    world.SameFiles after := by
  obtain ⟨_, loaded, _⟩ := remade_eq_ok done
  exact loadMember_sameFiles loaded

theorem LoadedFrom.earlier {α : Type} {load : String → Command α} {paths : List String} {values : List α}
    (kept : world.SameFiles after) (loaded : LoadedFrom load after paths values) :
    LoadedFrom load world paths values := by
  refine loaded.imp fun path value => ?_
  rintro ⟨before, later, same, done⟩
  exact ⟨before, later, kept.trans same, done⟩

theorem build_steps (done : build libraries primitives cli world = .ok built after) :
    ∃ proposition createdAt builder,
      BuildSteps libraries primitives cli world after built proposition createdAt builder := by
  obtain ⟨proposition, _, statedDone, done⟩ := Command.bind_eq_ok.mp done
  obtain ⟨stated, rfl⟩ := Command.of_eq_ok.mp statedDone
  obtain ⟨createdAt, _, timedDone, done⟩ := Command.bind_eq_ok.mp done
  obtain ⟨timed, rfl⟩ := Command.of_eq_ok.mp timedDone
  obtain ⟨eventPaths, _, eventsListedDone, done⟩ := Command.bind_eq_ok.mp done
  obtain ⟨eventsListed, rfl⟩ := Command.of_eq_ok.mp eventsListedDone
  obtain ⟨events, _, eventsRead, done⟩ := Command.bind_eq_ok.mp done
  obtain ⟨attestationPaths, _, attestationsListedDone, done⟩ := Command.bind_eq_ok.mp done
  obtain ⟨attestationsListed, rfl⟩ := Command.of_eq_ok.mp attestationsListedDone
  obtain ⟨attestations, _, attestationsRead, done⟩ := Command.bind_eq_ok.mp done
  obtain ⟨evidencePaths, _, evidenceListedDone, done⟩ := Command.bind_eq_ok.mp done
  obtain ⟨evidenceListed, rfl⟩ := Command.of_eq_ok.mp evidenceListedDone
  obtain ⟨evidence, _, evidenceRead, done⟩ := Command.bind_eq_ok.mp done
  obtain ⟨relationshipPaths, _, relationshipsListedDone, done⟩ := Command.bind_eq_ok.mp done
  obtain ⟨relationshipsListed, rfl⟩ := Command.of_eq_ok.mp relationshipsListedDone
  obtain ⟨relationships, middle, relationshipsRead, done⟩ := Command.bind_eq_ok.mp done
  obtain ⟨found, _, buildsDone, done⟩ := Command.bind_eq_ok.mp done
  obtain ⟨builds, rfl⟩ := Command.of_eq_ok.mp buildsDone
  obtain ⟨out, _, outDone, done⟩ := Command.bind_eq_ok.mp done
  obtain ⟨named, rfl⟩ := Command.of_eq_ok.mp outDone
  obtain ⟨_, _, written, done⟩ := Command.bind_eq_ok.mp done
  obtain ⟨rfl, rfl⟩ := Command.pure_eq_ok.mp done
  rw [labelled_eq_ok, builderOf_memberCalls] at builds
  -- the loads take nothing but standard input
  obtain ⟨eventsLoaded, keptEvents⟩ := each_eq_ok remade_sameFiles eventsRead
  obtain ⟨attestationsLoaded, keptAttestations⟩ :=
    each_eq_ok (fun _ _ _ _ read => loadAttestation_sameFiles read) attestationsRead
  obtain ⟨evidenceLoaded, keptEvidence⟩ := each_eq_ok remade_sameFiles evidenceRead
  obtain ⟨relationshipsLoaded, keptRelationships⟩ := each_eq_ok remade_sameFiles relationshipsRead
  have beforeEvidence := keptEvents.trans keptAttestations
  have beforeRelationships := beforeEvidence.trans keptEvidence
  exact ⟨proposition, createdAt,
    { ProofBuilder.new proposition createdAt with events, attestations, evidence, relationships },
    { stated, timed, started := ⟨rfl, rfl, rfl, rfl⟩, builds
      events := ⟨eventPaths, eventsListed, eventsLoaded⟩
      attestations := ⟨attestationPaths, attestationsListed, attestationsLoaded.earlier keptEvents⟩
      evidence := ⟨evidencePaths, evidenceListed, evidenceLoaded.earlier beforeEvidence⟩
      relationships := ⟨relationshipPaths, relationshipsListed, relationshipsLoaded.earlier beforeRelationships⟩
      wrote := ⟨middle, out, beforeRelationships.trans keptRelationships, named, writeProofFile_eq_ok written⟩ }⟩

variable {proposition : Proposition} {createdAt : UInt64} {builder : ProofBuilder}

theorem LoadedFrom.exists_load {α : Type} {load : String → Command α} {paths : List String} {values : List α}
    (loaded : LoadedFrom load world paths values) {value : α} (member : value ∈ values) :
    ∃ path before later, load path before = .ok value later := by
  induction loaded with
  | nil => cases member
  | cons here later inductionHypothesis =>
    rcases List.mem_cons.mp member with rfl | elsewhere
    · obtain ⟨before, after, _, done⟩ := here
      exact ⟨_, before, after, done⟩
    · exact inductionHypothesis elsewhere

theorem BuildSteps.authentic
    (steps : BuildSteps libraries primitives cli world after built proposition createdAt builder) :
    ∀ attestation ∈ builder.attestations, attestation.Authentic primitives := by
  intro attestation member
  obtain ⟨_, _, loaded⟩ := steps.attestations
  obtain ⟨_, _, _, read⟩ := loaded.exists_load member
  exact (loadAttestation_sound read).2

theorem BuildSteps.named
    (steps : BuildSteps libraries primitives cli world after built proposition createdAt builder) :
    builder.Named primitives where
  events := by
    intro event member
    obtain ⟨_, _, loaded⟩ := steps.events
    obtain ⟨_, _, _, read⟩ := loaded.exists_load member
    obtain ⟨_, _, made⟩ := remade_eq_ok read
    exact (createEvent_id (displayed_eq_ok.mp made)).2
  attestations := fun attestation member => (steps.authentic attestation member).named
  evidence := by
    intro evidence member
    obtain ⟨_, _, loaded⟩ := steps.evidence
    obtain ⟨_, _, _, read⟩ := loaded.exists_load member
    obtain ⟨_, _, made⟩ := remade_eq_ok read
    exact makeEvidence_id (displayed_eq_ok.mp made)
  relationships := by
    intro relationship member
    obtain ⟨_, _, loaded⟩ := steps.relationships
    obtain ⟨_, _, _, read⟩ := loaded.exists_load member
    obtain ⟨_, _, made⟩ := remade_eq_ok read
    exact makeRelationship_id (displayed_eq_ok.mp made)

theorem BuildSteps.builtFrom
    (steps : BuildSteps libraries primitives cli world after built proposition createdAt builder) :
    BuiltFrom libraries primitives cli world built.proof := by
  obtain ⟨stated, timed, ⟨proposed, dated, unlinked, undeclared⟩, ⟨eventPaths, eventsListed, events⟩,
    ⟨attestationPaths, attestationsListed, attestations⟩, ⟨evidencePaths, evidenceListed, evidence⟩,
    ⟨relationshipPaths, relationshipsListed, relationships⟩, builds, _⟩ := steps
  obtain ⟨found, present, _, proofIs, _, _⟩ := build_eq_ok builds
  cases proposed.symm.trans present
  rw [proofIs]
  refine ⟨stated, ?_, ⟨eventPaths, _, eventsListed, (contents_of_remade (fun _ _ _ _ _ _ made =>
      createdEvent_content made) events).1, (sortOn_perm _ _).map _⟩,
    ⟨attestationPaths, _, attestationsListed, attestations, (sortOn_perm _ _).map _⟩,
    ⟨evidencePaths, _, evidenceListed, (contents_of_remade (fun _ _ _ _ _ loaded made =>
      createdEvidence_content loaded made) evidence).1, (sortOn_perm _ _).map _⟩,
    ⟨relationshipPaths, _, relationshipsListed, (contents_of_remade (fun _ _ _ _ _ _ made =>
      createdRelationship_content made) relationships).1, (sortOn_perm _ _).map _⟩, ?_, ?_⟩
  · rw [timed, ← dated]
    rfl
  · simp [ProofBuilder.assemble, ProofBuilder.arrange, unlinked, sortDedup]
  · simp [ProofBuilder.assemble, ProofBuilder.arrange, undeclared, sortDedup]

end

/-! ## What becomes of the proof that was written -/

section
variable {libraries : Libraries} {primitives : Primitives} {world : World} {built : BuiltProof} {path : String}

theorem loadProof_written (named : built.id = built.proof.proofId)
    (read : (decodeStrict built.canonical Limits.default >>= cborToProof Limits.default) = .ok built.proof)
    (reads : ReadsWrapper libraries (wrappedMember "proof" built.id built.canonical)) (file : path ≠ "-")
    (there : world.files path =
      .ok (utf8 (artifactText libraries (wrappedMember "proof" built.id built.canonical)))) :
    loadProof libraries path world = .ok { canonical := built.canonical, proof := built.proof } world := by
  obtain ⟨⟨entries, parses, permuted⟩, fits⟩ := reads
  obtain ⟨value, decoded, parsed⟩ := bind_eq_ok.mp read
  have distinct : ((wrappedMember "proof" built.id built.canonical).map Prod.fst).Nodup := by simp [wrappedMember]
  have known : ∀ field ∈ wrappedMember "proof" built.id built.canonical, field.1 ∈ proofWrapperAllowed := by
    simp [wrappedMember, proofWrapperAllowed]
  have bytes := @wrappedBytes_of_get libraries (wrapperLabel path) (.object entries) built.canonical
    (get_of_perm permuted distinct "cbor" (by simp [wrappedMember]))
  have kind : checkKind (wrapperLabel path) (.object entries) = .ok () := by
    have got : (Json.object entries).get "kind" = some (.string "proof") :=
      get_of_perm permuted distinct "kind" (by simp [wrappedMember])
    simp [checkKind, got, Json.asStr]
  have claimed : checkClaimedId (wrapperLabel path) (.object entries) built.proof = .ok () := by
    have got : (Json.object entries).get "id" = some (.string built.id) :=
      get_of_perm permuted distinct "id" (by simp [wrappedMember])
    simp [checkClaimedId, Json.strField, got, Json.asStr, named]
  rw [loadProof_eq, World.afterRead_file file, inputText_written file there fits, ok_bind]
  simp only [proofOfText, parseJson, parses, ok_bind, rejectUnknown_of_perm permuted known, kind, bytes,
    labelled_eq_ok.mpr decoded, labelled_eq_ok.mpr parsed, claimed]
  rfl

/-- A run of `verify` that ends with a report on a proof that loads has verified the loaded bytes. -/
theorem verified_of_loads {order : HashOrder} {cli : Cli} {outcome : VerifyOutcome} {after : World}
    {loaded : LoadedProof} (named : cli.proofPath = .ok path)
    (loads : loadProof libraries path world = .ok loaded world)
    (done : verify libraries primitives order cli world = .ok outcome after) :
    ∃ ctx, ctx.limits = Limits.default ∧ ctx.allowedAlgs.ed25519 = true ∧
      verifyProof primitives order ctx loaded.canonical = .ok outcome.report := by
  obtain ⟨inputs, _, inputsDone, done⟩ := Command.bind_eq_ok.mp done
  obtain ⟨_, rfl⟩ := Command.of_eq_ok.mp inputsDone
  obtain ⟨policy, _, policyDone, done⟩ := Command.bind_eq_ok.mp done
  obtain ⟨policyIs, rfl⟩ := Command.of_eq_ok.mp policyDone
  obtain ⟨seen, _, seenDone, done⟩ := Command.bind_eq_ok.mp done
  obtain ⟨_, rfl⟩ := Command.of_eq_ok.mp seenDone
  obtain ⟨found, _, pathDone, done⟩ := Command.bind_eq_ok.mp done
  obtain ⟨pathIs, rfl⟩ := Command.of_eq_ok.mp pathDone
  cases named.symm.trans pathIs
  obtain ⟨result, _, loadDone, done⟩ := Command.bind_eq_ok.mp done
  have caught : (loadProof libraries path).caught world = .ok (.ok loaded) world := by
    rw [Command.caught, loads]
  cases caught.symm.trans loadDone
  obtain ⟨statuses, _, _, done⟩ := Command.bind_eq_ok.mp done
  refine ⟨buildCtx cli inputs policy statuses, rfl, ?_, ?_⟩
  · obtain ⟨_, _, same⟩ := bind_eq_ok.mp policyIs
    cases same
    rfl
  · cases verified : verifyProof primitives order (buildCtx cli inputs policy statuses) loaded.canonical with
    | error failure =>
      simp only [verified] at done
      exact absurd done Command.throw_ne_ok
    | ok report =>
      simp only [verified] at done
      obtain ⟨_, _, _, done⟩ := Command.bind_eq_ok.mp done
      split at done
      · obtain ⟨rfl, _⟩ := Command.pure_eq_ok.mp done
        rfl
      · split at done
        · obtain ⟨rfl, _⟩ := Command.pure_eq_ok.mp done
          rfl
        · split at done
          · obtain ⟨rfl, _⟩ := Command.pure_eq_ok.mp done
            rfl
          · obtain ⟨_, _, _, done⟩ := Command.bind_eq_ok.mp done
            obtain ⟨rfl, _⟩ := Command.pure_eq_ok.mp done
            rfl

end

/-- A proof that `build` writes has the members of the listed files and no others.  Every verifier that admits
    Ed25519 finds its bytes, ids and signatures valid, no other file is touched, and a `verify` of the file that was
    written reports on these bytes and under this id. -/
theorem build_valid (libraries : Libraries) (primitives : Primitives) (cli : Cli) (world after : World)
    (built : BuiltProof) (done : build libraries primitives cli world = .ok built after) :
    BuiltFrom libraries primitives cli world built.proof ∧
    (∀ order ctx, ctx.limits = Limits.default → ctx.allowedAlgs.ed25519 = true → ¬ Misused ctx →
      ∃ report, verifyProof primitives order ctx built.canonical = .ok report ∧ NoFailure report.checks cryptoStages ∧
        report.cryptographicValidity = .valid ∧ report.proofId = some built.id) ∧
    ∃ out, cli.req "out" = .ok out ∧ (∀ path, path ≠ out → after.files path = world.files path) ∧
      (out ≠ "-" → ReadsWrapper libraries (wrappedMember "proof" built.id built.canonical) →
        loadProof libraries out after = .ok { canonical := built.canonical, proof := built.proof } after ∧
        ∀ order verifying outcome later, verifying.proofPath = .ok out →
          verify libraries primitives order verifying after = .ok outcome later →
            outcome.report.cryptographicValidity = .valid ∧ outcome.report.proofId = some built.id) := by
  obtain ⟨proposition, createdAt, builder, steps⟩ := build_steps done
  obtain ⟨_, _, _, _, idIs, read⟩ := build_eq_ok steps.builds
  refine ⟨steps.builtFrom, ?_, ?_⟩
  · intro order ctx limits permitted proper
    obtain ⟨report, verified⟩ := verifyProof_of_inputs primitives order built.canonical
      ((checkInputs_cases ctx).resolve_right fun misused => proper misused.1).2
    exact ⟨report, verified, builtProof_valid steps.named steps.authentic steps.builds limits permitted verified⟩
  · obtain ⟨middle, out, same, named, rfl⟩ := steps.wrote
    refine ⟨out, named, ?_, ?_⟩
    · intro path other
      rw [World.withOutput_files fun _ => Ne.symm other, same.1]
    · intro file reads
      have loads := @loadProof_written libraries
        (middle.withOutput out (artifactText libraries (wrappedMember "proof" built.id built.canonical))) built out idIs
        read reads file (World.withOutput_self file)
      refine ⟨loads, ?_⟩
      intro order verifying outcome later asked verifyDone
      obtain ⟨ctx, limits, permitted, verified⟩ := verified_of_loads asked loads verifyDone
      exact (builtProof_valid steps.named steps.authentic steps.builds limits permitted verified).2

/-! ## A proof of two statements and their evidence -/

/-- The digests of the opposed proof and its members; every message is signed alike. -/
def buildingPrimitives : Primitives :=
  { opposedPrimitives with ed25519Verify := fun _ _ signature => signature = secondSignature }

theorem testSigner_building : testSigner.Genuine buildingPrimitives :=
  ⟨rfl, fun _ => decide_eq_true (show secondSignature = secondSignature from rfl)⟩

def statementBy (content : AttestationContent) : CreatedAttestation where
  content := content
  canonical := encodeCanonical (attestationToCbor content)
  id := attestationMemberId buildingPrimitives content
  sign1 := signedBytes content secondSignature

def ledgerCreated : CreatedEvidence where
  content := ledgerEvidence
  canonical := encodeCanonical (evidenceToCbor ledgerEvidence)
  id := ledgerEvidenceId

def contradictionCreated : CreatedRelationship where
  content := contradiction
  canonical := encodeCanonical (relationshipToCbor contradiction)
  id := relationshipMemberId buildingPrimitives contradiction

def memberFiles : List (String × Artifact) :=
  [("settled.json", .attestation (statementBy (settledStatement "acct:2"))),
   ("denying.json", .attestation (statementBy denyingStatement)),
   ("ledger.json", .evidence ledgerCreated), ("contradiction.json", .relationship contradictionCreated)]

/-- The world that holds these files and no others. -/
def memberWorld : World :=
  { emptyDirectory with
    files := fun path =>
      match memberFiles.lookup path with
      | some artifact => .ok (utf8 (artifactText artifactLibraries artifact.wrapped))
      | none => emptyDirectory.files path }

def memberFlags : Cli where
  values := [("kind", "payment"), ("subject", "acct:1"), ("predicate", "settled"), ("created-at", "1700000000"),
    ("out", "proof.json")]
  multi := [("events", [""]), ("attestations", ["settled.json,denying.json"]), ("evidence", ["ledger.json"]),
    ("relationships", ["contradiction.json"])]

def signedAlike : Proof :=
  { opposedProof with
    attestations := [settledStatement "acct:2", denyingStatement].map fun content =>
      { content, sign1 := signedBytes content secondSignature } }

def builtAlike : BuiltProof where
  proof := signedAlike
  canonical := ((proofToCbor signedAlike).toOption.map encodeCanonical).getD []
  id := opposedProof.proofId

def builtWorld : World :=
  memberWorld.withOutput "proof.json"
    (artifactText artifactLibraries (wrappedMember "proof" builtAlike.id builtAlike.canonical))

theorem wrappedMember_room {kind id : String} {canonical : Bytes} (kindShort : kind.toList.length ≤ 500)
    (idShort : id.toList.length ≤ 500) (payload : canonical.length ≤ 5000) :
    ((wrappedMember kind id canonical).map fieldRoom).sum ≤ 2 ^ 20 := by
  have cbor := Hex.length_encode canonical
  have names : (["kind", "id", "cbor"].map fun name => name.toList.length) = [4, 2, 4] := by decide
  simp only [List.map_cons, List.map_nil, List.cons.injEq, and_true] at names
  simp only [wrappedMember, List.map_cons, List.map_nil, List.sum_cons, List.sum_nil, fieldRoom, names]
  omega

/-- The file of a small member holds what is read back. -/
theorem memberFile_reads {kind what : String} {canonical : Bytes} (named : what.toList.length ≤ 500)
    (short : kind.toList.length ≤ 3) (payload : canonical.length ≤ 5000) :
    ReadsWrapper artifactLibraries (wrappedMember what (idWith buildingPrimitives kind canonical) canonical) := by
  have id := length_idWith buildingPrimitives kind canonical
  exact artifactLibraries_reads (List.cons_ne_nil _ _) (wrappedMember_room named (by omega) payload)

theorem memberWorld_files {path : String} {artifact : Artifact} (listed : memberFiles.lookup path = some artifact) :
    memberWorld.files path = .ok (utf8 (artifactText artifactLibraries artifact.wrapped)) := by
  simp only [memberWorld, listed]

theorem statementBy_loads {content : AttestationContent} {path : String} (file : path ≠ "-")
    (attested : attest buildingPrimitives content testSigner Limits.default = .ok (statementBy content))
    (issuer : content.issuer.toList.length ≤ 500)
    (sizes : (statementBy content).canonical.length ≤ 500 ∧ (statementBy content).sign1.length ≤ 500)
    (there : memberFiles.lookup path = some (.attestation (statementBy content))) :
    loadAttestation artifactLibraries buildingPrimitives path memberWorld = .ok (statementBy content) memberWorld := by
  have made : (Artifact.attestation (statementBy content)).Made buildingPrimitives fun _ => testSigner :=
    ⟨content, testSeed, attested⟩
  have small : (500 : Nat) ≤ Limits.default.maxFieldSize.toNat := by decide
  have kind : IdKind.attestation.toList.length = 3 := by decide
  have id : (statementBy content).id.toList.length = IdKind.attestation.toList.length + 47 :=
    length_idWith buildingPrimitives IdKind.attestation (encodeCanonical (attestationToCbor content))
  have reads : ReadsWrapper artifactLibraries (wrappedAttestation (statementBy content)) :=
    artifactLibraries_reads (List.cons_ne_nil _ _) (wrappedAttestation_room (by omega) issuer sizes.1 sizes.2)
  exact made.loads (fun _ => testSigner_building) (sizes.1.trans small) reads file (memberWorld_files there)

theorem memberWorld_statements :
    Command.each (loadAttestation artifactLibraries buildingPrimitives) ["settled.json", "denying.json"] memberWorld =
      .ok [statementBy (settledStatement "acct:2"), statementBy denyingStatement] memberWorld := by
  have settled : attest buildingPrimitives (settledStatement "acct:2") testSigner Limits.default =
      .ok (statementBy (settledStatement "acct:2")) := by decide +kernel
  have denying : attest buildingPrimitives denyingStatement testSigner Limits.default =
      .ok (statementBy denyingStatement) := by decide +kernel
  have issuer : testIssuer.toList.length ≤ 500 := by decide +kernel
  have first := @statementBy_loads _ "settled.json" (by decide) settled issuer (by decide +kernel) rfl
  have second := @statementBy_loads _ "denying.json" (by decide) denying issuer (by decide +kernel) rfl
  exact each_cons_ok first (each_cons_ok second rfl)

theorem memberWorld_evidence :
    Command.each (remade (loadEvidence artifactLibraries buildingPrimitives) (Cli.createdEvidence buildingPrimitives))
      ["ledger.json"] memberWorld = .ok [ledgerCreated] memberWorld := by
  have id : ledgerCreated.id = idWith buildingPrimitives IdKind.evidence ledgerCreated.canonical := by decide +kernel
  have made : (Artifact.evidence ledgerCreated).Made buildingPrimitives fun _ => testSigner :=
    ⟨id, by decide +kernel⟩
  have reads : ReadsWrapper artifactLibraries (Artifact.evidence ledgerCreated).wrapped := by
    rw [Artifact.wrapped, id]
    exact memberFile_reads (by decide) (by decide) (by decide +kernel)
  have loads : loadEvidence artifactLibraries buildingPrimitives "ledger.json" memberWorld =
      .ok ledgerEvidence memberWorld :=
    made.loads (fun _ => testSigner_building) trivial reads (by decide) (memberWorld_files rfl)
  have again : Cli.createdEvidence buildingPrimitives ledgerEvidence = .ok ledgerCreated := by decide +kernel
  exact each_cons_ok (remade_ok loads again) rfl

theorem memberWorld_relationships :
    Command.each
      (remade (loadRelationship artifactLibraries buildingPrimitives) (Cli.createdRelationship buildingPrimitives))
      ["contradiction.json"] memberWorld = .ok [contradictionCreated] memberWorld := by
  have id : contradictionCreated.id = idWith buildingPrimitives IdKind.rel contradictionCreated.canonical := by
    decide +kernel
  have made : (Artifact.relationship contradictionCreated).Made buildingPrimitives fun _ => testSigner :=
    ⟨id, by decide +kernel⟩
  have reads : ReadsWrapper artifactLibraries (Artifact.relationship contradictionCreated).wrapped :=
    memberFile_reads (by decide) (by decide) (by decide +kernel)
  have loads : loadRelationship artifactLibraries buildingPrimitives "contradiction.json" memberWorld =
      .ok contradiction memberWorld :=
    made.loads (fun _ => testSigner_building) trivial reads (by decide) (memberWorld_files rfl)
  have again : Cli.createdRelationship buildingPrimitives contradiction = .ok contradictionCreated := by
    decide +kernel
  exact each_cons_ok (remade_ok loads again) rfl

theorem memberFlags_builds :
    build artifactLibraries buildingPrimitives memberFlags memberWorld = .ok builtAlike builtWorld := by
  have stated : composeProposition memberFlags = .ok signedAlike.proposition := rfl
  have timed : memberFlags.reqU64 "created-at" = .ok 1700000000 := by decide +kernel
  have noEvents : inputList memberFlags "events" = .ok [] := by decide +kernel
  have listed : inputList memberFlags "attestations" = .ok ["settled.json", "denying.json"] := by decide +kernel
  have ledger : optInputList memberFlags "evidence" = .ok ["ledger.json"] := by decide +kernel
  have related : optInputList memberFlags "relationships" = .ok ["contradiction.json"] := by decide +kernel
  have named : memberFlags.req "out" = .ok "proof.json" := rfl
  have written : writeProofFile artifactLibraries "proof.json" builtAlike.id builtAlike.canonical memberWorld =
      .ok () builtWorld := by
    rw [writeProofFile, writeJson, if_neg (by decide), builtWorld, World.withOutput, if_neg (by decide)]
    rfl
  have builds : labelled "build" ((builderOf buildingPrimitives signedAlike.proposition 1700000000
      (memberCalls [] [statementBy (settledStatement "acct:2"), statementBy denyingStatement] [ledgerCreated]
        [contradictionCreated])).build buildingPrimitives Limits.default) = .ok builtAlike := by
    decide +kernel
  refine (Command.bind_ok (Command.of_eq_ok.mpr ⟨stated, rfl⟩) _).trans ?_
  refine (Command.bind_ok (Command.of_eq_ok.mpr ⟨timed, rfl⟩) _).trans ?_
  refine (Command.bind_ok (Command.of_eq_ok.mpr ⟨noEvents, rfl⟩) _).trans ?_
  refine (Command.bind_ok (show Command.each _ [] memberWorld = .ok [] memberWorld from rfl) _).trans ?_
  refine (Command.bind_ok (Command.of_eq_ok.mpr ⟨listed, rfl⟩) _).trans ?_
  refine (Command.bind_ok memberWorld_statements _).trans ?_
  refine (Command.bind_ok (Command.of_eq_ok.mpr ⟨ledger, rfl⟩) _).trans ?_
  refine (Command.bind_ok memberWorld_evidence _).trans ?_
  refine (Command.bind_ok (Command.of_eq_ok.mpr ⟨related, rfl⟩) _).trans ?_
  refine (Command.bind_ok memberWorld_relationships _).trans ?_
  refine (Command.bind_ok (Command.of_eq_ok.mpr ⟨builds, rfl⟩) _).trans ?_
  refine (Command.bind_ok (Command.of_eq_ok.mpr ⟨named, rfl⟩) _).trans ?_
  exact (Command.bind_ok written _).trans rfl

theorem builtAlike_reads :
    ReadsWrapper artifactLibraries (wrappedMember "proof" builtAlike.id builtAlike.canonical) := by
  have kind : "proof".toList.length ≤ 500 := by decide
  have id : opposedProof.proofId.toList.length ≤ 500 := by decide +kernel
  have payload : builtAlike.canonical.length ≤ 5000 := by decide +kernel
  exact artifactLibraries_reads (List.cons_ne_nil _ _) (wrappedMember_room kind id payload)

theorem memberFlags_valid :
    BuiltFrom artifactLibraries buildingPrimitives memberFlags memberWorld signedAlike ∧
      (∃ report, verifyProof buildingPrimitives .inserted signedContext.toVerifyCtx builtAlike.canonical = .ok report ∧
        report.cryptographicValidity = .valid ∧ report.proofId = some opposedProof.proofId) ∧
      loadProof artifactLibraries "proof.json" builtWorld =
        .ok { canonical := builtAlike.canonical, proof := signedAlike } builtWorld := by
  obtain ⟨builtFrom, verifies, out, named, _, loads⟩ := build_valid artifactLibraries buildingPrimitives memberFlags
    memberWorld builtWorld builtAlike memberFlags_builds
  obtain rfl : "proof.json" = out := Except.ok.inj named
  have proper : ¬ Misused signedContext.toVerifyCtx := by
    rw [Misused]
    decide
  obtain ⟨report, done, _, crypto, id⟩ := verifies .inserted signedContext.toVerifyCtx rfl rfl proper
  exact ⟨builtFrom, ⟨report, done, crypto, id⟩, (loads (by decide) builtAlike_reads).1⟩


end ProofEngine
