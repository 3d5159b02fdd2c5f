import ProofEngine.Cli.Compose
import ProofEngine.Cli.StrictRuns
import ProofEngine.Lib.QuotedText
import ProofEngine.Verify.MemberOrder

/-! # What a composition holds

A composition is made of the first input under each claimed id.  Of these it holds every member once, and those members
are what is signed, named and flagged; the graph that is checked is that of all inputs. -/

namespace ProofEngine

open Text StableSort FirstBy

/-! ## Loading the inputs twice -/

/-- The proofs at these paths, loaded one after the other. -/
inductive Loads (libraries : Libraries) : World → List String → List Proof → World → Prop
  | nil (world : World) : Loads libraries world [] [] world
  | cons {path : String} {paths : List String} {loaded : LoadedProof} {proofs : List Proof}
      {world middle after : World} (here : loadProof libraries path world = .ok loaded middle)
      (later : Loads libraries middle paths proofs after) :
      Loads libraries world (path :: paths) (loaded.proof :: proofs) after

/-- The proof was parsed from bytes. -/
def ReadProof (proof : Proof) : Prop :=
  ∃ bytes, (decodeStrict bytes Limits.default >>= cborToProof Limits.default) = .ok proof

theorem ReadProof.bounded {proof : Proof} (read : ReadProof proof) : proof.Bounded := by
  obtain ⟨bytes, done⟩ := read
  obtain ⟨value, decoded, parsed⟩ := bind_eq_ok.mp done
  exact cborToProof_bounded (decodeStrict_sound decoded).2.addressable parsed

/-- The inputs of a composition: the proofs that its paths name in this world. -/
def ComposeInputs (libraries : Libraries) (cli : Cli) (world : World) (inputs : List Proof) : Prop :=
  ∃ paths, inputList cli "proofs" = .ok paths ∧ Loads libraries world paths inputs world

section
variable {libraries : Libraries} {world middle after : World} {paths : List String} {proofs others : List Proof}

theorem loadProof_stdin {loaded : LoadedProof} (done : loadProof libraries "-" world = .ok loaded after) :
    after.stdin = [] ∧ world.stdin ≠ [] := by
  rw [loadProof_eq, inputText, if_pos rfl, World.afterRead, if_pos rfl] at done
  obtain ⟨parsed, rfl⟩ := Command.of_eq_ok.mp done
  obtain ⟨text, taken, parsed⟩ := bind_eq_ok.mp parsed
  rw [stdinText] at taken
  split at taken
  · cases taken
  · rename_i small
    constructor
    · rw [List.length_take] at small
      exact List.drop_eq_nil_of_le (by omega)
    · intro empty
      -- the parser refuses the empty text
      obtain ⟨message, refused⟩ := libraries.fromStr_empty
      have nothing : fromUtf8 [] = some "" := fromUtf8_utf8 ""
      rw [empty, List.take_nil, nothing] at taken
      cases taken
      obtain ⟨json, document, _⟩ := bind_eq_ok.mp parsed
      rw [parseJson, refused] at document
      cases document

theorem loadProof_file {path : String} {loaded : LoadedProof} (file : path ≠ "-")
    (done : loadProof libraries path world = .ok loaded after) : after = world := by
  rw [loadProof_eq, World.afterRead_file file] at done
  exact (Command.of_eq_ok.mp done).2.symm

theorem Loads.files (loads : Loads libraries world paths proofs after) (files : "-" ∉ paths) : after = world := by
  induction loads with
  | nil world => rfl
  | cons here later inductionHypothesis =>
    obtain ⟨file, files⟩ := not_or.mp (mt List.mem_cons.mpr files)
    exact (inductionHypothesis files).trans (loadProof_file (Ne.symm file) here)

/-- Standard input is taken whole by the load that names it, and there has to be something in it. -/
theorem Loads.stdin (loads : Loads libraries world paths proofs after) :
    (world.stdin = [] → after.stdin = [] ∧ "-" ∉ paths) ∧ ("-" ∈ paths → after.stdin = []) := by
  induction loads with
  | nil world => exact ⟨fun empty => ⟨empty, List.not_mem_nil⟩, fun member => absurd member List.not_mem_nil⟩
  | @cons path paths loaded proofs world middle after here later inductionHypothesis =>
    obtain ⟨drained, taken⟩ := inductionHypothesis
    by_cases piped : path = "-"
    · subst piped
      obtain ⟨empty, present⟩ := loadProof_stdin here
      exact ⟨fun absent => absurd absent present, fun _ => (drained empty).1⟩
    · obtain rfl := loadProof_file piped here
      constructor
      · intro empty
        obtain ⟨emptyAfter, files⟩ := drained empty
        exact ⟨emptyAfter, mt List.mem_cons.mp (not_or.mpr ⟨Ne.symm piped, files⟩)⟩
      · intro member
        rcases List.mem_cons.mp member with same | member
        · exact absurd same.symm piped
        · exact taken member

theorem Loads.unique (loads : Loads libraries world paths proofs after)
    (again : Loads libraries world paths others middle) :
    proofs = others := by
  induction loads generalizing others middle with
  | nil world =>
    cases again
    rfl
  | cons here later inductionHypothesis =>
    cases again with
    | cons hereToo laterToo =>
      rw [here] at hereToo
      cases hereToo
      rw [inductionHypothesis laterToo]

theorem Loads.read (loads : Loads libraries world paths proofs after) : ∀ proof ∈ proofs, ReadProof proof := by
  induction loads with
  | nil world => simp
  | cons here later inductionHypothesis =>
    exact List.forall_mem_cons.mpr ⟨⟨_, read_of_loadProof here⟩, inductionHypothesis⟩

/-- Only files can be loaded twice, and they are the same both times. -/
theorem Loads.twice (first : Loads libraries world paths proofs middle)
    (second : Loads libraries middle paths others after) : middle = world ∧ after = world ∧ others = proofs := by
  have files : "-" ∉ paths := fun piped => (second.stdin.1 (first.stdin.2 piped)).2 piped
  obtain rfl := first.files files
  exact ⟨rfl, second.files files, second.unique first⟩

end

/-! ## What is kept -/

section
variable (primitives : Primitives)

/-- The first input under each claimed id. -/
def keptProofs (inputs : List Proof) : List Proof := firstBy (·.proofId) inputs

def eventMemberIdOf (event : EventContent) : String := eventId primitives (encodeCanonical (eventRecord event))

def eventEntry (event : EventContent) : String × EventContent := (eventMemberIdOf primitives event, event)

def evidenceEntry (evidence : Evidence) : String × Evidence := (evidenceMemberId primitives evidence, evidence)

def relationshipEntry (relationship : Relationship) : String × Relationship :=
  (relationshipMemberId primitives relationship, relationship)

/-- The attestation as the builder takes it. -/
def createdOf (stored : StoredAttestation) : CreatedAttestation where
  content := stored.content
  canonical := encodeCanonical (attestationToCbor stored.content)
  id := attestationMemberId primitives stored.content
  sign1 := stored.sign1

/-- The signature verifies under the strict algorithms and carries this content. -/
def StrictlySigned (created : CreatedAttestation) : Prop :=
  verifyAttestation primitives created.sign1 created.content.issuer .strict Limits.default =
    .ok (created.content, created.id)

/-- What was gathered of the inputs: under each id the first member of the kept ones. -/
structure Gathers (inputs : List Proof) (gathered : Gathered) : Prop where
  seenProofs : gathered.seenProofs = (keptProofs inputs).map (·.proofId)
  events : gathered.events =
    firstBy Prod.fst ((keptProofs inputs).flatMap fun proof => proof.events.map (eventEntry primitives))
  attestations : gathered.attestations =
    firstBy (·.id) ((keptProofs inputs).flatMap fun proof => proof.attestations.map (createdOf primitives))
  evidence : gathered.evidence =
    firstBy Prod.fst ((keptProofs inputs).flatMap fun proof => proof.evidence.map (evidenceEntry primitives))
  relationships : gathered.relationships =
    firstBy Prod.fst ((keptProofs inputs).flatMap fun proof => proof.relationships.map (relationshipEntry primitives))
  signed : ∀ created ∈ gathered.attestations, StrictlySigned primitives created

/-- The graph of the members of all inputs. -/
structure Unites (inputs : List Proof) (graph : UnionGraph) : Prop where
  nodeIds : graph.nodeIds = inputs.flatMap fun proof =>
    eventMemberIds primitives proof ++ proofAttestationIds primitives proof ++ evidenceMemberIds primitives proof
  edges : graph.edges = firstBy (·.id) (inputs.flatMap (proofEdges primitives))

end

section
variable {primitives : Primitives} {libraries : Libraries} {inputs : List Proof} {proof : Proof} {path : String}

theorem composedEventId_eq {event : EventContent} (version : event.v = 1) :
    composedEventId primitives event = .ok (eventMemberIdOf primitives event) := by
  rw [composedEventId, eventToCbor_of_version version]
  rfl

theorem gatherEvents_eq {events : List EventContent} (versions : ∀ event ∈ events, event.v = 1)
    (known : List (String × EventContent)) :
    events.foldlM (gatherEvent primitives) known =
      .ok ((events.map (eventEntry primitives)).foldl (insertNew Prod.fst) known) := by
  induction events generalizing known with
  | nil => rfl
  | cons event events inductionHypothesis =>
    obtain ⟨version, versions⟩ := List.forall_mem_cons.mp versions
    rw [List.foldlM_cons, gatherEvent, composedEventId_eq version]
    exact inductionHypothesis versions _

/-- Attestations are added under their ids, and what is added is signed. -/
theorem gatherAttestations_eq_ok {stored : List StoredAttestation} {known gathered : List CreatedAttestation}
    (done : stored.foldlM (gatherAttestation primitives path) known = .ok gathered)
    (signed : ∀ created ∈ known, StrictlySigned primitives created) :
    gathered = (stored.map (createdOf primitives)).foldl (insertNew (·.id)) known ∧
      ∀ created ∈ gathered, StrictlySigned primitives created := by
  induction stored generalizing known with
  | nil =>
    cases done
    exact ⟨rfl, signed⟩
  | cons entry stored inductionHypothesis =>
    rw [List.foldlM_cons] at done
    obtain ⟨next, added, done⟩ := bind_eq_ok.mp done
    have step : next = insertNew (·.id) known (createdOf primitives entry) ∧
        ∀ created ∈ next, StrictlySigned primitives created := by
      rw [gatherAttestation] at added
      split at added
      · rename_i taken
        cases added
        exact ⟨(insertNew_of_mem taken).symm, signed⟩
      · rename_i free
        obtain ⟨⟨content, verifiedId⟩, verified, added⟩ := bind_eq_ok.mp added
        simp only at added
        split at added
        · cases added
        · rename_i same
          obtain ⟨idSame, contentSame⟩ := not_or.mp same
          obtain rfl := not_not.mp contentSame
          cases added
          refine ⟨(insertNew_of_notMem free).symm, fun created member => ?_⟩
          rcases List.mem_append.mp member with earlier | here
          · exact signed created earlier
          · rw [List.mem_singleton.mp here, StrictlySigned]
            rw [labelled_eq_ok, not_not.mp idSame] at verified
            exact verified
    rw [step.1] at done step
    exact inductionHypothesis done step.2

theorem Gathers.members {gathered next : Gathered} (gathers : Gathers primitives inputs gathered)
    (versions : ∀ event ∈ proof.events, event.v = 1) (fresh : proof.proofId ∉ gathered.seenProofs)
    (done : gatherMembers primitives path gathered proof = .ok next) : Gathers primitives (inputs ++ [proof]) next := by
  have kept : keptProofs (inputs ++ [proof]) = keptProofs inputs ++ [proof] := by
    rw [gathers.seenProofs] at fresh
    exact (firstBy_concat _ _ _).trans (insertNew_of_notMem fresh)
  rw [gatherMembers, gatherEvents_eq versions, ok_bind] at done
  obtain ⟨attestations, added, done⟩ := bind_eq_ok.mp done
  obtain ⟨attestationsEq, signed⟩ := gatherAttestations_eq_ok added gathers.signed
  cases done
  constructor
  case signed => exact signed
  all_goals rw [kept]
  case seenProofs => rw [gathers.seenProofs, List.map_append, List.map_singleton]
  all_goals rw [List.flatMap_append, List.flatMap_singleton, firstBy_append]
  case events => rw [← gathers.events]
  case attestations => rw [← gathers.attestations, attestationsEq]
  case evidence =>
    rw [← gathers.evidence]
    exact List.foldl_map.symm
  case relationships =>
    rw [← gathers.relationships]
    exact List.foldl_map.symm

/-- One input: a claimed id that has come before leaves everything as it is. -/
theorem gatherInput_eq_ok {gathered next : Gathered} {world after : World}
    (done : gatherInput primitives libraries path gathered world = .ok next after)
    (gathers : Gathers primitives inputs gathered) :
    ∃ loaded, loadProof libraries path world = .ok loaded after ∧
      Gathers primitives (inputs ++ [loaded.proof]) next := by
  obtain ⟨loaded, middle, loading, done⟩ := Command.bind_eq_ok.mp done
  split at done
  · rename_i seen
    obtain ⟨rfl, rfl⟩ := Command.pure_eq_ok.mp done
    have kept : keptProofs (inputs ++ [loaded.proof]) = keptProofs inputs := by
      rw [gathers.seenProofs] at seen
      exact (firstBy_concat _ _ _).trans (insertNew_of_mem seen)
    refine ⟨loaded, loading, ?_⟩
    constructor
    case signed => exact gathers.signed
    all_goals rw [kept]
    case seenProofs => exact gathers.seenProofs
    case events => exact gathers.events
    case attestations => exact gathers.attestations
    case evidence => exact gathers.evidence
    case relationships => exact gathers.relationships
  · rename_i fresh
    obtain ⟨gatheredHere, rfl⟩ := Command.of_eq_ok.mp done
    obtain ⟨value, _, parsed⟩ := bind_eq_ok.mp (read_of_loadProof loading)
    exact ⟨loaded, loading, gathers.members (cborToProof_versions parsed) fresh gatheredHere⟩

theorem gatherInputs_eq_ok {paths : List String} {gathered result : Gathered} {world after : World}
    (done : gatherInputs primitives libraries paths gathered world = .ok result after)
    (gathers : Gathers primitives inputs gathered) :
    ∃ proofs, Loads libraries world paths proofs after ∧ Gathers primitives (inputs ++ proofs) result := by
  induction paths generalizing gathered inputs world with
  | nil =>
    obtain ⟨rfl, rfl⟩ := Command.pure_eq_ok.mp done
    exact ⟨[], .nil world, (List.append_nil inputs).symm ▸ gathers⟩
  | cons path paths inductionHypothesis =>
    obtain ⟨next, middle, here, done⟩ := Command.bind_eq_ok.mp done
    obtain ⟨loaded, loading, gathersNext⟩ := gatherInput_eq_ok here gathers
    obtain ⟨proofs, loads, gathersAll⟩ := inductionHypothesis done gathersNext
    rw [List.append_assoc] at gathersAll
    exact ⟨loaded.proof :: proofs, .cons loading loads, gathersAll⟩

theorem Unites.input {graph next : UnionGraph} (unites : Unites primitives inputs graph)
    (versions : ∀ event ∈ proof.events, event.v = 1) (done : unionInput primitives graph proof = .ok next) :
    Unites primitives (inputs ++ [proof]) next := by
  have ids : proof.events.mapM (composedEventId primitives) = .ok (eventMemberIds primitives proof) := by
    refine mapM_eq_ok.mpr (List.forall₂_map_right_iff.mpr (List.forall₂_same.mpr fun event member => ?_))
    exact composedEventId_eq (versions event member)
  rw [unionInput, ids, ok_bind] at done
  cases done
  constructor
  · rw [List.flatMap_append, List.flatMap_singleton, ← unites.nodeIds]
    simp only [List.append_assoc]
    rfl
  · rw [List.flatMap_append, List.flatMap_singleton, firstBy_append, ← unites.edges, proofEdges_eq, List.foldl_map]

theorem unionInputs_eq_ok {paths : List String} {graph result : UnionGraph} {world after : World}
    (done : unionInputs primitives libraries paths graph world = .ok result after)
    (unites : Unites primitives inputs graph) :
    ∃ proofs, Loads libraries world paths proofs after ∧ Unites primitives (inputs ++ proofs) result := by
  induction paths generalizing graph inputs world with
  | nil =>
    obtain ⟨rfl, rfl⟩ := Command.pure_eq_ok.mp done
    exact ⟨[], .nil world, (List.append_nil inputs).symm ▸ unites⟩
  | cons path paths inductionHypothesis =>
    obtain ⟨loaded, middle, loading, done⟩ := Command.bind_eq_ok.mp done
    obtain ⟨next, further, added, done⟩ := Command.bind_eq_ok.mp done
    obtain ⟨unitesHere, rfl⟩ := Command.of_eq_ok.mp added
    obtain ⟨value, _, parsed⟩ := bind_eq_ok.mp (read_of_loadProof loading)
    obtain ⟨proofs, loads, unitesAll⟩ :=
      inductionHypothesis done (unites.input (cborToProof_versions parsed) unitesHere)
    rw [List.append_assoc] at unitesAll
    exact ⟨loaded.proof :: proofs, .cons loading loads, unitesAll⟩

end

/-! ## The run -/

/-- What a composition of these inputs went through. -/
structure ComposeRan (primitives : Primitives) (maps : MapOrder) (order : HashOrder) (cli : Cli) (inputs : List Proof)
    (gathered : Gathered) (graph : UnionGraph) (builder : ProofBuilder) (composition : Composition) : Prop where
  read : ∀ input ∈ inputs, ReadProof input
  gathers : Gathers primitives inputs gathered
  unites : Unites primitives inputs graph
  assembled : ∃ proposition, composeBuilder primitives maps cli proposition gathered = .ok builder
  coherent : checkUnion order cli graph = .ok ()
  built : builder.build primitives Limits.default = .ok composition.built
  flagged : composition.divergent = divergentPairs maps gathered.attestations

theorem compose_ran {primitives : Primitives} {maps : MapOrder} {libraries : Libraries} {order : HashOrder} {cli : Cli}
    {world after : World} {composition : Composition}
    (done : compose primitives maps libraries order cli world = .ok composition after) :
    ∃ inputs gathered graph builder, ComposeInputs libraries cli world inputs ∧
      ComposeRan primitives maps order cli inputs gathered graph builder composition := by
  obtain ⟨paths, _, listed, done⟩ := Command.bind_eq_ok.mp done
  obtain ⟨listedOk, rfl⟩ := Command.of_eq_ok.mp listed
  split at done
  · exact absurd done Command.throw_ne_ok
  · obtain ⟨proposition, _, stated, done⟩ := Command.bind_eq_ok.mp done
    obtain ⟨_, rfl⟩ := Command.of_eq_ok.mp stated
    obtain ⟨gathered, middle, gathering, done⟩ := Command.bind_eq_ok.mp done
    obtain ⟨builder, _, assembled, done⟩ := Command.bind_eq_ok.mp done
    obtain ⟨assembledOk, rfl⟩ := Command.of_eq_ok.mp assembled
    obtain ⟨graph, last, uniting, done⟩ := Command.bind_eq_ok.mp done
    obtain ⟨_, _, checked, done⟩ := Command.bind_eq_ok.mp done
    obtain ⟨checkedOk, rfl⟩ := Command.of_eq_ok.mp checked
    obtain ⟨built, _, building, done⟩ := Command.bind_eq_ok.mp done
    obtain ⟨buildingOk, rfl⟩ := Command.of_eq_ok.mp building
    obtain ⟨out, _, _, done⟩ := Command.bind_eq_ok.mp done
    obtain ⟨_, _, _, done⟩ := Command.bind_eq_ok.mp done
    obtain ⟨_, _, _, done⟩ := Command.bind_eq_ok.mp done
    obtain ⟨rfl, _⟩ := Command.pure_eq_ok.mp done
    have nothing : Gathers primitives [] {} := ⟨rfl, rfl, rfl, rfl, rfl, by simp⟩
    have nowhere : Unites primitives [] {} := ⟨rfl, rfl⟩
    obtain ⟨inputs, loads, gathers⟩ := gatherInputs_eq_ok gathering nothing
    obtain ⟨again, loadsAgain, unites⟩ := unionInputs_eq_ok uniting nowhere
    -- the second pass finds the same files
    obtain ⟨rfl, _, rfl⟩ := loads.twice loadsAgain
    exact ⟨again, gathered, graph, builder, ⟨paths, listedOk, loads⟩, loads.read, gathers, unites,
      ⟨proposition, assembledOk⟩, checkedOk, labelled_eq_ok.mp buildingOk, rfl⟩

/-! ## The builder -/

section
variable {primitives : Primitives} {maps : MapOrder} {order : HashOrder} {cli : Cli} {inputs : List Proof}
  {gathered : Gathered} {graph : UnionGraph} {builder : ProofBuilder} {composition : Composition}

theorem map_eq_of_forall₂ {α β γ : Type} {related : α → β → Prop} {items : List α} {results : List β} {f : β → γ}
    {g : α → γ} (each : List.Forall₂ related items results)
    (same : ∀ item ∈ items, ∀ result, related item result → f result = g item) : results.map f = items.map g := by
  induction each with
  | nil => rfl
  | cons here later inductionHypothesis =>
    obtain ⟨sameHere, sameLater⟩ := List.forall_mem_cons.mp same
    rw [List.map_cons, List.map_cons, sameHere _ here, inductionHypothesis sameLater]

/-- The members a builder was given; what was gathered under an id is created as it is. -/
structure BuilderHolds (maps : MapOrder) (gathered : Gathered) (builder : ProofBuilder) : Prop where
  events : builder.events.map (·.content) = (maps.visit .events gathered.events).map Prod.snd
  attestations : builder.attestations = maps.visit .attestations gathered.attestations
  evidence : builder.evidence.map (·.content) = (maps.visit .evidence gathered.evidence).map Prod.snd
  relationships : builder.relationships.map (·.content) =
    (maps.visit .relationships gathered.relationships).map Prod.snd

theorem addReferences_eq_ok {ids : List String} {label : String} {before : ProofBuilder}
    (done :
      ids.foldlM (fun builder id => labelled label (ProofBuilder.addReferencedProof primitives builder id)) before =
      .ok builder) : builder = { before with referencedProofs := before.referencedProofs ++ ids } := by
  induction ids generalizing before with
  | nil =>
    cases done
    simp
  | cons id ids inductionHypothesis =>
    rw [List.foldlM_cons] at done
    obtain ⟨next, added, done⟩ := bind_eq_ok.mp done
    obtain ⟨_, _, added⟩ := bind_eq_ok.mp (labelled_eq_ok.mp added)
    cases added
    rw [inductionHypothesis done, List.append_assoc]
    rfl

theorem makeEvidence_content {kind : String} {digest : HashRef} {attestationRef hint : Option String} {limits : Limits}
    {created : CreatedEvidence} (done : makeEvidence primitives kind digest attestationRef hint limits = .ok created) :
    created.content = { v := 1, kind, digest, attestationRef, hint } := by
  obtain ⟨_, _, done⟩ := bind_eq_ok.mp done
  obtain ⟨_, _, done⟩ := bind_eq_ok.mp done
  cases done
  rfl

theorem makeRelationship_content {content : Relationship} {limits : Limits} {created : CreatedRelationship}
    (done : makeRelationship primitives content limits = .ok created) : created.content = content := by
  rw [makeRelationship] at done
  split at done
  · cases done
  · obtain ⟨_, _, done⟩ := bind_eq_ok.mp done
    cases done
    rfl

/-- Runs of additions, one for each kind of member. -/
theorem foldl_additions (events : List CreatedEvent) (attestations : List CreatedAttestation)
    (evidence : List CreatedEvidence) (relationships : List CreatedRelationship) (start : ProofBuilder) :
    relationships.foldl ProofBuilder.addRelationship (evidence.foldl ProofBuilder.addEvidence
        (attestations.foldl ProofBuilder.addAttestation (events.foldl ProofBuilder.addEvent start))) =
      { start with
        events := start.events ++ events
        attestations := start.attestations ++ attestations
        evidence := start.evidence ++ evidence
        relationships := start.relationships ++ relationships } := by
  have calls := foldl_apply (Primitives.ofTable [] []) (events.map BuilderCall.addEvent ++
    attestations.map BuilderCall.addAttestation ++ evidence.map BuilderCall.addEvidence ++
    relationships.map BuilderCall.addRelationship) start
  simp only [List.foldl_append, List.foldl_map, List.filterMap_append, List.filterMap_map, Function.comp_def,
    BuilderCall.event?, BuilderCall.attestation?, BuilderCall.evidence?, BuilderCall.relationship?,
    BuilderCall.reference?, BuilderCall.vocabulary?, List.filterMap_some, List.filterMap_none, List.append_nil,
    List.nil_append] at calls
  exact calls

theorem composeBuilder_eq_ok {proposition : Proposition}
    (versions : ∀ entry ∈ gathered.evidence, entry.2.v = 1)
    (done : composeBuilder primitives maps cli proposition gathered = .ok builder) :
    BuilderHolds maps gathered builder := by
  obtain ⟨createdAt, _, done⟩ := bind_eq_ok.mp done
  obtain ⟨start, references, done⟩ := bind_eq_ok.mp done
  obtain ⟨events, eventsDone, done⟩ := bind_eq_ok.mp done
  obtain ⟨evidence, evidenceDone, done⟩ := bind_eq_ok.mp done
  obtain ⟨relationships, relationshipsDone, done⟩ := bind_eq_ok.mp done
  simp only [foldl_additions, addReferences_eq_ok references] at done
  cases done
  constructor
  case attestations => rfl
  case events =>
    refine map_eq_of_forall₂ (mapM_eq_ok.mp eventsDone) fun entry _ created made => ?_
    rw [(createEvent_eq_ok.mp (displayed_eq_ok.mp made)).2]
    rfl
  case evidence =>
    refine map_eq_of_forall₂ (mapM_eq_ok.mp evidenceDone) fun entry member created made => ?_
    rw [makeEvidence_content (displayed_eq_ok.mp made), ← versions entry ((maps.perm _ _).subset member)]
  case relationships =>
    refine map_eq_of_forall₂ (mapM_eq_ok.mp relationshipsDone) fun entry _ created made => ?_
    exact makeRelationship_content (displayed_eq_ok.mp made)

/-! ## The composite -/

/-- The first member under each id, among the members of the kept inputs. -/
def keptMembers {α : Type} (id : α → String) (members : Proof → List α) (inputs : List Proof) : List α :=
  firstBy id ((keptProofs inputs).flatMap members)

/-- The members of a composite are the kept ones, in some order. -/
structure HoldsKept (primitives : Primitives) (inputs : List Proof) (composite : Proof) : Prop where
  events : composite.events.Perm (keptMembers (eventMemberIdOf primitives) Proof.events inputs)
  attestations : composite.attestations.Perm
    (keptMembers (fun stored => attestationMemberId primitives stored.content) Proof.attestations inputs)
  evidence : composite.evidence.Perm (keptMembers (evidenceMemberId primitives) Proof.evidence inputs)
  relationships : composite.relationships.Perm
    (keptMembers (relationshipMemberId primitives) Proof.relationships inputs)

/-- Kept entries, read back as the members they were made of. -/
theorem map_keptEntries {α β : Type} {key : β → String} {entry : α → β} {member : β → α} (members : Proof → List α)
    (inverse : ∀ item, member (entry item) = item) :
    (firstBy key ((keptProofs inputs).flatMap fun proof => (members proof).map entry)).map member =
      keptMembers (key ∘ entry) members inputs := by
  have entries : ((keptProofs inputs).flatMap fun proof => (members proof).map entry) =
      ((keptProofs inputs).flatMap members).map entry := List.map_flatMap.symm
  have same : member ∘ entry = id := funext inverse
  rw [entries, firstBy_map, List.map_map, same, List.map_id]
  rfl

theorem Gathers.evidence_versions (read : ∀ input ∈ inputs, ReadProof input)
    (gathers : Gathers primitives inputs gathered) : ∀ entry ∈ gathered.evidence, entry.2.v = 1 := by
  intro entry member
  rw [gathers.evidence] at member
  obtain ⟨input, kept, listed⟩ := List.mem_flatMap.mp (mem_of_mem_firstBy member)
  obtain ⟨evidence, inside, rfl⟩ := List.mem_map.mp listed
  exact ((read input (mem_of_mem_firstBy kept)).bounded.evidence evidence inside).version

/-- Sorted, the contents are those that were added. -/
theorem arranged_perm {α β : Type} {content : α → β} {id : α → String} {added : List α} {entries visited : List β}
    (holds : added.map content = visited) (walked : visited.Perm entries) :
    ((sortOn (fun item => utf8 (id item)) added).map content).Perm entries :=
  ((sortOn_perm _ added).map content).trans (holds ▸ walked)

theorem ComposeRan.holds (ran : ComposeRan primitives maps order cli inputs gathered graph builder composition) :
    HoldsKept primitives inputs composition.built.proof := by
  obtain ⟨proposition, assembled⟩ := ran.assembled
  have holds := composeBuilder_eq_ok (ran.gathers.evidence_versions ran.read) assembled
  obtain ⟨_, _, _, proofIs, _⟩ := build_eq_ok ran.built
  rw [proofIs]
  constructor
  case events =>
    have entries := @map_keptEntries inputs _ _ Prod.fst (eventEntry primitives) Prod.snd Proof.events fun _ => rfl
    rw [← ran.gathers.events] at entries
    exact (arranged_perm holds.events ((maps.perm _ _).map _)).trans (.of_eq entries)
  case attestations =>
    have entries := @map_keptEntries inputs _ _ CreatedAttestation.id (createdOf primitives)
      (fun created => { content := created.content, sign1 := created.sign1 }) Proof.attestations fun _ => rfl
    rw [← ran.gathers.attestations] at entries
    have walked : (builder.attestations.map fun created =>
        ({ content := created.content, sign1 := created.sign1 } : StoredAttestation)).Perm _ :=
      holds.attestations ▸ (maps.perm .attestations gathered.attestations).map _
    exact (arranged_perm rfl walked).trans (.of_eq entries)
  case evidence =>
    have entries := @map_keptEntries inputs _ _ Prod.fst (evidenceEntry primitives) Prod.snd Proof.evidence fun _ => rfl
    rw [← ran.gathers.evidence] at entries
    exact (arranged_perm holds.evidence ((maps.perm _ _).map _)).trans (.of_eq entries)
  case relationships =>
    have entries := @map_keptEntries inputs _ _ Prod.fst (relationshipEntry primitives) Prod.snd Proof.relationships
      fun _ => rfl
    rw [← ran.gathers.relationships] at entries
    exact (arranged_perm holds.relationships ((maps.perm _ _).map _)).trans (.of_eq entries)

end

/-! ## Runs on files -/

section
variable {primitives : Primitives} {maps : MapOrder} {order : HashOrder} {libraries : Libraries} {cli : Cli}
  {world : World} {path : String}

theorem gatherInput_fresh {loaded : LoadedProof} {gathered next : Gathered}
    (loads : loadProof libraries path world = .ok loaded world) (fresh : loaded.proof.proofId ∉ gathered.seenProofs)
    (members : gatherMembers primitives path gathered loaded.proof = .ok next) :
    gatherInput primitives libraries path gathered world = .ok next world := by
  refine (Command.bind_ok loads _).trans ((congrFun (if_neg fresh) world).trans ?_)
  exact Command.of_eq_ok.mpr ⟨members, rfl⟩

theorem gatherInput_seen {loaded : LoadedProof} {gathered : Gathered}
    (loads : loadProof libraries path world = .ok loaded world) (seen : loaded.proof.proofId ∈ gathered.seenProofs) :
    gatherInput primitives libraries path gathered world = .ok gathered world :=
  (Command.bind_ok loads _).trans (congrFun (if_pos seen) world)

/-- Two inputs are gathered one after the other. -/
theorem gatherInputs_pair {other : String} {first second : Gathered}
    (here : gatherInput primitives libraries path {} world = .ok first world)
    (there : gatherInput primitives libraries other first world = .ok second world) :
    gatherInputs primitives libraries [path, other] {} world = .ok second world :=
  (Command.bind_ok here _).trans (Command.bind_ok there _)

theorem unionInputs_pair {other : String} {first second : UnionGraph} {loaded another : LoadedProof}
    (loads : loadProof libraries path world = .ok loaded world)
    (loadsOther : loadProof libraries other world = .ok another world)
    (here : unionInput primitives {} loaded.proof = .ok first)
    (there : unionInput primitives first another.proof = .ok second) :
    unionInputs primitives libraries [path, other] {} world = .ok second world := by
  refine (Command.bind_ok loads _).trans ((Command.bind_ok (Command.of_eq_ok.mpr ⟨here, rfl⟩) _).trans ?_)
  exact (Command.bind_ok loadsOther _).trans (Command.bind_ok (Command.of_eq_ok.mpr ⟨there, rfl⟩) _)

theorem writeJson_ok {document : Json} (writable : ∀ path, world.writeError path = none) :
    ∃ after, writeJson libraries path document world = .ok () after ∧ ∀ path, after.writeError path = none := by
  rw [writeJson]
  split
  · exact ⟨world, rfl, writable⟩
  · rw [writeFile, writable]
    exact ⟨_, rfl, writable⟩

theorem compose_of_steps {paths : List String} {proposition : Proposition} {gathered : Gathered} {graph : UnionGraph}
    {builder : ProofBuilder} {built : BuiltProof} {out : String} (listed : inputList cli "proofs" = .ok paths)
    (filled : paths.isEmpty = false) (stated : composeProposition cli = .ok proposition)
    (gathers : gatherInputs primitives libraries paths {} world = .ok gathered world)
    (assembles : composeBuilder primitives maps cli proposition gathered = .ok builder)
    (unites : unionInputs primitives libraries paths {} world = .ok graph world)
    (coherent : checkUnion order cli graph = .ok ()) (builds : builder.build primitives Limits.default = .ok built)
    (named : cli.req "out" = .ok out) (writable : ∀ path, world.writeError path = none) :
    ∃ after, compose primitives maps libraries order cli world =
      .ok { built, divergent := divergentPairs maps gathered.attestations } after := by
  have nonempty : ¬ paths.isEmpty = true := by simp [filled]
  obtain ⟨middle, written, writableAfter⟩ :=
    @writeJson_ok libraries _ out
      (.object [("kind", .string "proof"), ("id", .string built.id), ("cbor", .string (Hex.encode built.canonical))])
      writable
  obtain ⟨after, told⟩ : ∃ after,
      writeConflicts libraries out (divergentPairs maps gathered.attestations) middle = .ok () after := by
    rw [writeConflicts]
    split
    · exact ⟨middle, rfl⟩
    · obtain ⟨after, written, _⟩ := writeJson_ok writableAfter
      exact ⟨after, written⟩
  refine ⟨after, (Command.bind_ok (Command.of_eq_ok.mpr ⟨listed, rfl⟩) _).trans ?_⟩
  refine (congrFun (if_neg nonempty) world).trans ?_
  refine (Command.bind_ok (Command.of_eq_ok.mpr ⟨stated, rfl⟩) _).trans ((Command.bind_ok gathers _).trans ?_)
  refine (Command.bind_ok (Command.of_eq_ok.mpr ⟨assembles, rfl⟩) _).trans ((Command.bind_ok unites _).trans ?_)
  refine (Command.bind_ok (Command.of_eq_ok.mpr ⟨coherent, rfl⟩) _).trans ?_
  refine (Command.bind_ok (Command.of_eq_ok.mpr ⟨labelled_eq_ok.mpr builds, rfl⟩) _).trans ?_
  refine (Command.bind_ok (Command.of_eq_ok.mpr ⟨named, rfl⟩) _).trans ((Command.bind_ok written _).trans ?_)
  exact (Command.bind_ok told _).trans rfl

end

/-- A wrapper of bytes, as one line of JSON. -/
def wrapperChars (bytes : Bytes) : List Char :=
  QuotedText.document [("\x7b".toList, "cbor"), (":".toList, Hex.encode bytes)] "\x7d".toList

def wrapperText (bytes : Bytes) : String := String.ofList (wrapperChars bytes)

/-- An object of texts, one to a line. -/
def prettyTexts (indent : String) (entries : List (String × Json)) : String :=
  let lines := entries.map fun entry =>
    "\n" ++ indent ++ "  \"" ++ entry.1 ++ "\": \"" ++ entry.2.asStr.getD "" ++ "\""
  "\x7b" ++ String.intercalate "," lines ++ "\n" ++ indent ++ "\x7d"

def prettyDocument (indent : String) : Json → String
  | .object entries => prettyTexts indent entries
  | _ => "null"

/-- Libraries that read wrappers of bytes and write what a composition writes. -/
def wrapperLibraries : Libraries where
  fromStr text :=
    match QuotedText.quotedTexts (text.toList.length + 1) text.toList with
    | some ["cbor", hex] => .ok (.object [("cbor", .string hex)])
    | _ => .error "expected value at line 1 column 1"
  fromStr_empty := ⟨_, rfl⟩
  toStringPretty json :=
    match json.get "conflicts" with
    | some (.array items) =>
      let lines := items.map fun item => "\n    " ++ prettyDocument "    " item
      "\x7b\n  \"conflicts\": [" ++ String.intercalate "," lines ++ "\n  ]\n\x7d"
    | _ => prettyDocument "" json
  hexError _ := "Invalid character"

theorem len_wrapperText_le (bytes : Bytes) : len (wrapperText bytes) ≤ 16 * bytes.length + 96 := by
  have chars : (Hex.encode bytes).toList.length = 2 * bytes.length := Hex.length_encode bytes
  have escaped := QuotedText.length_escape_le (Hex.encode bytes).toList
  have wrapped : (wrapperChars bytes).length ≤ 4 * bytes.length + 24 := by
    simp [wrapperChars, QuotedText.document, QuotedText.quote, QuotedText.escape, QuotedText.escapeChar] at escaped ⊢
    omega
  exact (len_ofList_le _).trans (by omega)

theorem wrapperLibraries_fromStr (bytes : Bytes) :
    wrapperLibraries.fromStr (wrapperText bytes) = .ok (.object [("cbor", .string (Hex.encode bytes))]) := by
  have quiet : ∀ piece ∈ ["\x7b", ":", "\x7d"], '"' ∉ piece.toList := by decide +kernel
  simp only [List.forall_mem_cons] at quiet
  obtain ⟨opening, colon, closing, _⟩ := quiet
  have leads : ∀ piece ∈ [("\x7b".toList, "cbor"), (":".toList, Hex.encode bytes)], QuotedText.Unquoted piece.1 := by
    simp only [List.forall_mem_cons]
    exact ⟨opening, colon, by simp⟩
  have texts := QuotedText.quotedTexts_of_document leads closing
  simp only [wrapperLibraries, wrapperText, String.toList_ofList, wrapperChars, texts]
  rfl

/-- A file with a wrapper of a proof loads as that proof. -/
theorem loadProof_wrapper {world : World} {path : String} {bytes : Bytes} {proof : Proof} (file : path ≠ "-")
    (there : world.files path = .ok (utf8 (wrapperText bytes)))
    (small : bytes.length ≤ 2 ^ 16)
    (read : (decodeStrict bytes Limits.default >>= cborToProof Limits.default) = .ok proof) :
    loadProof wrapperLibraries path world = .ok { canonical := bytes, proof } world := by
  obtain ⟨value, decoded, parsed⟩ := bind_eq_ok.mp read
  have short : ¬ maxInputFileBytes < (utf8 (wrapperText bytes)).length := by
    have within : (utf8 (wrapperText bytes)).length ≤ 16 * bytes.length + 96 := len_wrapperText_le bytes
    rw [maxInputFileBytes]
    omega
  have text : inputText path world = .ok (wrapperText bytes) := by
    rw [inputText, if_neg file, there, fileText, if_neg short, fromUtf8_utf8]
  have fields : rejectUnknownWrapperFields (.object [("cbor", .string (Hex.encode bytes))]) (wrapperLabel path)
      proofWrapperAllowed = .ok () := rfl
  have kind : checkKind (wrapperLabel path) (.object [("cbor", .string (Hex.encode bytes))]) = .ok () := rfl
  have wrapped : wrappedBytes wrapperLibraries (wrapperLabel path) (.object [("cbor", .string (Hex.encode bytes))]) =
      .ok bytes := by
    simp [wrappedBytes, Json.strField, Json.get, Json.asStr]
  have claimed : checkClaimedId (wrapperLabel path) (.object [("cbor", .string (Hex.encode bytes))]) proof = .ok () :=
    rfl
  have loaded : proofOfText wrapperLibraries (wrapperLabel path) (wrapperText bytes) =
      .ok { canonical := bytes, proof } := by
    simp only [proofOfText, parseJson, wrapperLibraries_fromStr, ok_bind, fields, kind, wrapped, claimed,
      labelled_eq_ok.mpr decoded, labelled_eq_ok.mpr parsed]
  rw [loadProof_eq, World.afterRead_file file, text, ok_bind, loaded]
  rfl

/-- A world with nothing but wrappers of proofs, each in its file. -/
def wrapperWorld (wrappers : List (String × Bytes)) : World where
  files path :=
    match wrappers.lookup path with
    | some bytes => .ok (utf8 (wrapperText bytes))
    | none => .error { notFound := true, text := "No such file or directory (os error 2)" }
  writeError _ := none
  stdin := []

theorem loadProof_wrapperWorld {wrappers : List (String × Bytes)} {path : String} {bytes : Bytes} {proof : Proof}
    (file : path ≠ "-") (there : wrappers.lookup path = some bytes)
    (read : (decodeStrict bytes Limits.default >>= cborToProof Limits.default) = .ok proof ∧ bytes.length ≤ 2 ^ 16) :
    loadProof wrapperLibraries path (wrapperWorld wrappers) =
      .ok { canonical := bytes, proof } (wrapperWorld wrappers) := by
  obtain ⟨read, small⟩ := read
  have file_there : (wrapperWorld wrappers).files path = .ok (utf8 (wrapperText bytes)) := by
    simp [wrapperWorld, there]
  exact loadProof_wrapper file file_there small read

def composeFlags (proofs : String) : Cli where
  values := [("kind", "payment"), ("subject", "acct:1"), ("predicate", "settled"), ("created-at", "1700000100"),
    ("out", "composite.json")]
  multi := [("proofs", [proofs])]

/-- What is gathered builds the composite when its steps, which ask nothing of the world, do so. -/
theorem composeFlags_build {primitives : Primitives} {maps : MapOrder} {proofs : String} {gathered : Gathered}
    {composite : Proof}
    (done : (composeProposition (composeFlags proofs) >>= fun proposition =>
      composeBuilder primitives maps (composeFlags proofs) proposition gathered >>= fun builder =>
        (labelled "compose" (builder.build primitives Limits.default)).map BuiltProof.proof) = .ok composite) :
    ∃ proposition builder built, composeProposition (composeFlags proofs) = .ok proposition ∧
      composeBuilder primitives maps (composeFlags proofs) proposition gathered = .ok builder ∧
      builder.build primitives Limits.default = .ok built ∧ built.proof = composite := by
  obtain ⟨proposition, stated, done⟩ := bind_eq_ok.mp done
  obtain ⟨builder, assembled, done⟩ := bind_eq_ok.mp done
  obtain ⟨built, builds, same⟩ := map_eq_ok.mp done
  exact ⟨proposition, builder, built, stated, assembled, labelled_eq_ok.mp builds, same⟩

end ProofEngine
