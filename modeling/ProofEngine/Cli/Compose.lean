import ProofEngine.Cli.Ingest
import ProofEngine.Cli.Verify
import ProofEngine.Lib.FirstBy
import ProofEngine.Verify.Builder

/-! # The compose command

The members of several proofs go into one: each input is loaded and its members are kept under their recomputed ids,
then all inputs are loaded again and the graph of their members is checked.  An input whose claimed id has come before
adds nothing the first time.  The tables are hash maps, so the order in which they are walked is a parameter. -/

namespace ProofEngine

open Text StableSort FirstBy

/-! ## Hash maps -/

/-- The hash maps that are walked. -/
inductive ComposeMap where
  | events
  | attestations
  | evidence
  | relationships
  | claims
  deriving DecidableEq, Repr

/-- The order in which each map is walked. -/
structure MapOrder where
  visit : ComposeMap → {α : Type} → List α → List α
  perm : ∀ map {α : Type} (entries : List α), (visit map entries).Perm entries

/-- Insertion order. -/
def MapOrder.inserted : MapOrder where
  visit _ _ entries := entries
  perm _ _ _ := .refl _

/-! ## Flags -/

/-- The pieces of `item` between commas and colons. -/
def listPieces (item : String) : List String :=
  (item.toList.splitOnP fun char => char = ',' || char = ':').map String.ofList

/-- A list of inputs; an empty text stands for none. -/
def inputList (cli : Cli) (name : String) : Except String (List String) :=
  let pieces := ((cli.many name).filter fun item => !item.isEmpty).flatMap listPieces
  if pieces.any String.isEmpty then .error ("--" ++ name ++ " has an empty entry")
  else if pieces.isEmpty then
    if (cli.many name).any String.isEmpty then .ok []
    else
      let hint :=
        if name = "evidence" then " (attestations-only proof? pass --evidence \"\" for no evidence)" else ""
      .error ("missing required flag --" ++ name ++ hint)
  else .ok pieces

def composeProposition (cli : Cli) : Except String Proposition := do
  let context ← parseFields (cli.opt "context")
  let kind ← cli.req "kind"
  let subject ← cli.req "subject"
  let predicate ← cli.req "predicate"
  let atTime ← cli.optU64 "at-time"
  .ok { v := 1, kind, subject, predicate, object := cli.opt "object", atTime, context }

/-! ## Errors -/

/-- An error of the engine as it is displayed. -/
def displayed {α : Type} : Result α → Except String α
  | .ok value => .ok value
  | .error failure => .error failure.display

/-- The outcome of a graph check under a label. -/
def labelledOutcome {α : Type} (label : String) : Outcome α → Except String α
  | .ok value => .ok value
  | .error (.error failure) => .error (label ++ ": " ++ failure.display)
  | .error (.panic site) => .error ("panic: " ++ site)
  | .error .unfinished => .error "unfinished"

theorem displayed_eq_ok {α : Type} {result : Result α} {value : α} :
    displayed result = .ok value ↔ result = .ok value := by
  cases result <;> simp [displayed]

theorem labelledOutcome_eq_ok {α : Type} {label : String} {outcome : Outcome α} {value : α} :
    labelledOutcome label outcome = .ok value ↔ outcome = .ok value := by
  cases outcome with
  | ok found => simp [labelledOutcome]
  | error failure => cases failure <;> simp [labelledOutcome]

/-! ## Gathering -/

/-- What was kept of the inputs, each member under its recomputed id. -/
structure Gathered where
  seenProofs : List String := []
  events : List (String × EventContent) := []
  attestations : List CreatedAttestation := []
  evidence : List (String × Evidence) := []
  relationships : List (String × Relationship) := []
  deriving DecidableEq, Repr

section
variable (primitives : Primitives)

/-- The id under which an event is kept. -/
def composedEventId (event : EventContent) : Except String String := do
  let encoded ← displayed (eventToCbor event)
  .ok (eventId primitives (encodeCanonical encoded))

def gatherEvent (events : List (String × EventContent)) (event : EventContent) :
    Except String (List (String × EventContent)) := do
  let id ← composedEventId primitives event
  .ok (insertNew Prod.fst events (id, event))

/-- An attestation that is kept has a signature that verifies; one whose id is there is not looked at. -/
def gatherAttestation (path : String) (attestations : List CreatedAttestation) (stored : StoredAttestation) :
    Except String (List CreatedAttestation) := do
  let canonical := encodeCanonical (attestationToCbor stored.content)
  let id := attestationId primitives canonical
  if id ∈ attestations.map (·.id) then .ok attestations
  else
    let (content, verifiedId) ← labelled ("compose: attestation in " ++ path ++ " rejected")
      (verifyAttestation primitives stored.sign1 stored.content.issuer .strict Limits.default)
    if verifiedId ≠ id ∨ content ≠ stored.content then .error ("compose: attestation id mismatch in " ++ path)
    else .ok (attestations ++ [{ content := stored.content, canonical, id, sign1 := stored.sign1 }])

def gatherMembers (path : String) (gathered : Gathered) (proof : Proof) : Except String Gathered := do
  let events ← proof.events.foldlM (gatherEvent primitives) gathered.events
  let attestations ← proof.attestations.foldlM (gatherAttestation primitives path) gathered.attestations
  .ok
    { seenProofs := gathered.seenProofs ++ [proof.proofId]
      events
      attestations
      evidence := proof.evidence.foldl
        (fun known evidence => insertNew Prod.fst known (evidenceMemberId primitives evidence, evidence))
        gathered.evidence
      relationships := proof.relationships.foldl
        (fun known relationship =>
          insertNew Prod.fst known (relationshipMemberId primitives relationship, relationship))
        gathered.relationships }

variable (libraries : Libraries)

def gatherInput (path : String) (gathered : Gathered) : Command Gathered := do
  let loaded ← loadProof libraries path
  -- whoever has used the id first, the rest is taken for a repetition
  if loaded.proof.proofId ∈ gathered.seenProofs then pure gathered
  else Command.of (gatherMembers primitives path gathered loaded.proof)

def gatherInputs : (paths : List String) → Gathered → Command Gathered
  | [], gathered => pure gathered
  | path :: paths, gathered => do
    let gathered ← gatherInput primitives libraries path gathered
    gatherInputs paths gathered

end

/-! ## Divergent claims -/

/-- A pair of attestations that disagree about a topic. -/
structure DivergentPair where
  claimType : String
  subject : String
  attestationA : String
  attestationB : String
  deriving DecidableEq, Repr

/-- The attestations by claim type and subject. -/
def byClaim (attestations : List CreatedAttestation) : List ((String × String) × List CreatedAttestation) :=
  (attestations.map fun created => (created.content.claim.claimType, created.content.subject)).dedup.map fun topic =>
    (topic, attestations.filter fun created => (created.content.claim.claimType, created.content.subject) = topic)

/-- The attestations of a group whose fields are not those of the one with the least id. -/
def groupPairs (group : (String × String) × List CreatedAttestation) : List DivergentPair :=
  match sortOn (fun created => utf8 created.id) group.2 with
  | [] => []
  | base :: candidates =>
    (candidates.filter fun candidate => base.content.claim.fields ≠ candidate.content.claim.fields).map fun candidate =>
      { claimType := group.1.1
        subject := group.1.2
        attestationA := base.id
        attestationB := candidate.id }

def divergentPairs (order : MapOrder) (attestations : List CreatedAttestation) : List DivergentPair :=
  (order.visit .claims (byClaim (order.visit .attestations attestations))).flatMap groupPairs

/-! ## Assembly -/

section
variable (primitives : Primitives) (order : MapOrder)

/-- The builder with the kept members and the ids of their proofs. -/
def composeBuilder (cli : Cli) (proposition : Proposition) (gathered : Gathered) : Except String ProofBuilder := do
  let createdAt ← cli.reqU64 "created-at"
  let builder ← (sortOn utf8 gathered.seenProofs).foldlM
    (fun builder id => labelled "compose: bad source id" (ProofBuilder.addReferencedProof primitives builder id))
    (ProofBuilder.new proposition createdAt)
  let events ← (order.visit .events gathered.events).mapM fun entry =>
    displayed (createEvent primitives entry.2 Limits.default)
  let evidence ← (order.visit .evidence gathered.evidence).mapM fun entry =>
    displayed (makeEvidence primitives entry.2.kind entry.2.digest entry.2.attestationRef entry.2.hint Limits.default)
  let relationships ← (order.visit .relationships gathered.relationships).mapM fun entry =>
    displayed (makeRelationship primitives entry.2 Limits.default)
  let builder := events.foldl ProofBuilder.addEvent builder
  let builder := (order.visit .attestations gathered.attestations).foldl ProofBuilder.addAttestation builder
  let builder := evidence.foldl ProofBuilder.addEvidence builder
  .ok (relationships.foldl ProofBuilder.addRelationship builder)

/-! ## Coherence -/

/-- The graph of the members of all inputs. -/
structure UnionGraph where
  nodeIds : List String := []
  edges : List EdgeRecord := []
  deriving DecidableEq, Repr

def unionInput (graph : UnionGraph) (proof : Proof) : Except String UnionGraph := do
  let eventIds ← proof.events.mapM (composedEventId primitives)
  .ok
    { nodeIds := graph.nodeIds ++ eventIds ++ proofAttestationIds primitives proof ++
        proof.evidence.map (evidenceMemberId primitives)
      edges := proof.relationships.foldl
        (fun edges content => insertNew (·.id) edges { content, id := relationshipMemberId primitives content })
        graph.edges }

variable (libraries : Libraries)

/-- Loads the inputs again, all of them. -/
def unionInputs : (paths : List String) → UnionGraph → Command UnionGraph
  | [], graph => pure graph
  | path :: paths, graph => do
    let loaded ← loadProof libraries path
    let graph ← Command.of (unionInput primitives graph loaded.proof)
    unionInputs paths graph

/-- The types that need backing besides the default ones. -/
def composeGrounding (cli : Cli) : Option (List String) :=
  if (extraGrounded cli).isEmpty then none else some (extraGrounded cli)

def checkUnion (hashOrder : HashOrder) (cli : Cli) (graph : UnionGraph) : Except String Unit := do
  let nodes := NodeSet.new graph.nodeIds
  let _ ← labelledOutcome "compose: union graph invalid"
    (validateGraphWithGrounding hashOrder graph.edges nodes Limits.default (composeGrounding cli))
  labelledOutcome "compose: union derivation cycle" (checkDerivationAcyclic hashOrder graph.edges nodes)

/-! ## The command -/

/-- To a file, or to standard output. -/
def writeJson (path : String) (document : Json) : Command Unit :=
  if path = "-" then pure () else writeFile "write " path (libraries.toStringPretty document ++ "\n")

def writeProofFile (path id : String) (canonical : Bytes) : Command Unit :=
  writeJson libraries path
    (.object [("kind", .string "proof"), ("id", .string id), ("cbor", .string (Hex.encode canonical))])

def pairJson (pair : DivergentPair) : Json :=
  .object [("kind", .string "divergent_claims"), ("claim_type", .string pair.claimType),
    ("subject", .string pair.subject), ("attestation_a", .string pair.attestationA),
    ("attestation_b", .string pair.attestationB)]

/-- The conflicts go next to the proof, so that no composite buries them. -/
def writeConflicts (out : String) (pairs : List DivergentPair) : Command Unit :=
  if pairs.isEmpty then pure ()
  else
    writeJson libraries (trimEndText out ".json" ++ ".conflicts.json")
      (.object [("conflicts", .array (pairs.map pairJson))])

/-- The proof that was written, and the pairs that were flagged. -/
structure Composition where
  built : BuiltProof
  divergent : List DivergentPair
  deriving DecidableEq, Repr

def compose (hashOrder : HashOrder) (cli : Cli) : Command Composition := do
  let paths ← Command.of (inputList cli "proofs")
  if paths.isEmpty then throw "compose: missing --proofs a.json,b.json"
  else
    let proposition ← Command.of (composeProposition cli)
    let gathered ← gatherInputs primitives libraries paths {}
    let divergent := divergentPairs order gathered.attestations
    let builder ← Command.of (composeBuilder primitives order cli proposition gathered)
    let graph ← unionInputs primitives libraries paths {}
    Command.of (checkUnion hashOrder cli graph)
    let built ← Command.of (labelled "compose" (builder.build primitives Limits.default))
    let out ← Command.of (cli.req "out")
    writeProofFile libraries out built.id built.canonical
    writeConflicts libraries out divergent
    pure { built, divergent }

end

end ProofEngine
