import ProofEngine.Core.Limits
import ProofEngine.Core.Model
import Mathlib.Data.List.Dedup

/-! # Graph validation

Topology checks over relationships whose ids were already checked.  Sets are lists of their
elements; where the code walks through a hash set, the order of the walk is a parameter. -/

namespace ProofEngine

open Text

structure EdgeRecord where
  content : Relationship
  id : String
  deriving DecidableEq, Repr

/-- The artifact ids edges may name. -/
structure NodeSet where
  ids : List String
  nodup : ids.Nodup

def NodeSet.new (ids : List String) : NodeSet := ⟨ids.dedup, ids.nodup_dedup⟩

def NodeSet.contains (nodes : NodeSet) (id : String) : Bool := nodes.ids.contains id

def NodeSet.len (nodes : NodeSet) : Nat := nodes.ids.length

structure ValidatedGraph where
  edgeIds : List String
  nodeCount : Nat
  edgeCount : Nat
  longestSupersedesChain : Nat
  deriving DecidableEq, Repr

/-! ## Hash order -/

/-- The walks through hash sets. -/
inductive HashSite where
  | derivation
  | provenance
  | branch
  | sources
  deriving DecidableEq, Repr

/-- The order in which each walk meets the elements of its set. -/
structure HashOrder where
  visit : HashSite → List String → List String
  perm : ∀ site items, (visit site items).Perm items

/-- Insertion order. -/
def HashOrder.inserted : HashOrder where
  visit _ items := items
  perm _ _ := .refl _

/-! ## Cycle checks -/

inductive Color where
  | white
  | gray
  | black
  deriving DecidableEq, Repr

/-- Directed edges between members. -/
abbrev Links := List (String × String)

def Links.from (links : Links) (node : String) : List String :=
  (links.filter fun link => link.1 = node).map Prod.snd

def Links.endpoints (links : Links) : List String :=
  (links.flatMap fun link => [link.1, link.2]).dedup

/-- The links a cycle check considers: member to member, less the skipped types. -/
def memberLinks (skipped : List String) (edges : List EdgeRecord) (nodes : NodeSet) : Links :=
  edges.filterMap fun edge =>
    if skipped.contains edge.content.relType then none
    else if !nodes.contains edge.content.source || !nodes.contains edge.content.target then none
    else some (edge.content.source, edge.content.target)

abbrev Colors := String → Option Color

def Colors.paint (colors : Colors) (node : String) (color : Color) : Colors :=
  fun other => if other = node then some color else colors other

def cycleError {α : Type} (message : String → String) (node : String) : Outcome α :=
  .error (.error (ErrorCode.cycleDetected.err (message node)))

/-- The successors of a node that is being expanded, pushed on the stack. -/
def pushSuccessors (message : String → String) (colors : Colors) :
    (stack : List (String × Bool)) → (successors : List String) → Outcome (List (String × Bool))
  | stack, [] => .ok stack
  | stack, successor :: successors =>
    match (colors successor).getD .white with
    | .black => pushSuccessors message colors stack successors
    | .gray => cycleError message successor
    | .white => pushSuccessors message colors ((successor, false) :: stack) successors

/-- The explicit-stack search; the flag marks a node whose successors are done. -/
def searchStack (message : String → String) (links : Links) :
    (fuel : Nat) → Colors → (stack : List (String × Bool)) → Outcome Colors
  | 0, _, _ => .error .unfinished
  | _ + 1, colors, [] => .ok colors
  | fuel + 1, colors, (node, true) :: stack => searchStack message links fuel (colors.paint node .black) stack
  | fuel + 1, colors, (node, false) :: stack =>
    match colors node with
    | none => .error (.panic "color map has no entry for a stacked node")
    | some .black => searchStack message links fuel colors stack
    | some .gray => cycleError message node
    | some .white => do
      let grayed := colors.paint node .gray
      let pushed ← pushSuccessors message grayed ((node, true) :: stack) (links.from node)
      searchStack message links fuel grayed pushed

def searchStarts (message : String → String) (links : Links) (fuel : Nat) :
    Colors → (starts : List String) → Outcome Unit
  | _, [] => .ok ()
  | colors, start :: starts =>
    match colors start with
    | none => .error (.panic "color map has no entry for a start node")
    | some .white => do
      let searched ← searchStack message links fuel colors [(start, false)]
      searchStarts message links fuel searched starts
    | some _ => searchStarts message links fuel colors starts

/-- Depth-first search from every node, in the order the set is walked. -/
def checkAcyclic (order : HashOrder) (site : HashSite) (message : String → String) (links : Links) :
    Outcome Unit :=
  let all := links.endpoints
  let colors : Colors := fun node => if all.contains node then some .white else none
  searchStarts message links (2 * (links.length + all.length) + 2) colors (order.visit site all)

def checkAcyclicProvenance (order : HashOrder) (edges : List EdgeRecord) (nodes : NodeSet) : Outcome Unit :=
  checkAcyclic order .provenance
    (fun node => "cycle detected in provenance graph at " ++ node ++ " (DAG profile)")
    (memberLinks [RelType.equivalent] edges nodes)

def checkDerivationAcyclic (order : HashOrder) (edges : List EdgeRecord) (nodes : NodeSet) : Outcome Unit :=
  checkAcyclic order .derivation
    (fun node => "cycle detected in derivation graph at " ++ node ++
      " (derivation must be acyclic; REFERENCES/EQUIVALENT linkage excluded)")
    (memberLinks [RelType.references, RelType.equivalent] edges nodes)

/-! ## Supersession chains -/

def supersedesLinks (edges : List EdgeRecord) : Links :=
  (edges.filter fun edge => edge.content.relType = RelType.supersedes).map fun edge =>
    (edge.content.source, edge.content.target)

def outDegree (links : Links) (node : String) : Nat := links.countP fun link => link.1 = node

def inDegree (links : Links) (node : String) : Nat := links.countP fun link => link.2 = node

def checkLinear (links : Links) : (nodes : List String) → Result Unit
  | [] => .ok ()
  | node :: nodes =>
    if 1 < outDegree links node ∨ 1 < inDegree links node then
      .error (ErrorCode.schemaViolation.err
        ("supersedes must be linear chains (branch at " ++ node ++ ")"))
    else checkLinear links nodes

/-- Counters of the level-by-level walk. -/
structure ChainState where
  stack : List String
  indeg : String → Option Nat
  dist : String → Option Nat
  seen : Nat
  longest : Nat

def graphInvariantError {α : Type} (what : String) : Outcome α :=
  .error (.error (ErrorCode.malformed.err ("supersedes graph invariant violated: missing " ++ what)))

/-- One successor of a node at distance `d`. -/
def relaxSuccessor (d : Nat) (state : ChainState) (node : String) : Outcome ChainState :=
  match state.dist node with
  | none => graphInvariantError "node"
  | some reached =>
    let farther := reached < d + 1
    let dist := if farther then fun other => if other = node then some (d + 1) else state.dist other
      else state.dist
    let longest := if farther then max state.longest (d + 1) else state.longest
    match state.indeg node with
    | none => graphInvariantError "indegree"
    | some 0 => .error (.panic "attempt to subtract with overflow")
    | some (left + 1) =>
      let indeg := fun other => if other = node then some left else state.indeg other
      .ok { state with
            dist, longest, indeg,
            stack := if left = 0 then node :: state.stack else state.stack }

def chainLoop (links : Links) : (fuel : Nat) → ChainState → Outcome ChainState
  | 0, _ => .error .unfinished
  | fuel + 1, state =>
    match state.stack with
    | [] => .ok state
    | node :: stack =>
      match state.dist node with
      | none => graphInvariantError "distance"
      | some d => do
        let relaxed ← (links.from node).foldlM (relaxSuccessor d)
          { state with stack, seen := state.seen + 1 }
        chainLoop links fuel relaxed

/-- The length of the longest chain, when the supersession edges are disjoint chains within the depth
    limit. -/
def checkSupersedes (order : HashOrder) (edges : List EdgeRecord) (limits : Limits) : Outcome Nat :=
  let links := supersedesLinks edges
  if links.isEmpty then .ok 0
  else do
    let nodes := links.endpoints
    Result.lift (checkLinear links (order.visit .branch nodes))
    let indeg := fun node => if inDegree links node = 0 then none else some (inDegree links node)
    let sources := (order.visit .sources nodes).filter fun node => (indeg node).getD 0 = 0
    let state ← chainLoop links (links.length + nodes.length + 1)
      { stack := sources.reverse, indeg,
        dist := fun node => if nodes.contains node then some 1 else none, seen := 0, longest := 1 }
    if state.seen ≠ nodes.length then
      .error (.error (ErrorCode.cycleDetected.err "cycle in SUPERSEDES subgraph"))
    else if limits.maxDepth.toNat < state.longest then
      .error (.error (ErrorCode.limitExceeded.err ("supersedes chain " ++ toString state.longest ++
        " > max_depth " ++ toString limits.maxDepth)))
    else .ok state.longest

/-! ## Endpoints, references and grounding -/

/-- Text before the first colon and the text after it. -/
def splitColon (chars : List Char) : List Char × Option (List Char) :=
  match chars.dropWhile (· ≠ ':') with
  | [] => (chars, none)
  | _ :: rest => (chars.takeWhile (· ≠ ':'), some rest)

/-- `prefix:vN:rest` names a member of this or a later version. -/
def looksLikeArtifactId (text : String) : Bool :=
  match splitColon text.toList with
  | (_, none) => false
  | (lead, some more) =>
    match splitColon more with
    | (_, none) => false
    | (version, some rest) =>
      let versioned :=
        match version with
        | 'v' :: digit :: digits => (digit :: digits).all (fun char => '0' ≤ char && char ≤ '9') && !rest.isEmpty
        | _ => false
      (["evt", "att", "evd", "rel", "prf"].contains (String.ofList lead) && !rest.isEmpty) ||
        (versioned && !lead.isEmpty && !lead.contains ' ')

def danglingError {α : Type} (label id : String) : Result α :=
  .error (ErrorCode.danglingReference.err ("unknown " ++ label ++ " " ++ id))

/-- Endpoints of an identity assertion: ids must resolve, free text is taken as asserted. -/
def identityEndpoint (nodes : NodeSet) (label endpoint : String) : Result (List String) :=
  if looksLikeArtifactId endpoint && !nodes.contains endpoint then danglingError label endpoint
  else .ok (if nodes.contains endpoint then [endpoint] else [])

/-- The member endpoints of an edge. -/
def edgeEndpoints (nodes : NodeSet) (relationship : Relationship) : Result (List String) :=
  if relationship.relType = RelType.equivalent then do
    let source ← identityEndpoint nodes "from" relationship.source
    let target ← identityEndpoint nodes "to" relationship.target
    .ok (source ++ target)
  else if !nodes.contains relationship.source then danglingError "from" relationship.source
  else if !nodes.contains relationship.target then danglingError "to" relationship.target
  else .ok [relationship.source, relationship.target]

/-- A backing reference has its own kind and resolves. -/
def checkBacking (nodes : NodeSet) (label lead : String) : Option String → Result Unit
  | none => .ok ()
  | some id =>
    if id.isEmpty then .error (ErrorCode.schemaViolation.err ("empty " ++ label))
    else if !startsWith id lead then
      .error (ErrorCode.schemaViolation.err (label ++ " " ++ id ++ " must start with " ++ lead))
    else if !nodes.contains id then danglingError label id
    else .ok ()

/-- All checks of one edge; `seen` are the ids of the edges before it. -/
def checkEdge (nodes : NodeSet) (extraGrounded : Option (List String)) (seen : List String)
    (edge : EdgeRecord) : Result (List String) := do
  let relationship := edge.content
  if seen.contains edge.id then
    .error (ErrorCode.schemaViolation.err ("duplicate edge id " ++ edge.id))
  else if relationship.v ≠ 1 then
    .error (ErrorCode.unsupportedVersion.err "only relationship v=1 supported")
  else if relationship.source.isEmpty || relationship.target.isEmpty then
    .error (ErrorCode.danglingReference.err "empty endpoint")
  else if relationship.source = relationship.target then
    .error (ErrorCode.schemaViolation.err "self-edge forbidden")
  else
    let endpoints ← edgeEndpoints nodes relationship
    let grounded := RelType.requiresGrounding relationship.relType ||
      (extraGrounded.map (·.contains relationship.relType)).getD false
    if grounded && relationship.evidenceRef.isNone && relationship.attestationRef.isNone then
      .error (ErrorCode.relationshipUngrounded.err
        ("edge " ++ edge.id ++ " (" ++ relationship.relType ++ ") lacks backing evidence"))
    else
      checkBacking nodes "evidence_ref" "evd:v1:" relationship.evidenceRef
      checkBacking nodes "attestation_ref" "att:v1:" relationship.attestationRef
      .ok endpoints

/-- The loop over edges; returns all member endpoints. -/
def checkEdges (nodes : NodeSet) (extraGrounded : Option (List String)) :
    (seen : List String) → (edges : List EdgeRecord) → Result (List String)
  | _, [] => .ok []
  | seen, edge :: edges => do
    let here ← checkEdge nodes extraGrounded seen edge
    let later ← checkEdges nodes extraGrounded (edge.id :: seen) edges
    .ok (here ++ later)

def tooManyError {α : Type} (what : String) (count : Nat) (bound : String) (limit : UInt64) : Result α :=
  .error (ErrorCode.limitExceeded.err
    (what ++ " " ++ toString count ++ " > " ++ bound ++ " " ++ toString limit))

def validateGraphWithGrounding (order : HashOrder) (edges : List EdgeRecord) (nodes : NodeSet)
    (limits : Limits) (extraGrounded : Option (List String)) : Outcome ValidatedGraph := do
  if limits.maxEdges.toNat < edges.length then
    Result.lift (tooManyError "edges" edges.length "max_edges" limits.maxEdges)
  else if limits.maxNodes.toNat < nodes.len then
    Result.lift (tooManyError "nodes" nodes.len "max_nodes" limits.maxNodes)
  else
    let endpoints ← Result.lift (checkEdges nodes extraGrounded [] edges)
    let nodeCount := endpoints.dedup.length
    if limits.maxNodes.toNat < nodeCount then
      Result.lift (tooManyError "nodes" nodeCount "max_nodes" limits.maxNodes)
    else
      let longest ← checkSupersedes order edges limits
      .ok { edgeIds := edges.map (·.id), nodeCount, edgeCount := edges.length,
            longestSupersedesChain := longest }

end ProofEngine
