import ProofEngine.Verify.Pipeline

/-! # Transitive references

Proofs name other proofs.  Given a store, the names are followed breadth first: every proof found is verified
from its own bytes, and whatever cannot be produced is recorded with a reason.  The depth and the number of
recorded names are bounded, so that a hostile store cannot keep the search going. -/

namespace ProofEngine

open StableSort Text

/-! ## Stores -/

/-- The reading side of a store: bytes, their absence, or a transport failure. -/
abbrev ArtifactStore := String → Except String (Option Bytes)

structure MemoryStore where
  inner : List (String × Bytes)
  maxBytes : UInt64
  deriving DecidableEq, Repr

def MemoryStore.new : MemoryStore := { inner := [], maxBytes := Limits.default.maxProofSize }

/-- Bytes are added once; the same id with other bytes is refused. -/
def MemoryStore.put (store : MemoryStore) (id : String) (cbor : Bytes) : Except String MemoryStore :=
  if id = "" ∨ cbor = [] then .error "store put requires non-empty id and bytes"
  else if store.maxBytes.toNat < cbor.length then
    .error ("store put: " ++ toString cbor.length ++ " bytes exceeds " ++ toString store.maxBytes ++
      " (MemoryStore max_bytes)")
  else
    match store.inner.lookup id with
    | some previous =>
      if previous ≠ cbor then .error ("store conflict: " ++ id ++ " already held with different bytes")
      else .ok store
    | none => .ok { store with inner := (id, cbor) :: store.inner }

def MemoryStore.get (store : MemoryStore) : ArtifactStore := fun id => .ok (store.inner.lookup id)

/-- Two stores read as one; an id that they hold with different bytes is a failure. -/
def unionStore (first second : ArtifactStore) : ArtifactStore := fun id => do
  let fromFirst ← first id
  let fromSecond ← second id
  match fromFirst, fromSecond with
  | some held, some other =>
    if held ≠ other then .error ("store equivocation: " ++ id ++ " held with different bytes on each side")
    else .ok (some held)
  | some held, none => .ok (some held)
  | none, held => .ok held

/-! ## The search -/

/-- Why a reference has no verified report. -/
inductive UnresolvedReason where
  | unavailable
  /-- Bytes were found, but under another id. -/
  | idMismatch (found : String)
  | depthExceeded
  | overBudget
  | store (message : String)
  deriving DecidableEq, Repr

structure ResolvedProof where
  id : String
  /-- Distance from the root; its own references are at depth 1. -/
  depth : Nat
  report : VerifyReport
  deriving DecidableEq, Repr

structure UnresolvedRef where
  id : String
  depth : Nat
  reason : UnresolvedReason
  deriving DecidableEq, Repr

structure ResolutionReport where
  root : VerifyReport
  resolved : List ResolvedProof
  unresolved : List UnresolvedRef
  deriving DecidableEq, Repr

/-- How many names are recorded before nothing more is fetched. -/
def budget (limits : Limits) (maxTransitiveDepth : UInt64) : UInt64 :=
  let bound := saturatingAdd (saturatingMul maxTransitiveDepth limits.maxReferencedProofs) 1
  if bound < 1 then 1 else bound

/-- The variables of the loop. -/
structure Resolution where
  queue : List (String × Nat)
  visited : List String
  resolved : List ResolvedProof
  unresolved : List UnresolvedRef
  /-- The ids the store was asked for, in order.  The source keeps no such list. -/
  reads : List String
  deriving DecidableEq, Repr

def Resolution.refuse (search : Resolution) (id : String) (depth : Nat) (reason : UnresolvedReason) : Resolution :=
  { search with unresolved := search.unresolved ++ [⟨id, depth, reason⟩] }

def Resolution.start (root : VerifyReport) : Resolution where
  queue := root.referencedProofs.map (·, 1)
  visited := root.proofId.toList
  resolved := []
  unresolved := []
  reads := []

section
variable (primitives : Primitives) (orders : Bytes → HashOrder) (store : ArtifactStore) (ctx : VerifyCtx)
  (maxTransitiveDepth : UInt64)

/-- What becomes of a reference that the store is asked for. -/
def fetchReference (search : Resolution) (id : String) (depth : Nat) : Outcome Resolution :=
  let search := { search with reads := search.reads ++ [id] }
  match store id with
  | .error message => .ok (search.refuse id depth (.store message))
  | .ok none => .ok (search.refuse id depth .unavailable)
  | .ok (some bytes) => do
    let report ← verifyProof primitives (orders bytes) ctx bytes
    if report.proofId ≠ some id then
      .ok (search.refuse id depth (.idMismatch (report.proofId.getD "<unparseable>")))
    else
      .ok { search with
        queue := search.queue ++ report.referencedProofs.map (·, depth + 1)
        resolved := search.resolved ++ [⟨id, depth, report⟩] }

/-- The body of the loop on a reference taken from the queue. -/
def resolveReference (search : Resolution) (id : String) (depth : Nat) : Outcome Resolution :=
  if search.visited.contains id then .ok search
  else
    let search := { search with visited := id :: search.visited }
    if maxTransitiveDepth.toNat < depth then .ok (search.refuse id depth .depthExceeded)
    else if (budget ctx.limits maxTransitiveDepth).toNat ≤ search.resolved.length + search.unresolved.length then
      .ok (search.refuse id depth .overBudget)
    else fetchReference primitives orders store ctx search id depth

def resolveLoop : (fuel : Nat) → Resolution → Outcome Resolution
  | 0, _ => .error .unfinished
  | fuel + 1, search =>
    match search.queue with
    | [] => .ok search
    | (id, depth) :: queue => do
      let next ← resolveReference primitives orders store ctx maxTransitiveDepth { search with queue } id depth
      resolveLoop fuel next

/-- Turns that are enough: the references of the root and those of as many proofs as the budget admits. -/
def resolveFuel (root : VerifyReport) : Nat :=
  root.referencedProofs.length +
    (budget ctx.limits maxTransitiveDepth).toNat * ctx.limits.maxReferencedProofs.toNat + 1

/-- The root report and the loop's variables when the queue is empty. -/
def resolveSearch (rootCanonical : Bytes) : Outcome (VerifyReport × Resolution) := do
  let root ← verifyProof primitives (orders rootCanonical) ctx rootCanonical
  let search ← resolveLoop primitives orders store ctx maxTransitiveDepth
    (resolveFuel ctx maxTransitiveDepth root) (Resolution.start root)
  .ok (root, search)

def resolveProofChain (rootCanonical : Bytes) : Outcome ResolutionReport := do
  let (root, search) ← resolveSearch primitives orders store ctx maxTransitiveDepth rootCanonical
  .ok { root, resolved := search.resolved, unresolved := search.unresolved }

end

/-! ## Reading the result -/

/-- Every reference has a verified report. -/
def ResolutionReport.complete (report : ResolutionReport) : Bool := report.unresolved.isEmpty

structure Ancestor where
  id : String
  depth : Nat
  resolved : Bool
  deriving DecidableEq, Repr

/-- The map of `ancestors`, by id. -/
abbrev Depths := List (String × Nat × Bool)

def Depths.addResolved (depths : Depths) (proof : ResolvedProof) : Depths :=
  match depths.lookup proof.id with
  | some _ =>
    depths.map fun entry => if entry.1 = proof.id then (entry.1, min entry.2.1 proof.depth, true) else entry
  | none => depths ++ [(proof.id, proof.depth, true)]

def Depths.addUnresolved (depths : Depths) (reference : UnresolvedRef) : Depths :=
  match depths.lookup reference.id with
  | some _ => depths
  | none => depths ++ [(reference.id, reference.depth, false)]

def ResolutionReport.depths (report : ResolutionReport) : Depths :=
  report.unresolved.foldl Depths.addUnresolved (report.resolved.foldl Depths.addResolved [])

def ancestorKey (ancestor : Ancestor) : Lex (Nat × Bytes) := toLex (ancestor.depth, utf8 ancestor.id)

/-- Everything the root reaches by name, nearest first, then by id. -/
def ResolutionReport.ancestors (report : ResolutionReport) : List Ancestor :=
  sortOn ancestorKey ((sortOn (fun entry => utf8 entry.1) report.depths).map fun entry =>
    { id := entry.1, depth := entry.2.1, resolved := entry.2.2 })

/-! ## Descendants -/

def descendantsError {α : Type} (message : String) : Outcome α :=
  .error (.error (ErrorCode.schemaViolation.err ("descendants_of: " ++ message)))

section
variable (primitives : Primitives) (orders : Bytes → HashOrder) (store : ArtifactStore) (ctx : VerifyCtx)
  (maxTransitiveDepth : UInt64)

/-- A candidate with an id is put into the store of candidates. -/
def addCandidate (state : MemoryStore × List String) (bytes : Bytes) : Outcome (MemoryStore × List String) := do
  let report ← verifyProof primitives (orders bytes) ctx bytes
  match report.proofId with
  | none => .ok state
  | some id =>
    match state.1.put id bytes with
    | .error message => descendantsError message
    | .ok held => .ok (held, state.2 ++ [id])

/-- Whether the proof held under `id` names `target`, directly or through others. -/
def namesTarget (target id : String) : Outcome Bool :=
  match store id with
  | .error message => descendantsError message
  | .ok none => descendantsError "candidate vanished from union store"
  | .ok (some bytes) => do
    let report ← resolveProofChain primitives orders store ctx maxTransitiveDepth bytes
    .ok (report.ancestors.any fun ancestor => ancestor.id = target)

/-- The loop over the candidates' ids; the target itself is passed over. -/
def selectDescendants (target : String) : (ids : List String) → Outcome (List String)
  | [] => .ok []
  | id :: ids =>
    if id = target then selectDescendants target ids
    else do
      let found ← namesTarget primitives orders store ctx maxTransitiveDepth target id
      let rest ← selectDescendants target ids
      .ok (if found then id :: rest else rest)

def descendantsOf (target : String) (candidates : List Bytes) : Outcome (List String) := do
  let (held, ids) ← candidates.foldlM (addCandidate primitives orders ctx) (MemoryStore.new, [])
  let out ← selectDescendants primitives orders (unionStore held.get store) ctx maxTransitiveDepth target ids
  .ok (sortOn utf8 out)

end

end ProofEngine
