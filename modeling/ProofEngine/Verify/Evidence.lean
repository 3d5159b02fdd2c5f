import ProofEngine.Graph.Validate
import ProofEngine.Verify.Lifecycle
import Mathlib.Data.Prod.Lex

/-! # EVIDENCE, RELATIONSHIPS and GRAPH

References resolve, asserted digests match, every evidence item has a status derived from effects and
from its backing attestation, and the relationship graph is consistent. -/

namespace ProofEngine

open StableSort Text LastMap

section
variable (primitives : Primitives) (ctx : VerifyCtx)

/-! ## Evidence -/

/-- Attestations whose evidence reference leaves the proof. -/
def evidenceRefChecks (proof : Proof) (nodes : NodeSet) : List CheckRecord :=
  proof.attestations.filterMap fun stored =>
    match stored.content.evidenceRef with
    | none => none
    | some reference =>
      if nodes.contains reference then none
      else some (.fail .evidence ("proof:" ++ proof.proofId) .danglingReference
        ("attestation evidence_ref " ++ reference ++ " not in proof"))

def digestByEvd (proof : Proof) : String → Option String :=
  lastValue ((proofEvidence primitives proof).map fun (evidence, id) => (id, Hex.encode evidence.digest.digest))

/-- The asserted digest of a statement against the evidence it refers to; no assertion, no check. -/
def digestCheck (proof : Proof) (entry : String × AttestationContent) : Option CheckRecord :=
  let object := "att:" ++ entry.1
  match evidenceDigestHex entry.2.claim with
  | none => none
  | some (.error .nonText) =>
    some (.fail .evidence object .schemaViolation
      "claim field evidence_digest must be text hex (64 sha-256 or 96 sha-384 chars)")
  | some (.error (.malformed len)) =>
    some (.fail .evidence object .schemaViolation
      ("claim field evidence_digest must be 64 (sha-256) or 96 (sha-384) hex chars, got " ++ toString len ++
        " chars"))
  | some (.ok normalized) =>
    match entry.2.evidenceRef with
    | none =>
      some (.fail .evidence object .danglingReference
        "claim carries evidence_digest but attestation has no evidence_ref to bind it to")
    | some reference =>
      match digestByEvd primitives proof reference with
      | none =>
        some (.fail .evidence object .danglingReference
          ("claim carries evidence_digest but evidence_ref " ++ reference ++ " is not in this proof"))
      | some actual =>
        if toLowercase actual ≠ normalized then
          some (.fail .evidence object .idMismatch
            ("claim evidence_digest does not match bound evidence " ++ reference ++
              " digest (semantic binding failed; issuer attested a value the digest does not support)"))
        else
          some (.pass .evidence object
            ("claim evidence_digest matches bound evidence " ++ reference ++ " (semantic binding holds)"))

/-- Lifecycle statuses by attestation id. -/
def lifecycleByAtt (records : List LifecycleRecord) : String → Option LifecycleStatus :=
  lastValue (records.filterMap fun record => (strip record.object "att:").map fun id => (id, record.status))

/-- Status, code, whether the check passes, and message of an evidence item. -/
def evidenceOutcome (marked withdrawn : Bool) (hasRef : Bool) (backing : Option LifecycleStatus) :
    EvidenceStatus × Option ErrorCode × Bool × String :=
  if marked then
    (.compromised, some .compromised, false, "evidence tainted by a valid signed compromise marking")
  else if withdrawn then
    (.withdrawn, some .withdrawn, false, "evidence covered by a valid signed withdrawal (history preserved)")
  else
    match backing with
    | some .compromised => (.compromised, some .compromised, false, "backing attestation COMPROMISED")
    | some .revoked => (.revoked, some .revoked, false, "backing attestation REVOKED")
    | some .superseded =>
      (.superseded, none, true, "backing attestation SUPERSEDED — historical record preserved")
    | some .expired => (.expired, some .expired, true, "backing attestation EXPIRED")
    | some .unknown =>
      (.unknown, some .revocationUnknown, false, "backing attestation state UNKNOWN — fail closed")
    | some .active => (.available, none, true, "evidence digest-bound and available")
    | none =>
      if hasRef then
        (.unknown, some .revocationUnknown, true,
          "backing attestation not verified in this proof — provenance hint unverified, validity preserved")
      else (.available, none, true, "evidence digest-bound and available")

def evidenceOutcomeOf (proof : Proof) (verified : VerifiedSet) (item : Evidence × String) :
    EvidenceStatus × Option ErrorCode × Bool × String :=
  let (evidence, id) := item
  evidenceOutcome
    ((compromises primitives ctx proof verified).any fun (target, _) => target = id)
    ((applies primitives ctx proof verified).any fun (target, kind) => target = id && kind = .withdraw)
    evidence.attestationRef.isSome
    (evidence.attestationRef.bind (lifecycleByAtt (lifecycle primitives ctx proof verified)))

def evidenceStatusRecords (proof : Proof) (verified : VerifiedSet) : List EvidenceStatusRecord :=
  (proofEvidence primitives proof).map fun item =>
    let (status, code, _, message) := evidenceOutcomeOf primitives ctx proof verified item
    { object := "evd:" ++ item.2, status, code, message }

def evidenceStatusChecks (proof : Proof) (verified : VerifiedSet) : List CheckRecord :=
  (proofEvidence primitives proof).map fun item =>
    let (_, code, ok, message) := evidenceOutcomeOf primitives ctx proof verified item
    outcomeCheck .evidence ("evd:" ++ item.2) code ok message

def evidenceChecks (proof : Proof) (verified : VerifiedSet) (nodes : NodeSet) : List CheckRecord :=
  let found := evidenceRefChecks proof nodes ++
    (statements verified).filterMap (digestCheck primitives proof) ++
    evidenceStatusChecks primitives ctx proof verified
  found ++
    if found.all (·.ok) then
      [.pass .evidence ("proof:" ++ proof.proofId)
        (toString proof.evidence.length ++
          " evidence digests bound by id; external content is digest-only (no fetch in V1)")]
    else []

/-! ## Relationships and graph -/

/-- An error becomes a value; a panic or a loop without end stays what it is. -/
def attempt {α : Type} : Outcome α → Outcome (Result α)
  | .ok value => .ok (.ok value)
  | .error (.error failure) => .ok (.error failure)
  | .error failure => .error failure

def proofEdges (proof : Proof) : List EdgeRecord :=
  (proof.relationships.zip (proof.relationships.map (relationshipMemberId primitives))).map
    fun (content, id) => { content, id }

/-- The check of a graph property. -/
def graphCheck (object message : String) : Result Unit → CheckRecord
  | .ok () => .pass .graph object message
  | .error failure => .fail .graph object failure.code failure.message

def graphFailureStage : ErrorCode → Stage
  | .relationshipUngrounded | .danglingReference => .relationships
  | _ => .graph

/-- The opt-in check of the whole graph. -/
def provenanceChecks (order : HashOrder) (object : String) (edges : List EdgeRecord) (nodes : NodeSet) :
    Outcome (List CheckRecord) :=
  if ctx.requireAcyclicProvenance then do
    let acyclic ← attempt (checkAcyclicProvenance order edges nodes)
    .ok [graphCheck object "provenance DAG profile: no cycles (opt-in full-DAG)" acyclic]
  else .ok []

def graphChecks (order : HashOrder) (proof : Proof) (nodes : NodeSet) : Outcome (List CheckRecord) := do
  let object := "proof:" ++ proof.proofId
  let edges := proofEdges primitives proof
  let extraGrounded := if ctx.extraGrounded.isEmpty then none else some ctx.extraGrounded
  let validated ← attempt (validateGraphWithGrounding order edges nodes ctx.limits extraGrounded)
  match validated with
  | .error failure => .ok [.fail (graphFailureStage failure.code) object failure.code failure.message]
  | .ok graph =>
    let derivation ← attempt (checkDerivationAcyclic order edges nodes)
    let provenance ← provenanceChecks ctx order object edges nodes
    .ok ([.pass .relationships object
          (toString graph.edgeCount ++ " endpoints resolve, grounding satisfied"),
        .pass .graph object
          (toString graph.nodeCount ++ " nodes, " ++ toString graph.edgeCount ++
            " edges consistent (longest supersedes chain " ++ toString graph.longestSupersedesChain ++ ")"),
        graphCheck object "derivation subgraph acyclic (REFERENCES/EQUIVALENT linkage excluded)"
          derivation] ++ provenance)

/-! ## Composition references -/

/-- The first reference that is misshapen or names the proof itself. -/
def referenceShapeCheck (object proofId : String) : (references : List String) → List CheckRecord
  | [] => []
  | reference :: references =>
    match checkProofRefShape primitives reference with
    | .error failure => [.fail .graph object failure.code failure.message]
    | .ok () =>
      if reference = proofId then [.fail .graph object .cycleDetected "proof cannot reference itself"]
      else referenceShapeCheck object proofId references

def referenceChecks (proof : Proof) : List CheckRecord :=
  let object := "proof:" ++ proof.proofId
  let references := proof.referencedProofs
  if references.isEmpty then []
  else
    let tooMany :=
      if ctx.limits.maxReferencedProofs.toNat < references.length then
        [CheckRecord.fail .graph object .limitExceeded
          ("referenced proofs " ++ toString references.length ++ " > max_referenced_proofs " ++
            toString ctx.limits.maxReferencedProofs)]
      else []
    let sorted := (sortOn utf8 references).destutter (fun left right => utf8 left ≠ utf8 right)
    let unsorted :=
      if sorted.length ≠ references.length ∨ sorted ≠ references then
        [CheckRecord.fail .graph object .schemaViolation
          "referenced_proofs must be sorted ascending with no duplicates"]
      else []
    let failures := tooMany ++ unsorted ++ referenceShapeCheck primitives object proof.proofId references
    failures ++
      if failures.isEmpty then
        [.note .graph object
          (toString references.length ++
            " referenced proof(s) REFERENCED — linkage only, content not embedded, contributes nothing to validity")]
      else []

end

/-! ## Conflicts -/

/-- Texts in byte order, first component first. -/
def pairKey (key : String × String) : Lex (Bytes × Bytes) := toLex (utf8 key.1, utf8 key.2)

/-- A sorted map from keys to what was added under them, in the order of addition. -/
def grouped {α : Type} (items : List ((String × String) × List α)) : List ((String × String) × List α) :=
  (sortOn pairKey (items.map Prod.fst).dedup).map fun key =>
    (key, (items.filter fun item => item.1 = key).flatMap Prod.snd)

def sortedUnique (ids : List String) : List String :=
  (sortOn utf8 ids).destutter (fun left right => utf8 left ≠ utf8 right)

/-- Statements of one type about one subject that do not say the same. -/
def divergences (verified : VerifiedSet) : List ConflictRecord :=
  let groups := grouped ((statements verified).map fun entry =>
    ((entry.2.claim.claimType, entry.2.subject), [entry]))
  groups.filterMap fun ((claimType, subject), members) =>
    match members with
    | [] => none
    | first :: others =>
      if others.isEmpty || members.all fun member => member.2.claim = first.2.claim then none
      else some { kind := .divergentClaims, claimType, subject,
                  attestationIds := sortOn utf8 (members.map fun member => "att:" ++ member.1) }

/-- A statement that denies another; a target outside the proof is named as stated. -/
def denialOf (verified : VerifiedSet) (entry : String × AttestationContent) :
    Option ((String × String) × List String) :=
  (denialTarget entry.2).map fun target =>
    match statementById verified target with
    | some denied =>
      ((denied.claim.claimType, denied.subject), sortedUnique ["att:" ++ entry.1, "att:" ++ target])
    | none =>
      ((entry.2.claim.claimType, "external:" ++ target), sortedUnique ["att:" ++ entry.1])

def denials (verified : VerifiedSet) : List ConflictRecord :=
  (grouped ((statements verified).filterMap (denialOf verified))).map fun ((claimType, subject), ids) =>
    { kind := .denial, claimType, subject, attestationIds := sortedUnique ids }

def contradictEdges (proof : Proof) : List Relationship :=
  proof.relationships.filter fun edge => edge.relType = RelType.contradicts

/-- A contradiction needs two verified statements. -/
def contradictionOf (verified : VerifiedSet) (edge : Relationship) : Option ConflictRecord :=
  match statementById verified edge.source, statementById verified edge.target with
  | some _, some denied =>
    some { kind := .contradiction, claimType := denied.claim.claimType, subject := denied.subject,
           attestationIds := sortedUnique ["att:" ++ edge.source, "att:" ++ edge.target] }
  | _, _ => none

def contradictionNotes (proof : Proof) (verified : VerifiedSet) : List CheckRecord :=
  (contradictEdges proof).filterMap fun edge =>
    match contradictionOf verified edge with
    | some _ => none
    | none =>
      some (.note .evidence ("proof:" ++ proof.proofId)
        "CONTRADICTS edge does not connect two verified statements — no conflict recorded")

def conflictKey (record : ConflictRecord) : Lex (Bytes × Lex (Bytes × Lex (Bytes × List Bytes))) :=
  toLex (utf8 record.kind.asStr, toLex (utf8 record.claimType, toLex (utf8 record.subject,
    record.attestationIds.map utf8)))

def conflicts (proof : Proof) (verified : VerifiedSet) : List ConflictRecord :=
  sortOn conflictKey (divergences verified ++
    (contradictEdges proof).filterMap (contradictionOf verified) ++ denials verified)

def conflictNote (proof : Proof) (record : ConflictRecord) : CheckRecord :=
  .note .evidence ("proof:" ++ proof.proofId)
    ("conflicting evidence [" ++ record.kind.asStr ++ "]: claim `" ++ record.claimType ++ "` about `" ++
      record.subject ++ "` opposed across " ++ toString record.attestationIds.length ++ " attestation(s) (" ++
      String.intercalate ", " record.attestationIds ++ ") — representation only, policy adjudicates")

end ProofEngine
