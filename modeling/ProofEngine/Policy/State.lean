import ProofEngine.Policy.Policy
import ProofEngine.Verify.Pipeline

/-! # Verified state

The view of a report and its proof that policies are evaluated on. -/

namespace ProofEngine

open Text LastMap

structure ClaimSummary where
  attestationId : String
  issuer : String
  subject : String
  claimType : String
  fields : List (String × MetaValue)
  deriving DecidableEq, Repr

structure EdgeFact where
  source : String
  relType : String
  target : String
  /-- Issuer of the backing attestation, when that is verified. -/
  attester : Option String
  attestation : Option String
  deriving DecidableEq, Repr

structure Delegation where
  attestationId : String
  delegator : String
  delegatee : String
  scope : Option String
  issuedAt : UInt64
  expiresAt : Option UInt64
  deriving DecidableEq, Repr

structure EvidenceBinding where
  attestationId : String
  evidenceId : String
  deriving DecidableEq, Repr

structure IdentityBinding where
  attestationId : String
  asserter : String
  subject : String
  equivalent : String
  deriving DecidableEq, Repr

structure EvidenceStatusEntry where
  id : String
  kind : String
  status : EvidenceStatus
  attestationRef : Option String
  deriving DecidableEq, Repr

structure VerifiedState where
  proofId : String
  cryptoValid : Bool
  evidenceValid : Bool
  statusInputsValid : Bool
  verifiedIssuers : List String
  attestationIds : List String
  activeAttestationIds : List String
  supersededIds : List String
  attestationTimes : List (UInt64 × Option UInt64)
  relTypes : List String
  evidenceKinds : List String
  proofCreatedAt : UInt64
  claims : List ClaimSummary
  edges : List EdgeFact
  delegations : List Delegation
  identityBindings : List IdentityBinding
  evidenceBindings : List EvidenceBinding
  withdrawnIds : List String
  vocabulariesUsed : List String
  vocabulariesDeclared : List VocabularyDecl
  conflicts : List ConflictRecord
  referencedProofs : List String
  evidenceStatuses : List EvidenceStatusEntry
  deriving DecidableEq, Repr

def VerifiedState.hasTransparency (state : VerifiedState) : Bool :=
  state.evidenceKinds.contains EvidenceKind.transparencyReceipt

/-! ## Projection -/

/-- Ids of verified attestations, read off the report's own checks. -/
def reportVerified (report : VerifyReport) : List String :=
  (report.checks.filter fun check => check.ok && check.stage = .signatures).filterMap fun check =>
    strip check.object "att:"

/-- Ids of the statements with a given lifecycle status. -/
def reportLifecycle (report : VerifyReport) (status : LifecycleStatus) : List String :=
  (report.lifecycle.filter fun record => record.status = status).filterMap fun record =>
    strip record.object "att:"

section
variable (primitives : Primitives) (report : VerifyReport) (proof : Proof)

/-- Attestations with their ids. -/
def namedAttestations : List (String × AttestationContent) :=
  proof.attestations.map fun stored => (attestationMemberId primitives stored.content, stored.content)

/-- Verified attestations that the report does not list as status objects. -/
def stateStatements : List (String × AttestationContent) :=
  (namedAttestations primitives proof).filter fun entry =>
    (reportVerified report).contains entry.1 && !report.statusObjects.contains entry.1

/-- The issuer of a verified attestation. -/
def attesterOf (id : String) : Option String :=
  if (reportVerified report).contains id then
    (lastValue ((namedAttestations primitives proof).filter fun entry =>
      (reportVerified report).contains entry.1) id).map (·.issuer)
  else none

def claimSummary (entry : String × AttestationContent) : ClaimSummary :=
  { attestationId := entry.1, issuer := entry.2.issuer, subject := entry.2.subject,
    claimType := entry.2.claim.claimType, fields := entry.2.claim.fields }

def delegationOf (entry : String × AttestationContent) : Option Delegation :=
  if entry.2.claim.claimType = ClaimType.delegate then
    some { attestationId := entry.1, delegator := entry.2.issuer, delegatee := entry.2.subject,
           scope := claimText entry.2.claim "scope", issuedAt := entry.2.issuedAt,
           expiresAt := entry.2.expiresAt }
  else none

def identityBindingOf (entry : String × AttestationContent) : Option IdentityBinding :=
  if entry.2.claim.claimType = ClaimType.identityBind then
    (claimText entry.2.claim "equivalent").map fun equivalent =>
      { attestationId := entry.1, asserter := entry.2.issuer, subject := entry.2.subject, equivalent }
  else none

/-- An active statement whose asserted digest is that of the evidence it refers to. -/
def evidenceBindingOf (entry : String × AttestationContent) : Option EvidenceBinding :=
  if !(reportVerified report).contains entry.1 || !(reportLifecycle report .active).contains entry.1 then none
  else if !isStatement entry.2 then none
  else
    match evidenceDigestHex entry.2.claim with
    | some (.ok claimed) =>
      match entry.2.evidenceRef with
      | none => none
      | some reference =>
        if digestByEvd primitives proof reference = some claimed then
          some { attestationId := entry.1, evidenceId := reference }
        else none
    | _ => none

def edgeFact (relationship : Relationship) : EdgeFact :=
  { source := relationship.source, relType := relationship.relType, target := relationship.target,
    attester := relationship.attestationRef.bind (attesterOf primitives report proof),
    attestation := relationship.attestationRef }

/-- Statuses of the report's evidence records by evidence id. -/
def evidenceStatusById : String → Option EvidenceStatus :=
  lastValue (report.evidenceStatus.filterMap fun record =>
    (strip record.object "evd:").map fun id => (id, record.status))

def evidenceStatusEntry (evidence : Evidence) : EvidenceStatusEntry :=
  let id := evidenceMemberId primitives evidence
  { id, kind := evidence.kind, status := (evidenceStatusById report id).getD .unknown,
    attestationRef := evidence.attestationRef }

/-- The view of a report and the proof it describes; other pairs are refused. -/
def stateFromReportAndProof : Result VerifiedState :=
  match report.proofId with
  | none => schemaError "no proof id in report: proof never parsed"
  | some id =>
    if id ≠ proof.proofId then schemaError "report and proof describe different proofs"
    else
      let statements := stateStatements primitives report proof
      .ok {
        proofId := id
        cryptoValid := report.cryptographicValidity = .valid
        evidenceValid := report.evidenceValidity = .valid
        statusInputsValid := report.statusInputsValid
        verifiedIssuers := statements.map fun entry => entry.2.issuer
        attestationIds := statements.map Prod.fst
        activeAttestationIds := reportLifecycle report .active
        supersededIds := reportLifecycle report .superseded
        attestationTimes := statements.map fun entry => (entry.2.issuedAt, entry.2.expiresAt)
        relTypes := proof.relationships.map (·.relType)
        evidenceKinds := proof.evidence.map (·.kind)
        proofCreatedAt := proof.createdAt
        claims := statements.map claimSummary
        edges := proof.relationships.map (edgeFact primitives report proof)
        delegations := statements.filterMap delegationOf
        identityBindings := statements.filterMap identityBindingOf
        evidenceBindings := (namedAttestations primitives proof).filterMap
          (evidenceBindingOf primitives report proof)
        withdrawnIds := report.withdrawnIds
        vocabulariesUsed := vocabulariesUsed proof
        vocabulariesDeclared := proof.vocabularies
        conflicts := report.conflicts
        referencedProofs := proof.referencedProofs
        evidenceStatuses := proof.evidence.map (evidenceStatusEntry primitives report) }

end

end ProofEngine
