import ProofEngine.Verify.Evidence
import ProofEngine.Verify.LifecycleSound

/-! # The verification pipeline

The stages in their fixed order.  Only PARSE, SCHEMA and, on request, CANONICAL end a run early, and
then the evidence is invalid; every later stage records what it finds and goes on. -/

namespace ProofEngine

open StableSort Text LastMap

/-! ## Misuse -/

def tooManyInputsError {α : Type} (what : String) (count : Nat) (limit : UInt64) : Result α :=
  .error (ErrorCode.limitExceeded.err
    (what ++ " count " ++ toString count ++ " exceeds max_" ++ what ++ " " ++ toString limit))

/-- The only errors a caller sees: remote access was asked for, or an input list is too long. -/
def checkInputs (ctx : VerifyCtx) : Result Unit :=
  if ctx.allowRemote then
    schemaError "allow_remote=true is not supported: V1 never fetches during verification"
  else if ctx.limits.maxStatusObjects.toNat < ctx.statusObjects.length then
    tooManyInputsError "status_objects" ctx.statusObjects.length ctx.limits.maxStatusObjects
  else if ctx.limits.maxTrustedIssuers.toNat < ctx.trustedIssuers.length then
    tooManyInputsError "trusted_issuers" ctx.trustedIssuers.length ctx.limits.maxTrustedIssuers
  else if ctx.limits.maxRevocationAuthorities.toNat < ctx.revocationAuthorities.length then
    tooManyInputsError "revocation_authorities" ctx.revocationAuthorities.length
      ctx.limits.maxRevocationAuthorities
  else .ok ()

/-! ## PARSE to IDENTIFIERS -/

def parseCheck : CheckRecord := .pass .parse "proof:bytes" "CBOR decoded within limits"

def schemaCheck (proof : Proof) : CheckRecord :=
  .pass .schema ("proof:" ++ proof.proofId) "envelope version, closed fields, member schemas valid"

/-- The namespaces of all labels of a proof, in byte order. -/
def vocabulariesUsed (proof : Proof) : List String :=
  sortOn utf8 (proof.events.map (fun event => vocabularyNs event.eventType) ++
    proof.attestations.map (fun stored => vocabularyNs stored.content.claim.claimType) ++
    proof.evidence.map (fun evidence => vocabularyNs evidence.kind) ++
    proof.relationships.map (fun relationship => vocabularyNs relationship.relType) ++
    [vocabularyNs proof.proposition.kind, vocabularyNs proof.proposition.predicate]).dedup

/-- What a context says about one declared vocabulary. -/
def declarationNote (accepted : List VocabularyAccept) (declared : VocabularyDecl) : Option String :=
  match accepted.find? fun accept => accept.ns = declared.ns with
  | none =>
    some ("vocabulary `" ++ declared.ns ++ "` declared but not in accepted vocabularies (policy adjudicates)")
  | some accept =>
    if accept.maxVersion < declared.version then
      some ("vocabulary `" ++ declared.ns ++ "` declared at version " ++ toString declared.version ++
        " exceeds accepted max " ++ toString accept.maxVersion ++ " (policy adjudicates)")
    else none

def vocabularyNotes (ctx : VerifyCtx) (proof : Proof) : List CheckRecord :=
  let used := vocabulariesUsed proof
  let undeclared :=
    if proof.vocabularies.isEmpty then []
    else (used.filter fun ns => !proof.vocabularies.any fun declared => declared.ns = ns).map fun ns =>
      "vocabulary namespace `" ++ ns ++
        "` used but not declared (declaration is provenance; acceptance is policy)"
  let unaccepted :=
    if ctx.acceptedVocabularies.isEmpty then []
    else proof.vocabularies.filterMap (declarationNote ctx.acceptedVocabularies) ++
      (used.filter fun ns => !ctx.acceptedVocabularies.any fun accept => accept.ns = ns).map fun ns =>
        "vocabulary namespace `" ++ ns ++ "` used but not in accepted vocabularies (policy adjudicates)"
  (undeclared ++ unaccepted).map (.note .schema ("proof:" ++ proof.proofId))

def canonicalCheck (proof : Proof) (value : CborValue) (bytes : Bytes) : CheckRecord :=
  if encodeCanonical value ≠ bytes then
    .fail .canonical ("proof:" ++ proof.proofId) .nonCanonical "bytes are not the deterministic encoding"
  else .pass .canonical ("proof:" ++ proof.proofId) "re-encoded bytes identical"

/-- The checks of PARSE, SCHEMA and CANONICAL on a proof that parsed. -/
def openingChecks (ctx : VerifyCtx) (proof : Proof) (value : CborValue) (bytes : Bytes) : List CheckRecord :=
  [parseCheck, schemaCheck proof] ++ vocabularyNotes ctx proof ++ [canonicalCheck proof value bytes]

def identifierCheck (proof : Proof) (recomputed : String) : CheckRecord :=
  if recomputed ≠ proof.proofId then
    .fail .identifiers ("proof:" ++ proof.proofId) .idMismatch
      ("recomputed id " ++ recomputed ++ " (member set or proposition tampered?)")
  else
    .pass .identifiers ("proof:" ++ proof.proofId)
      ("proof id binds " ++ toString proof.events.length ++ " events, " ++
        toString proof.attestations.length ++ " attestations, " ++ toString proof.evidence.length ++
        " evidence, " ++ toString proof.relationships.length ++ " relationships")

/-! ## The run -/

section
variable (primitives : Primitives) (order : HashOrder) (ctx : VerifyCtx)

/-- The artifacts relationships may name. -/
def memberNodes (proof : Proof) (eventIds : List String) : NodeSet :=
  NodeSet.new (eventIds ++ proofAttestationIds primitives proof ++
    proof.evidence.map (evidenceMemberId primitives))

/-- The checks of the stages after CANONICAL, from the ids and graph checks that can fail otherwise. -/
def memberChecks (proof : Proof) (eventIds : List String) (recomputed : String) (graph : List CheckRecord) :
    List CheckRecord :=
  let verified := verifiedSet primitives ctx proof
  [identifierCheck proof recomputed] ++ signatureChecks primitives ctx proof ++ timeChecks ctx verified ++
    revocationChecks primitives ctx proof verified ++
    evidenceChecks primitives ctx proof verified (memberNodes primitives proof eventIds) ++ graph ++
    referenceChecks primitives ctx proof ++ contradictionNotes proof verified ++
    (conflicts proof verified).map (conflictNote proof)

def findings (proof : Proof) : Findings :=
  let verified := verifiedSet primitives ctx proof
  { lifecycle := lifecycle primitives ctx proof verified
    statusObjects := (embeddedStatus verified).map Prod.fst
    withdrawnIds := withdrawnTargets primitives ctx proof verified
    referencedProofs := proof.referencedProofs
    vocabularies := proof.vocabularies
    evidenceStatus := evidenceStatusRecords primitives ctx proof verified
    conflicts := conflicts proof verified }

/-- The stages after CANONICAL; bytes that are not canonical never yield valid evidence. -/
def verifyMembers (proof : Proof) (checks : List CheckRecord) (canonicalFailed : Bool) :
    Outcome VerifyReport := do
  let eventIds ← Result.lift (proof.events.mapM (memberEventId primitives))
  let recomputed ← Result.lift (recomputedProofId primitives proof)
  let graph ← graphChecks primitives ctx order proof (memberNodes primitives proof eventIds)
  let report := finalize (some proof.proofId)
    (checks ++ memberChecks primitives ctx proof eventIds recomputed graph) (findings primitives ctx proof) true
  .ok (if canonicalFailed then { report with evidenceValidity := .invalid } else report)

def verifyProof (bytes : Bytes) : Outcome VerifyReport := do
  Result.lift (checkInputs ctx)
  match decodeStrict bytes ctx.limits with
  | .error failure =>
    .ok (finalize none [.fail .parse "proof:bytes" failure.code failure.message] {} false)
  | .ok value =>
    match cborToProof ctx.limits value with
    | .error failure =>
      .ok (finalize none [parseCheck, .fail .schema "proof:bytes" failure.code failure.message] {} false)
    | .ok proof =>
      let checks := openingChecks ctx proof value bytes
      let canonicalFailed : Bool := encodeCanonical value ≠ bytes
      if canonicalFailed && !ctx.reportAllFailures then .ok (finalize (some proof.proofId) checks {} false)
      else verifyMembers primitives order ctx proof checks canonicalFailed

end

end ProofEngine
