import ProofEngine.Verify.Verdicts

/-! # What valid evidence says about the graph

The node set carries no kinds: that a reference names evidence follows from the form of its id, which the
parser and the graph check each demand. -/

namespace ProofEngine

open Text DirectedGraph

/-! ## Kinds of ids -/

/-- Two leads of one length fit one text only when they are the same. -/
theorem startsWith_unique {text left right : String} (fitsLeft : startsWith text left = true)
    (fitsRight : startsWith text right = true) (length : left.toList.length = right.toList.length) :
    left = right := by
  simp only [startsWith, List.isPrefixOf_iff_prefix] at fitsLeft fitsRight
  -- leads of one text are ordered by length
  have prefixed := List.prefix_of_prefix_length_le fitsLeft fitsRight length.le
  exact String.toList_inj.mp (prefixed.eq_of_length length)

theorem startsWith_idWith (primitives : Primitives) (kind : String) (canonical : Bytes) :
    startsWith (idWith primitives kind canonical) (kind ++ ":v1:") = true := by
  rw [idWith]
  exact startsWith_append _ _

section
variable (primitives : Primitives)

def eventMemberIds (proof : Proof) : List String :=
  proof.events.map fun event => eventId primitives (encodeCanonical (eventRecord event))

def evidenceMemberIds (proof : Proof) : List String := proof.evidence.map (evidenceMemberId primitives)

def relationshipMemberIds (proof : Proof) : List String :=
  proof.relationships.map (relationshipMemberId primitives)

/-- The text names an event, attestation or evidence member. -/
def NamesMember (proof : Proof) (id : String) : Prop :=
  id ∈ eventMemberIds primitives proof ∨ id ∈ proofAttestationIds primitives proof ∨
    id ∈ evidenceMemberIds primitives proof

end

section
variable {primitives : Primitives} {proof : Proof} {id : String}

theorem startsWith_eventMemberId (member : id ∈ eventMemberIds primitives proof) :
    startsWith id "evt:v1:" = true := by
  obtain ⟨event, _, rfl⟩ := List.mem_map.mp member
  exact startsWith_idWith primitives IdKind.event _

theorem startsWith_attestationId (member : id ∈ proofAttestationIds primitives proof) :
    startsWith id "att:v1:" = true := by
  obtain ⟨stored, _, rfl⟩ := List.mem_map.mp member
  exact startsWith_idWith primitives IdKind.attestation _

theorem startsWith_evidenceMemberId (member : id ∈ evidenceMemberIds primitives proof) :
    startsWith id "evd:v1:" = true := by
  obtain ⟨evidence, _, rfl⟩ := List.mem_map.mp member
  exact startsWith_idWith primitives IdKind.evidence _

theorem NamesMember.evidence (names : NamesMember primitives proof id)
    (shape : startsWith id "evd:v1:" = true) : id ∈ evidenceMemberIds primitives proof := by
  -- the kinds have leads of one length, so an id is of one kind only
  obtain event | attestation | evidence := names
  · exact absurd (startsWith_unique shape (startsWith_eventMemberId event) (by simp)) (by simp)
  · exact absurd (startsWith_unique shape (startsWith_attestationId attestation) (by simp)) (by simp)
  · exact evidence

theorem NamesMember.attestation (names : NamesMember primitives proof id)
    (shape : startsWith id "att:v1:" = true) : id ∈ proofAttestationIds primitives proof := by
  obtain event | attestation | evidence := names
  · exact absurd (startsWith_unique shape (startsWith_eventMemberId event) (by simp)) (by simp)
  · exact attestation
  · exact absurd (startsWith_unique shape (startsWith_evidenceMemberId evidence) (by simp)) (by simp)

theorem mem_memberNodes {eventIds : List String}
    (events : eventIds = eventMemberIds primitives proof) :
    id ∈ (memberNodes primitives proof eventIds).ids ↔ NamesMember primitives proof id := by
  rw [events, memberNodes, NodeSet.new, List.mem_dedup, List.mem_append, List.mem_append, or_assoc]
  rfl

end

/-! ## The facts -/

/-- Links of the relationships of the selected types. -/
def proofLinks (selected : String → Bool) (proof : Proof) : Links :=
  (proof.relationships.filter fun relationship => selected relationship.relType).map fun relationship =>
    (relationship.source, relationship.target)

def isDerivation (relType : String) : Bool := !([RelType.references, RelType.equivalent].contains relType)

structure GraphFacts (primitives : Primitives) (ctx : VerifyCtx) (proof : Proof) : Prop where
  endpoints : ∀ relationship ∈ proof.relationships, relationship.relType ≠ RelType.equivalent →
    NamesMember primitives proof relationship.source ∧ NamesMember primitives proof relationship.target
  identities : ∀ relationship ∈ proof.relationships, relationship.relType = RelType.equivalent →
    ∀ endpoint ∈ [relationship.source, relationship.target], looksLikeArtifactId endpoint = true →
      NamesMember primitives proof endpoint
  attestationEvidence : ∀ stored ∈ proof.attestations, ∀ id, stored.content.evidenceRef = some id →
    id ∈ evidenceMemberIds primitives proof
  relationshipEvidence : ∀ relationship ∈ proof.relationships, ∀ id, relationship.evidenceRef = some id →
    id ∈ evidenceMemberIds primitives proof
  relationshipAttestation : ∀ relationship ∈ proof.relationships, ∀ id, relationship.attestationRef = some id →
    id ∈ proofAttestationIds primitives proof
  grounded : ∀ relationship ∈ proof.relationships,
    RelType.requiresGrounding relationship.relType = true ∨ relationship.relType ∈ ctx.extraGrounded →
      relationship.evidenceRef.isSome = true ∨ relationship.attestationRef.isSome = true
  distinct : (relationshipMemberIds primitives proof).Nodup
  derivation : Acyclic (proofLinks isDerivation proof)
  chains : ∃ paths : List (List String), paths.flatten.Nodup ∧
    (paths.flatMap steps).Perm (proofLinks (· = RelType.supersedes) proof) ∧
    ∀ path ∈ paths, path.length ≤ ctx.limits.maxDepth.toNat

section
variable {primitives : Primitives} {proof : Proof}

theorem proofEdges_eq :
    proofEdges primitives proof = proof.relationships.map fun content =>
      { content, id := relationshipMemberId primitives content } := by
  rw [proofEdges, ← List.map_prod_left_eq_zip, List.map_map]
  rfl

theorem supersedesLinks_proofEdges :
    supersedesLinks (proofEdges primitives proof) = proofLinks (· = RelType.supersedes) proof := by
  rw [supersedesLinks, proofEdges_eq, List.filter_map, List.map_map]
  rfl

/-- When all endpoints of the selected types resolve, no link is left out. -/
theorem memberLinks_proofEdges {skipped : List String} {nodes : NodeSet}
    (resolved : ∀ relationship ∈ proof.relationships, relationship.relType ∉ skipped →
      relationship.source ∈ nodes.ids ∧ relationship.target ∈ nodes.ids) :
    memberLinks skipped (proofEdges primitives proof) nodes =
      proofLinks (fun relType => !skipped.contains relType) proof := by
  rw [memberLinks, proofEdges_eq, List.filterMap_map, proofLinks, ← List.filterMap_eq_map, ← List.filterMap_eq_filter,
    List.filterMap_filterMap]
  apply List.filterMap_congr
  intro relationship member
  by_cases skip : relationship.relType ∈ skipped
  · simp [skip, Option.guard]
  · obtain ⟨source, target⟩ := resolved relationship member skip
    simp [skip, Option.guard, contains_iff.mpr source, contains_iff.mpr target]

end

theorem needsGrounding_ctx {ctx : VerifyCtx} {relType : String}
    (needs : RelType.requiresGrounding relType = true ∨ relType ∈ ctx.extraGrounded) :
    NeedsGrounding ctx.grounding relType := by
  obtain standard | extra := needs
  · exact Or.inl standard
  · refine Or.inr ⟨ctx.extraGrounded, if_neg ?_, extra⟩
    -- an empty list of extra types is passed on as none
    simpa using List.ne_nil_of_mem extra

/-- Disjoint chains of bounded depth are disjoint paths of bounded length. -/
theorem ChainsOk.exists_paths {links : Links} {limits : Limits} (chains : ChainsOk links limits) :
    ∃ paths : List (List String), paths.flatten.Nodup ∧ (paths.flatMap steps).Perm links ∧
      ∀ path ∈ paths, path.length ≤ limits.maxDepth.toNat := by
  have within : ∀ arc ∈ links, arc.1 ∈ links.endpoints ∧ arc.2 ∈ links.endpoints :=
    fun arc member => ⟨source_mem_endpoints member, target_mem_endpoints member⟩
  obtain ⟨paths, disjoint⟩ := exists_disjointPaths chains.linear chains.acyclic within
  refine ⟨paths, disjoint.covers.nodup_iff.mpr (nodup_endpoints links), disjoint.along, ?_⟩
  intro path member
  cases path with
  | nil => exact Nat.zero_le _
  | cons first rest =>
    -- the last node of a path lies as deep as the path is long, or deeper
    obtain ⟨depth, start⟩ := exists_depth chains.acyclic first
    obtain ⟨last, inside, found⟩ := exists_depth_of_steps start (disjoint.steps_subset member)
    have endpoint : last ∈ links.endpoints := disjoint.covers.subset (List.mem_flatten.mpr ⟨_, member, inside⟩)
    have short := chains.short last endpoint _ found
    have positive := start.pos
    rw [List.length_cons]
    omega

section
variable {primitives : Primitives} {order : HashOrder} {ctx : VerifyCtx} {bytes : Bytes} {value : CborValue}
  {proof : Proof} {eventIds : List String} {recomputed : String} {graph : List CheckRecord}
  {report : VerifyReport}

theorem StagesRan.eventIds_eq
    (stages : StagesRan primitives order ctx bytes value proof eventIds recomputed graph report) :
    eventIds = eventMemberIds primitives proof := by
  have events := stages.events
  rw [mapM_memberEventId primitives (cborToProof_versions stages.parsed)] at events
  exact (Except.ok.inj events).symm

theorem StagesRan.graphOk_iff
    (stages : StagesRan primitives order ctx bytes value proof eventIds recomputed graph report) :
    (∀ check ∈ graph, check.ok = true) ↔
      GraphOk ctx (proofEdges primitives proof) (memberNodes primitives proof eventIds) := by
  obtain ⟨_, _, _, verdicts⟩ := exists_graphVerdicts order ctx (proofEdges primitives proof)
    (memberNodes primitives proof eventIds)
  -- the run computed the records of these verdicts
  have same := Except.ok.inj ((graphChecks_eq verdicts).symm.trans stages.graphDone)
  rw [← same]
  exact verdicts.clean_iff _

theorem graphFacts_of_clean
    (stages : StagesRan primitives order ctx bytes value proof eventIds recomputed graph report)
    (clean : EvidenceClean primitives ctx proof (memberNodes primitives proof eventIds) graph) :
    GraphFacts primitives ctx proof := by
  have ok := stages.graphOk_iff.mp clean.graphClean
  have names : ∀ {id}, id ∈ (memberNodes primitives proof eventIds).ids → NamesMember primitives proof id :=
    fun member => (mem_memberNodes stages.eventIds_eq).mp member
  have edgeOk : ∀ relationship ∈ proof.relationships,
      EdgeOk (memberNodes primitives proof eventIds) ctx.grounding relationship := by
    have edges := ok.shape.edgesOk
    rw [proofEdges_eq, List.forall_mem_map] at edges
    exact edges
  have bounded := cborToProof_bounded (Canonical.addressable (decodeStrict_sound stages.decoded).2) stages.parsed
  constructor
  case endpoints =>
    intro relationship member other
    obtain ⟨source, target⟩ := (edgeOk relationship member).resolved other
    exact ⟨names source, names target⟩
  case identities =>
    intro relationship member identity endpoint inside shaped
    exact names ((edgeOk relationship member).identities identity endpoint inside shaped)
  case attestationEvidence =>
    intro stored member id found
    -- parsing checked the lead of the reference, EVIDENCE that it resolves
    have shape := ((bounded.attestations stored member).1.evidenceRef id found).2
    exact (names (clean.references stored member id found)).evidence shape
  case relationshipEvidence =>
    intro relationship member id found
    obtain ⟨_, shape, inside⟩ := (edgeOk relationship member).evidence id found
    exact (names inside).evidence shape
  case relationshipAttestation =>
    intro relationship member id found
    obtain ⟨_, shape, inside⟩ := (edgeOk relationship member).attestation id found
    exact (names inside).attestation shape
  case grounded =>
    intro relationship member needs
    exact (edgeOk relationship member).grounded (needsGrounding_ctx needs)
  case distinct =>
    have distinct := ok.shape.distinct
    rwa [proofEdges_eq, List.map_map] at distinct
  case derivation =>
    have acyclic := ok.derivation
    -- the check leaves out links with an unknown endpoint; here all of them resolve
    rw [derivationLinks, memberLinks_proofEdges] at acyclic
    · exact acyclic
    · intro relationship member kept
      apply (edgeOk relationship member).resolved
      intro identity
      exact kept (by simp [identity])
  case chains =>
    have chains := ok.chains
    rw [supersedesLinks_proofEdges] at chains
    exact chains.exists_paths

end

/-- Valid evidence: endpoints and references resolve to members of their kind, trust-relevant edges are
    backed, relationship ids are distinct, derivation has no cycle, and supersession edges are disjoint
    simple paths within the depth limit. -/
theorem graphFacts_of_valid (primitives : Primitives) (order : HashOrder) (ctx : VerifyCtx) (bytes : Bytes)
    (proof : Proof) (report : VerifyReport)
    (read : (decodeStrict bytes ctx.limits >>= cborToProof ctx.limits) = .ok proof)
    (done : verifyProof primitives order ctx bytes = .ok report) (valid : report.evidenceValidity = .valid) :
    GraphFacts primitives ctx proof := by
  obtain ⟨value, eventIds, recomputed, graph, stages⟩ := stagesRan_of_read read done
  exact graphFacts_of_clean stages (stages.evidenceValid_iff.mp valid)

/-! ## A proof with a supersession -/

def settledEvent (subject : String) : EventContent where
  v := 1
  eventType := "settled"
  subject := subject
  effectiveAt := 1700000000
  payloadRef := { v := 1, alg := .sha256, digest := List.replicate 32 0 }
  metadata := []

def eventBytes (subject : String) : Bytes := encodeCanonical (eventRecord (settledEvent subject))

def firstEventDigest : Bytes :=
  [0x65, 0x38, 0x4b, 0xb8, 0xb9, 0xcd, 0xce, 0xd4, 0x3e, 0x96, 0x82, 0xfb, 0x61, 0xad, 0xb4, 0x8b,
   0xc8, 0x8a, 0x99, 0xb5, 0xb6, 0xfe, 0x2d, 0xc1, 0x9d, 0xaa, 0x8f, 0x17, 0x9b, 0xfd, 0x77, 0x1b]

def secondEventDigest : Bytes :=
  [0xb2, 0x94, 0x94, 0x1a, 0x88, 0x96, 0x4d, 0x0e, 0xf6, 0x5d, 0x2e, 0x8c, 0xd4, 0x53, 0x2d, 0x8e,
   0xaf, 0x92, 0xa1, 0x38, 0x41, 0xbb, 0x32, 0x7f, 0x5e, 0xa0, 0x75, 0xeb, 0x9f, 0x8a, 0xbf, 0x49]

def firstEventId : String := "evt:v1:ZThLuLnNztQ-loL7Ya20i8iKmbW2_i3BnaqPF5v9dxs"

def secondEventId : String := "evt:v1:spSUGoiWTQ72XS6M1FMtjq-SoThBuzJ_XqB165-Kv0k"

/-- An edge without backing. -/
def plainEdge (source relType target : String) : Relationship where
  v := 1
  source := source
  relType := relType
  target := target
  evidenceRef := none
  attestationRef := none

def supersedingEdge : Relationship := plainEdge firstEventId RelType.supersedes secondEventId

def supersedingDigest : Bytes :=
  [0xf2, 0xf4, 0x99, 0x02, 0x58, 0xcf, 0x61, 0x8f, 0xb8, 0x3d, 0x95, 0x49, 0x51, 0x6a, 0xc7, 0xe5,
   0xb7, 0x6c, 0xa3, 0x92, 0x9a, 0xe2, 0xbf, 0x52, 0xdd, 0x3c, 0xdb, 0x88, 0xe4, 0x94, 0x95, 0x28]

/-- Two events, the first of which supersedes the second. -/
def supersedingProof : Proof :=
  { bareProof with
    proofId := "prf:v1:eCfwxXSQgLKxtW-DQ3sdrKzl76CmAVlyV8XypRxCl7I"
    events := [settledEvent "acct:1", settledEvent "acct:2"]
    relationships := [supersedingEdge] }

def supersedingTable : List (Bytes × Bytes) :=
  [(eventBytes "acct:1", firstEventDigest), (eventBytes "acct:2", secondEventDigest),
   (encodeCanonical (relationshipToCbor supersedingEdge), supersedingDigest)]

def supersedingBindingDigest : Bytes :=
  [0x78, 0x27, 0xf0, 0xc5, 0x74, 0x90, 0x80, 0xb2, 0xb1, 0xb5, 0x6f, 0x83, 0x43, 0x7b, 0x1d, 0xac,
   0xac, 0xe5, 0xef, 0xa0, 0xa6, 0x01, 0x59, 0x72, 0x57, 0xc5, 0xf2, 0xa5, 0x1c, 0x42, 0x97, 0xb2]

def supersedingPrimitives : Primitives :=
  Primitives.ofTable (supersedingTable ++
    [(encodeCanonical (bindingOf (Primitives.ofTable supersedingTable []) supersedingProof),
      supersedingBindingDigest)]) []

def supersedingBytes : Bytes := ((proofToCbor supersedingProof).toOption.map encodeCanonical).getD []

theorem supersedingProof_read :
    (decodeStrict supersedingBytes VerifyCtx.default.limits >>= cborToProof VerifyCtx.default.limits) =
      .ok supersedingProof := by
  decide +kernel

theorem supersedingProof_valid :
    ∃ report, verifyProof supersedingPrimitives .inserted VerifyCtx.default supersedingBytes = .ok report ∧
      report.evidenceValidity = .valid := by
  apply map_eq_ok.mp
  decide +kernel

theorem supersedingProof_facts : GraphFacts supersedingPrimitives VerifyCtx.default supersedingProof := by
  obtain ⟨report, done, valid⟩ := supersedingProof_valid
  exact graphFacts_of_valid _ _ _ _ _ report supersedingProof_read done valid

end ProofEngine
