import ProofEngine.Verify.FeedLaws
import ProofEngine.Verify.MemberIds

/-! # The order of members

The loops of the pipeline walk over the members of a proof in stored order and collect maps, sets and lists.
Where an id names one member, none of the verdicts, statuses and conflicts depends on that order. -/

namespace ProofEngine

open StableSort Text LastMap

/-- The proofs differ only in the order of their members. -/
structure PermutedMembers (proof other : Proof) : Prop where
  v : other.v = proof.v
  proofId : other.proofId = proof.proofId
  proposition : other.proposition = proof.proposition
  events : other.events.Perm proof.events
  attestations : other.attestations.Perm proof.attestations
  evidence : other.evidence.Perm proof.evidence
  relationships : other.relationships.Perm proof.relationships
  referencedProofs : other.referencedProofs = proof.referencedProofs
  vocabularies : other.vocabularies = proof.vocabularies
  createdAt : other.createdAt = proof.createdAt

theorem PermutedMembers.symm {proof other : Proof} (permuted : PermutedMembers proof other) :
    PermutedMembers other proof where
  v := permuted.v.symm
  proofId := permuted.proofId.symm
  proposition := permuted.proposition.symm
  events := permuted.events.symm
  attestations := permuted.attestations.symm
  evidence := permuted.evidence.symm
  relationships := permuted.relationships.symm
  referencedProofs := permuted.referencedProofs.symm
  vocabularies := permuted.vocabularies.symm
  createdAt := permuted.createdAt.symm

theorem isEmpty_perm {α : Type} {items others : List α} (perm : others.Perm items) :
    others.isEmpty = items.isEmpty := by
  rw [Bool.eq_iff_iff, List.isEmpty_iff_length_eq_zero, List.isEmpty_iff_length_eq_zero, perm.length_eq]

/-! ## Ids and signatures -/

section
variable {primitives : Primitives} {ctx : VerifyCtx} {proof other : Proof}

theorem IdsDetermine.perm (determined : IdsDetermine primitives proof) (permuted : PermutedMembers proof other) :
    IdsDetermine primitives other where
  events := fun event member found foundMember =>
    determined.events event (permuted.events.subset member) found (permuted.events.subset foundMember)
  attestations := fun stored member found foundMember => determined.attestations stored
    (permuted.attestations.subset member) found (permuted.attestations.subset foundMember)
  evidence := fun evidence member found foundMember =>
    determined.evidence evidence (permuted.evidence.subset member) found (permuted.evidence.subset foundMember)
  relationships := fun relationship member found foundMember => determined.relationships relationship
    (permuted.relationships.subset member) found (permuted.relationships.subset foundMember)

theorem sortedIds_perm {ids others : List String} (perm : others.Perm ids) : sortedIds others = sortedIds ids := by
  rw [sortedIds, sortedIds, sortOn_eq_of_perm utf8_injective perm]

theorem bindingOf_perm (permuted : PermutedMembers proof other) :
    bindingOf primitives other = bindingOf primitives proof := by
  simp only [bindingOf, proofBinding, bindingFields, permuted.proposition, permuted.createdAt,
    permuted.referencedProofs, permuted.vocabularies, sortedIds_perm (permuted.events.map _),
    sortedIds_perm (permuted.attestations.map _), sortedIds_perm (permuted.evidence.map _),
    sortedIds_perm (permuted.relationships.map _)]

/-- Each entry leaves its own checks and its own entry of the verified set. -/
theorem verifyEntries_flatMap (entries : List (StoredAttestation × String)) :
    verifyEntries primitives ctx entries =
      (entries.flatMap fun entry => (verifyEntries primitives ctx [entry]).1,
        entries.flatMap fun entry => (verifyEntries primitives ctx [entry]).2) := by
  induction entries with
  | nil => rfl
  | cons entry entries inductionHypothesis =>
    rw [List.flatMap_cons, List.flatMap_cons, verifyEntries, inductionHypothesis]
    simp only [verifyEntries]
    cases verifyEntry primitives ctx entry.1 entry.2 <;> rfl

theorem proofEntries_perm (permuted : PermutedMembers proof other) :
    (proofEntries primitives other).Perm (proofEntries primitives proof) := by
  rw [proofEntries_eq, proofEntries_eq]
  exact permuted.attestations.map _

theorem verifiedSet_perm (permuted : PermutedMembers proof other) :
    (verifiedSet primitives ctx other).Perm (verifiedSet primitives ctx proof) := by
  rw [verifiedSet, verifiedSet, verifyEntries_flatMap, verifyEntries_flatMap (proofEntries primitives proof)]
  exact (proofEntries_perm permuted).flatMap_right _

theorem signatureChecks_perm (permuted : PermutedMembers proof other) :
    (signatureChecks primitives ctx other).Perm (signatureChecks primitives ctx proof) := by
  -- the loop treats each entry by itself
  rw [signatureChecks, signatureChecks, isEmpty_perm permuted.attestations, permuted.proofId, verifyEntries_flatMap,
    verifyEntries_flatMap (proofEntries primitives proof)]
  exact ((proofEntries_perm permuted).flatMap_right _).append_right _

end

/-! ## Statuses -/

section
variable {primitives : Primitives} {ctx : VerifyCtx} {proof other : Proof} {verified verified' : VerifiedSet}

theorem statements_perm (perm : verified'.Perm verified) : (statements verified').Perm (statements verified) :=
  perm.filter _

theorem statementById_perm (functional : Functional verified) (perm : verified'.Perm verified) :
    statementById verified' = statementById verified :=
  lastValue_perm (functional.filter _) (statements_perm perm)

theorem issuerByAttId_perm (functional : Functional verified) (perm : verified'.Perm verified) :
    issuerByAttId verified' = issuerByAttId verified := by
  funext id
  rw [issuerByAttId, issuerByAttId, lastValue_perm functional perm]

theorem proofEvidence_eq (proof : Proof) :
    proofEvidence primitives proof =
      proof.evidence.map fun evidence => (evidence, evidenceMemberId primitives evidence) := by
  rw [proofEvidence, List.map_prod_left_eq_zip]

theorem proofEvidence_perm (evidence : other.evidence.Perm proof.evidence) :
    (proofEvidence primitives other).Perm (proofEvidence primitives proof) := by
  rw [proofEvidence_eq, proofEvidence_eq]
  exact evidence.map _

variable (functional : Functional verified) (perm : verified'.Perm verified)
  (evidence : other.evidence.Perm proof.evidence)
include functional perm evidence

theorem empowered_perm (effect : StatusEffect) :
    empowered primitives ctx other verified' effect = empowered primitives ctx proof verified effect := by
  simp only [empowered, mayEnd, mayWithdraw, statementById_perm functional perm, issuerByAttId_perm functional perm,
    (proofEvidence_perm evidence).any_eq]

theorem counting_perm :
    (counting primitives ctx other verified').Perm (counting primitives ctx proof verified) := by
  have results : (statusResults primitives ctx verified').Perm (statusResults primitives ctx verified) :=
    ((perm.filter _).map _).append_right _
  have effects : (effects primitives ctx verified').Perm (effects primitives ctx verified) := results.filterMap _
  simp only [counting, empowered_perm functional perm evidence]
  exact effects.filter _

theorem applies_perm : (applies primitives ctx other verified').Perm (applies primitives ctx proof verified) :=
  (counting_perm functional perm evidence).map _

theorem compromises_perm :
    (compromises primitives ctx other verified').Perm (compromises primitives ctx proof verified) :=
  (counting_perm functional perm evidence).filterMap _

theorem lifecycleStatus_perm (entry : String × AttestationContent) :
    lifecycleStatus primitives ctx other verified' entry = lifecycleStatus primitives ctx proof verified entry := by
  -- every test of the status is a membership or a count
  have late : (timeFailed ctx verified').Perm (timeFailed ctx verified) :=
    ((statements_perm perm).filter _).map _
  have embedded : (embeddedStatus verified').length = (embeddedStatus verified).length := (perm.filter _).length_eq
  have stale : revocationStale ctx verified' = revocationStale ctx verified := by
    rw [revocationStale, revocationStale, totalStatusInputs, totalStatusInputs, embedded]
  simp only [lifecycleStatus, (compromises_perm functional perm evidence).any_eq,
    (applies_perm functional perm evidence).any_eq, late.contains_eq, stale]

theorem lifecycle_perm :
    (lifecycle primitives ctx other verified').Perm (lifecycle primitives ctx proof verified) := by
  have records : lifecycleRecord primitives ctx other verified' = lifecycleRecord primitives ctx proof verified := by
    funext entry
    simp only [lifecycleRecord, lifecycleStatus_perm functional perm evidence]
  rw [lifecycle, lifecycle, records]
  exact (statements_perm perm).map _

theorem evidenceOutcomeOf_perm (item : Evidence × String) :
    evidenceOutcomeOf primitives ctx other verified' item = evidenceOutcomeOf primitives ctx proof verified item := by
  have backing : lifecycleByAtt (lifecycle primitives ctx other verified') =
      lifecycleByAtt (lifecycle primitives ctx proof verified) := by
    -- the map of statuses keeps the last record of an id, and an id has one
    have statement : lastValue (statements verified') = lastValue (statements verified) :=
      statementById_perm functional perm
    funext id
    rw [lifecycleByAtt_lifecycle, lifecycleByAtt_lifecycle, statement]
    simp only [lifecycleStatus_perm functional perm evidence]
  simp only [evidenceOutcomeOf, (compromises_perm functional perm evidence).any_eq,
    (applies_perm functional perm evidence).any_eq, backing]

theorem evidenceStatusRecords_perm :
    (evidenceStatusRecords primitives ctx other verified').Perm
      (evidenceStatusRecords primitives ctx proof verified) := by
  simp only [evidenceStatusRecords, evidenceOutcomeOf_perm functional perm evidence]
  exact (proofEvidence_perm evidence).map _

end

/-! ## Conflicts -/

theorem pairKey_injective : Function.Injective pairKey := by
  rintro ⟨left, right⟩ ⟨left', right'⟩ same
  simp only [pairKey, EmbeddingLike.apply_eq_iff_eq, Prod.mk.injEq, utf8_inj] at same
  rw [same.1, same.2]

theorem ConflictKind.asStr_injective : Function.Injective ConflictKind.asStr := by
  intro left right same
  cases left <;> cases right <;> first | rfl | simp [ConflictKind.asStr] at same

theorem conflictKey_injective : Function.Injective conflictKey := by
  rintro ⟨kind, claimType, subject, ids⟩ ⟨kind', claimType', subject', ids'⟩ same
  -- the sort key spells all fields, so sorting leaves no choice
  simp only [conflictKey, EmbeddingLike.apply_eq_iff_eq, Prod.mk.injEq, utf8_inj] at same
  obtain ⟨kinds, types, subjects, lists⟩ := same
  rw [ConflictKind.asStr_injective kinds, types, subjects, utf8_injective.list_map lists]

theorem sortedUnique_perm {ids others : List String} (perm : others.Perm ids) :
    sortedUnique others = sortedUnique ids := by
  rw [sortedUnique, sortedUnique, sortOn_eq_of_perm utf8_injective perm]

/-- What is read off the groups is the same, if it does not depend on the order within a group. -/
theorem filterMap_grouped_perm {α β : Type} {items others : List ((String × String) × List α)}
    (perm : others.Perm items) {read : (String × String) × List α → Option β}
    (blind : ∀ key {values values' : List α}, values'.Perm values → read (key, values') = read (key, values)) :
    (grouped others).filterMap read = (grouped items).filterMap read := by
  -- the groups are walked in key order
  rw [grouped, grouped, sortOn_eq_of_perm pairKey_injective (perm.map Prod.fst).dedup, List.filterMap_map,
    List.filterMap_map]
  apply List.filterMap_congr
  intro key _
  exact blind key ((perm.filter _).flatMap_right Prod.snd)

section
variable {primitives : Primitives} {proof other : Proof} {verified verified' : VerifiedSet}

/-- A group does not diverge when any two of its claims agree. -/
theorem agrees_iff {first : String × AttestationContent} {others : List (String × AttestationContent)} :
    (others.isEmpty || (first :: others).all fun member => member.2.claim = first.2.claim) = true ↔
      ∀ left ∈ first :: others, ∀ right ∈ first :: others, left.2.claim = right.2.claim := by
  rw [Bool.or_eq_true, List.isEmpty_iff, List.all_eq_true]
  constructor
  · rintro (alone | agree) left leftMember right rightMember
    · rw [alone, List.mem_singleton] at leftMember rightMember
      rw [leftMember, rightMember]
    · have leftAgrees := of_decide_eq_true (agree left leftMember)
      have rightAgrees := of_decide_eq_true (agree right rightMember)
      rw [leftAgrees, rightAgrees]
  · intro agree
    exact Or.inr fun member inside => decide_eq_true (agree member inside first List.mem_cons_self)

theorem divergences_perm (perm : verified'.Perm verified) : divergences verified' = divergences verified := by
  refine filterMap_grouped_perm ((statements_perm perm).map _) ?_
  intro key values values' same
  cases values with
  | nil => rw [same.eq_nil]
  | cons first others =>
    cases values' with
    | nil => exact absurd same.length_eq (by simp)
    | cons first' others' =>
      -- the source compares with the first claim; whether all agree does not depend on which is first
      have members : (∀ left ∈ first' :: others', ∀ right ∈ first' :: others', left.2.claim = right.2.claim) ↔
          ∀ left ∈ first :: others, ∀ right ∈ first :: others, left.2.claim = right.2.claim := by
        simp only [same.mem_iff]
      have condition := Bool.eq_iff_iff.mpr (agrees_iff.trans (members.trans agrees_iff.symm))
      simp only [condition, sortOn_eq_of_perm utf8_injective (same.map fun member => "att:" ++ member.1)]

variable (functional : Functional verified) (perm : verified'.Perm verified)
include functional perm

theorem denials_perm : denials verified' = denials verified := by
  have items : ((statements verified').filterMap (denialOf verified')).Perm
      ((statements verified).filterMap (denialOf verified)) := by
    have denial : denialOf verified' = denialOf verified := by
      funext entry
      simp only [denialOf, statementById_perm functional perm]
    rw [denial]
    exact (statements_perm perm).filterMap _
  rw [denials, denials, ← List.filterMap_eq_map]
  refine filterMap_grouped_perm items ?_
  intro key values values' same
  simp only [Function.comp, sortedUnique_perm same]

theorem conflicts_perm (relationships : other.relationships.Perm proof.relationships) :
    conflicts other verified' = conflicts proof verified := by
  have contradiction : contradictionOf verified' = contradictionOf verified := by
    funext edge
    simp only [contradictionOf, statementById_perm functional perm]
  have edges : (contradictEdges other).Perm (contradictEdges proof) := relationships.filter _
  rw [conflicts, conflicts, divergences_perm perm, denials_perm functional perm, contradiction]
  exact sortOn_eq_of_perm conflictKey_injective (((edges.filterMap _).append_left _).append_right _)

end

/-! ## Graph -/

section
variable {ctx : VerifyCtx} {edges edges' : List EdgeRecord} {nodes nodes' : NodeSet} {links links' : Links}

theorem EdgeOk.perm {extraGrounded : Option (List String)} {relationship : Relationship}
    (sameNodes : nodes'.ids.Perm nodes.ids) (ok : EdgeOk nodes extraGrounded relationship) :
    EdgeOk nodes' extraGrounded relationship where
  version := ok.version
  named := ok.named
  apart := ok.apart
  resolved := fun other => ⟨sameNodes.symm.subset (ok.resolved other).1, sameNodes.symm.subset (ok.resolved other).2⟩
  identities := fun identity endpoint member shaped =>
    sameNodes.symm.subset (ok.identities identity endpoint member shaped)
  grounded := ok.grounded
  evidence := fun id found =>
    ⟨(ok.evidence id found).1, (ok.evidence id found).2.1, sameNodes.symm.subset (ok.evidence id found).2.2⟩
  attestation := fun id found =>
    ⟨(ok.attestation id found).1, (ok.attestation id found).2.1, sameNodes.symm.subset (ok.attestation id found).2.2⟩

theorem contains_nodes_perm (sameNodes : nodes'.ids.Perm nodes.ids) : nodes'.contains = nodes.contains := by
  funext id
  exact sameNodes.contains_eq

theorem ShapeOk.perm {limits : Limits} {extraGrounded : Option (List String)} (sameEdges : edges'.Perm edges)
    (sameNodes : nodes'.ids.Perm nodes.ids) (ok : ShapeOk edges nodes limits extraGrounded) :
    ShapeOk edges' nodes' limits extraGrounded where
  edgeCount := by
    rw [sameEdges.length_eq]
    exact ok.edgeCount
  nodeCount := by
    rw [NodeSet.len, sameNodes.length_eq]
    exact ok.nodeCount
  edgesOk := fun edge member => (ok.edgesOk edge (sameEdges.subset member)).perm sameNodes
  distinct := (sameEdges.map _).nodup_iff.mpr ok.distinct
  endpointCount := by
    have endpoints : memberEndpoints nodes' = memberEndpoints nodes := by
      funext relationship
      rw [memberEndpoints, memberEndpoints, contains_nodes_perm sameNodes]
    rw [endpoints, (sameEdges.flatMap_right _).dedup.length_eq]
    exact ok.endpointCount

theorem depth_perm (perm : links'.Perm links) {node : String} {depth : Nat}
    (found : DirectedGraph.Depth links' node depth) : DirectedGraph.Depth links node depth := by
  induction found with
  | source initial => exact .source fun other arc => initial other (perm.symm.subset arc)
  | next _ arc inductionHypothesis => exact .next inductionHypothesis (perm.subset arc)

theorem ChainsOk.perm {limits : Limits} (perm : links'.Perm links) (ok : ChainsOk links limits) :
    ChainsOk links' limits where
  linear := (DirectedGraph.linear_perm perm).mpr ok.linear
  acyclic := (DirectedGraph.acyclic_perm perm).mpr ok.acyclic
  short := by
    intro node member depth found
    -- depth is about links, and the links are the same
    obtain ⟨link, linkMember, isEnd⟩ := mem_endpoints.mp member
    exact ok.short node (mem_endpoints.mpr ⟨link, perm.subset linkMember, isEnd⟩) depth (depth_perm perm found)

theorem memberLinks_perm (skipped : List String) (sameEdges : edges'.Perm edges)
    (sameNodes : nodes'.ids.Perm nodes.ids) :
    (memberLinks skipped edges' nodes').Perm (memberLinks skipped edges nodes) := by
  simp only [memberLinks, contains_nodes_perm sameNodes]
  exact sameEdges.filterMap _

theorem GraphOk.perm (sameEdges : edges'.Perm edges) (sameNodes : nodes'.ids.Perm nodes.ids)
    (ok : GraphOk ctx edges nodes) : GraphOk ctx edges' nodes' where
  shape := ok.shape.perm sameEdges sameNodes
  chains := ok.chains.perm ((sameEdges.filter _).map _)
  derivation := (DirectedGraph.acyclic_perm (memberLinks_perm _ sameEdges sameNodes)).mpr ok.derivation
  provenance := fun required =>
    (DirectedGraph.acyclic_perm (memberLinks_perm _ sameEdges sameNodes)).mpr (ok.provenance required)

end

/-! ## Verdicts -/

section
variable {primitives : Primitives} {ctx : VerifyCtx} {proof other : Proof}

theorem memberNodes_perm (permuted : PermutedMembers proof other) :
    (memberNodes primitives other (eventMemberIds primitives other)).ids.Perm
      (memberNodes primitives proof (eventMemberIds primitives proof)).ids :=
  (((permuted.events.map _).append (permuted.attestations.map _)).append (permuted.evidence.map _)).dedup

theorem proofEdges_perm (permuted : PermutedMembers proof other) :
    (proofEdges primitives other).Perm (proofEdges primitives proof) := by
  rw [proofEdges_eq, proofEdges_eq]
  exact permuted.relationships.map _

/-- Where evidence ids name one item each, so do the digests under them. -/
theorem digestByEvd_perm (determined : IdsDetermine primitives proof) (permuted : PermutedMembers proof other) :
    digestByEvd primitives other = digestByEvd primitives proof := by
  have functional : Functional ((proofEvidence primitives proof).map fun item =>
      (item.2, Hex.encode item.1.digest.digest)) := by
    intro id left right leftMember rightMember
    simp only [proofEvidence_eq, List.map_map, List.mem_map, Function.comp, Prod.mk.injEq] at leftMember rightMember
    obtain ⟨evidence, member, named, rfl⟩ := leftMember
    obtain ⟨evidence', member', named', rfl⟩ := rightMember
    rw [determined.evidence evidence member evidence' member' (named.trans named'.symm)]
  exact lastValue_perm functional ((proofEvidence_perm permuted.evidence).map _)

theorem digestCheck_perm (determined : IdsDetermine primitives proof) (permuted : PermutedMembers proof other)
    (entry : String × AttestationContent) :
    digestCheck primitives other entry = digestCheck primitives proof entry := by
  simp only [digestCheck, digestByEvd_perm determined permuted]

theorem verifiedSet_functional_of_ids (determined : IdsDetermine primitives proof) :
    Functional (verifiedSet primitives ctx proof) := by
  intro id left right leftMember rightMember
  obtain ⟨stored, _, member, rfl, _⟩ := mem_verifyEntries leftMember
  obtain ⟨stored', _, member', rfl, _⟩ := mem_verifyEntries rightMember
  rw [proofEntries_eq, List.mem_map] at member member'
  obtain ⟨_, inProof, same⟩ := member
  obtain ⟨_, inProof', same'⟩ := member'
  rw [Prod.mk.injEq] at same same'
  obtain ⟨rfl, named⟩ := same
  obtain ⟨rfl, named'⟩ := same'
  exact determined.attestations _ inProof _ inProof' (named.trans named'.symm)

theorem MembersClean.perm (determined : IdsDetermine primitives proof) (permuted : PermutedMembers proof other)
    (clean : MembersClean primitives ctx proof (eventMemberIds primitives proof)) :
    MembersClean primitives ctx other (eventMemberIds primitives other) where
  times := fun entry member => clean.times entry ((statements_perm (verifiedSet_perm permuted)).subset member)
  references := fun stored member reference found => (memberNodes_perm permuted).symm.subset
    (clean.references stored (permuted.attestations.subset member) reference found)
  digests := by
    intro entry member check found
    rw [digestCheck_perm determined permuted] at found
    exact clean.digests entry ((statements_perm (verifiedSet_perm permuted)).subset member) check found
  graph := clean.graph.perm (proofEdges_perm permuted) (memberNodes_perm permuted)
  composition := by
    have same : referenceChecks primitives ctx other = referenceChecks primitives ctx proof := by
      simp only [referenceChecks, permuted.proofId, permuted.referencedProofs]
    rw [same]
    exact clean.composition

theorem StatusesPass.perm (determined : IdsDetermine primitives proof) (permuted : PermutedMembers proof other)
    (passes : StatusesPass primitives ctx proof) : StatusesPass primitives ctx other := by
  have functional := @verifiedSet_functional_of_ids _ ctx _ determined
  have verified := @verifiedSet_perm primitives ctx _ _ permuted
  constructor
  case lifecycles =>
    intro entry member
    rw [lifecycleStatus_perm functional verified permuted.evidence]
    exact passes.lifecycles entry ((statements_perm verified).subset member)
  case evidence =>
    intro item member
    rw [evidenceOutcomeOf_perm functional verified permuted.evidence]
    exact passes.evidence item ((proofEvidence_perm permuted.evidence).subset member)

end

/-- What two reports agree on when their proofs differ only in the order of their members. -/
structure SameFindings (report report' : VerifyReport) : Prop where
  cryptographicValidity : report'.cryptographicValidity = report.cryptographicValidity
  evidenceValidity : report'.evidenceValidity = report.evidenceValidity
  lifecycle : report'.lifecycle.Perm report.lifecycle
  evidenceStatus : report'.evidenceStatus.Perm report.evidenceStatus
  conflicts : report'.conflicts = report.conflicts

section
variable {primitives : Primitives} {order order' : HashOrder} {ctx : VerifyCtx} {bytes bytes' : Bytes}
  {value value' : CborValue} {proof other : Proof} {eventIds eventIds' : List String} {recomputed recomputed' : String}
  {graph graph' : List CheckRecord} {report report' : VerifyReport}

theorem StagesRan.recomputed_perm
    (stages : StagesRan primitives order ctx bytes value proof eventIds recomputed graph report)
    (stages' : StagesRan primitives order' ctx bytes' value' other eventIds' recomputed' graph' report')
    (permuted : PermutedMembers proof other) : recomputed' = recomputed := by
  have named := stages.named
  have named' := stages'.named
  rw [recomputedProofId_eq primitives (cborToProof_versions stages.parsed)] at named
  rw [recomputedProofId_eq primitives (cborToProof_versions stages'.parsed), bindingOf_perm permuted] at named'
  exact Except.ok.inj (named'.symm.trans named)

theorem StagesRan.sameFindings
    (stages : StagesRan primitives order ctx bytes value proof eventIds recomputed graph report)
    (stages' : StagesRan primitives order' ctx bytes' value' other eventIds' recomputed' graph' report')
    (determined : IdsDetermine primitives proof) (permuted : PermutedMembers proof other) :
    SameFindings report report' := by
  have functional := @verifiedSet_functional_of_ids _ ctx _ determined
  have verified := @verifiedSet_perm primitives ctx _ _ permuted
  constructor
  case cryptographicValidity =>
    apply Validity.eq_of_valid_iff
    rw [stages.cryptoValid_iff, stages'.cryptoValid_iff, stages.recomputed_perm stages' permuted, permuted.proofId]
    -- the same checks, in another order
    refine and_congr_right fun _ => forall_congr' fun check => ?_
    rw [(signatureChecks_perm permuted).mem_iff]
  case evidenceValidity =>
    apply Validity.eq_of_valid_iff
    rw [stages.evidenceValid_iff_parts, stages'.evidenceValid_iff_parts, stages.eventIds_eq, stages'.eventIds_eq]
    constructor
    · rintro ⟨members, passes⟩
      exact ⟨members.perm (determined.perm permuted) permuted.symm,
        passes.perm (determined.perm permuted) permuted.symm⟩
    · rintro ⟨members, passes⟩
      exact ⟨members.perm determined permuted, passes.perm determined permuted⟩
  case lifecycle =>
    rw [stages.reported, stages'.reported]
    exact lifecycle_perm functional verified permuted.evidence
  case evidenceStatus =>
    rw [stages.reported, stages'.reported]
    exact evidenceStatusRecords_perm functional verified permuted.evidence
  case conflicts =>
    rw [stages.reported, stages'.reported]
    exact conflicts_perm functional verified permuted.relationships

end

end ProofEngine
