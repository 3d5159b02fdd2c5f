import ProofEngine.Verify.GraphFacts
import ProofEngine.Verify.Totality

/-! # Reports and hash order

A hash set is walked in four places, and two of them can be seen in a report: the branch check names the
first branching node it meets, and a cycle check names the node at which its search comes back.  The other
walks leave the same report in every order. -/

namespace ProofEngine

open DirectedGraph

theorem string_append_left_inj {left right tail : String} (same : left ++ tail = right ++ tail) : left = right := by
  have := congrArg String.toList same
  simpa [String.toList_inj] using this

/-- Two orders can name different nodes of this graph. -/
def GraphOrderSensitive (ctx : VerifyCtx) (edges : List EdgeRecord) (nodes : NodeSet) : Prop :=
  ShapeOk edges nodes ctx.limits ctx.grounding ∧
    ((∃ left right, left ≠ right ∧ Branches (supersedesLinks edges) left ∧
        Branches (supersedesLinks edges) right) ∨
      ChainsOk (supersedesLinks edges) ctx.limits ∧
        (¬ Acyclic (derivationLinks edges nodes) ∨
          ctx.requireAcyclicProvenance = true ∧ ¬ Acyclic (provenanceLinks edges nodes)))

section
variable {ctx : VerifyCtx} {edges : List EdgeRecord} {nodes : NodeSet} {left right : HashOrder}

/-! ## One report for all orders -/

theorem checkSupersedes_order {limits : Limits}
    (single : ∀ node other, Branches (supersedesLinks edges) node → Branches (supersedesLinks edges) other →
      node = other) :
    checkSupersedes left edges limits = checkSupersedes right edges limits := by
  -- the kind of the outcome depends on the links alone, so mixed cases are excluded
  obtain ⟨empty, passes⟩ | ⟨node, branches, reported⟩ | ⟨nonempty, linear, verdict⟩ :=
    checkSupersedes_cases left edges limits
  · obtain ⟨_, others⟩ | ⟨node, branches, _⟩ | ⟨nonempty, _⟩ := checkSupersedes_cases right edges limits
    · rw [passes, others]
    · simp [Branches, empty, outDegree, inDegree] at branches
    · exact absurd empty nonempty
  · obtain ⟨empty, _⟩ | ⟨other, otherBranches, others⟩ | ⟨_, linear, _⟩ :=
      checkSupersedes_cases right edges limits
    · simp [Branches, empty, outDegree, inDegree] at branches
    · -- each order reports some branching node, and there is one
      rw [reported, others, single node other branches otherBranches]
    · exact absurd branches (linear_iff_not_branches.mp linear node)
  · obtain ⟨empty, _⟩ | ⟨node, branches, _⟩ | ⟨_, _, others⟩ := checkSupersedes_cases right edges limits
    · exact absurd empty nonempty
    · exact absurd branches (linear_iff_not_branches.mp linear node)
    · exact verdict.unique others

theorem validateGraph_order
    (single : ShapeOk edges nodes ctx.limits ctx.grounding →
      ∀ node other, Branches (supersedesLinks edges) node → Branches (supersedesLinks edges) other → node = other) :
    validateGraphWithGrounding left edges nodes ctx.limits ctx.grounding =
      validateGraphWithGrounding right edges nodes ctx.limits ctx.grounding := by
  rw [validateGraph_eq, validateGraph_eq]
  -- chains are looked at only when the shape is in order
  cases checked : checkShape edges nodes ctx.limits ctx.grounding with
  | error failure => rfl
  | ok count => rw [checkSupersedes_order (single (checkShape_eq_ok.mp checked).1)]

theorem lift_injective {α : Type} {first second : Result α} (same : Result.lift first = Result.lift second) :
    first = second := by
  cases first <;> cases second <;> simp_all [Result.lift]

/-- Outside of the sensitive graphs the records of RELATIONSHIPS and GRAPH do not depend on the order. -/
theorem graphRecords_order (object : String) {validated otherValidated : Result ValidatedGraph}
    {derivation provenance otherDerivation otherProvenance : Result Unit}
    (insensitive : ¬ GraphOrderSensitive ctx edges nodes)
    (verdicts : GraphVerdicts left ctx edges nodes validated derivation provenance)
    (others : GraphVerdicts right ctx edges nodes otherValidated otherDerivation otherProvenance) :
    graphRecords ctx object validated derivation provenance =
      graphRecords ctx object otherValidated otherDerivation otherProvenance := by
  have single : ShapeOk edges nodes ctx.limits ctx.grounding →
      ∀ node other, Branches (supersedesLinks edges) node → Branches (supersedesLinks edges) other →
        node = other := by
    intro shape node other branches otherBranches
    by_contra different
    exact insensitive ⟨shape, Or.inl ⟨node, other, different, branches, otherBranches⟩⟩
  have same : validated = otherValidated := by
    apply lift_injective
    rw [← verdicts.validation, ← others.validation, validateGraph_order single]
  subst same
  cases validated with
  | error failure => rfl
  | ok graph =>
    -- the cycle checks run on a validated graph only, where a cycle would be sensitive
    obtain ⟨shape, chains⟩ := verdicts.validated_iff.mp ⟨graph, rfl⟩
    have derivationAcyclic : Acyclic (derivationLinks edges nodes) := by
      by_contra cyclic
      exact insensitive ⟨shape, Or.inr ⟨chains, Or.inl cyclic⟩⟩
    obtain ⟨_, rfl⟩ := verdicts.derivation_iff.mpr derivationAcyclic
    obtain ⟨_, rfl⟩ := others.derivation_iff.mpr derivationAcyclic
    by_cases required : ctx.requireAcyclicProvenance = true
    · have provenanceAcyclic : Acyclic (provenanceLinks edges nodes) := by
        by_contra cyclic
        exact insensitive ⟨shape, Or.inr ⟨chains, Or.inr ⟨required, cyclic⟩⟩⟩
      obtain ⟨_, rfl⟩ := verdicts.provenance_iff.mpr provenanceAcyclic
      obtain ⟨_, rfl⟩ := others.provenance_iff.mpr provenanceAcyclic
      rfl
    · simp only [graphRecords, if_neg required]

/-! ## Two reports for two orders -/

theorem supersedes_order_differs {limits : Limits} {first : String}
    (branches : Branches (supersedesLinks edges) first) :
    checkSupersedes (.startingAt first) edges limits = Result.lift (branchError first) := by
  have member := branches.mem_endpoints
  have nonempty : (supersedesLinks edges).isEmpty = false := by
    cases links : supersedesLinks edges with
    | nil => simp [links, Branches, outDegree, inDegree] at branches
    | cons link rest => rfl
  have visit : (HashOrder.startingAt first).visit .branch (supersedesLinks edges).endpoints =
      first :: (supersedesLinks edges).endpoints.erase first := if_pos member
  -- the walk starts at the branching node and stops there
  simp only [checkSupersedes, nonempty, Bool.false_eq_true, if_false, visit, checkLinear_head _ branches]
  rfl

/-- Links between members of a graph in order lead from one node to another. -/
theorem memberLinks_loopless {skipped : List String} {extraGrounded : Option (List String)}
    (ok : ∀ edge ∈ edges, EdgeOk nodes extraGrounded edge.content) (node : String) :
    ¬ Arc (memberLinks skipped edges nodes) node node := by
  intro loop
  rw [Arc, memberLinks, List.mem_filterMap] at loop
  obtain ⟨edge, member, found⟩ := loop
  split at found
  · cases found
  · split at found
    · cases found
    · simp only [Option.some.injEq, Prod.mk.injEq] at found
      exact (ok edge member).apart (found.1.trans found.2.symm)

theorem cycleMessage_injective {lead tail left right : String}
    (same : lead ++ left ++ tail = lead ++ right ++ tail) : left = right :=
  string_append_right_inj (string_append_left_inj same)

theorem graphRecords_derivation_ne (object : String) {graph otherGraph : ValidatedGraph}
    {failure otherFailure : ProofError} {provenance otherProvenance : Result Unit}
    (distinct : failure.message ≠ otherFailure.message) :
    graphRecords ctx object (.ok graph) (.error failure) provenance ≠
      graphRecords ctx object (.ok otherGraph) (.error otherFailure) otherProvenance := by
  intro same
  simp only [graphRecords, List.cons_append, List.nil_append, List.cons.injEq] at same
  exact distinct (congrArg CheckRecord.message same.2.2.1)

theorem graphRecords_provenance_ne (object : String) (required : ctx.requireAcyclicProvenance = true)
    {graph otherGraph : ValidatedGraph} {failure otherFailure : ProofError}
    {derivation otherDerivation : Result Unit} (distinct : failure.message ≠ otherFailure.message) :
    graphRecords ctx object (.ok graph) derivation (.error failure) ≠
      graphRecords ctx object (.ok otherGraph) otherDerivation (.error otherFailure) := by
  intro same
  simp only [graphRecords, if_pos required, List.cons_append, List.nil_append, List.cons.injEq] at same
  exact distinct (congrArg CheckRecord.message same.2.2.2.1)

theorem exists_verdicts_branch (shape : ShapeOk edges nodes ctx.limits ctx.grounding) {node : String}
    (branches : Branches (supersedesLinks edges) node) :
    ∃ derivation provenance,
      GraphVerdicts (.startingAt node) ctx edges nodes (branchError node) derivation provenance := by
  obtain ⟨_, derivation, provenance, verdicts⟩ := exists_graphVerdicts (.startingAt node) ctx edges nodes
  refine ⟨derivation, provenance, ?_, verdicts.derivationCheck, verdicts.provenanceCheck⟩
  rw [validateGraph_eq, checkShape_eq_ok.mpr ⟨shape, rfl⟩, supersedes_order_differs branches]
  rfl

theorem exists_verdicts_ok (shape : ShapeOk edges nodes ctx.limits ctx.grounding)
    (chains : ChainsOk (supersedesLinks edges) ctx.limits) (order : HashOrder) :
    ∃ graph derivation provenance, GraphVerdicts order ctx edges nodes (.ok graph) derivation provenance := by
  obtain ⟨validated, derivation, provenance, verdicts⟩ := exists_graphVerdicts order ctx edges nodes
  obtain ⟨graph, rfl⟩ := verdicts.validated_iff.mpr ⟨shape, chains⟩
  exact ⟨graph, derivation, provenance, verdicts⟩

/-- On the sensitive graphs two orders leave different records. -/
theorem exists_graphRecords_ne (object : String) (sensitive : GraphOrderSensitive ctx edges nodes) :
    ∃ left right validated derivation provenance otherValidated otherDerivation otherProvenance,
      GraphVerdicts left ctx edges nodes validated derivation provenance ∧
      GraphVerdicts right ctx edges nodes otherValidated otherDerivation otherProvenance ∧
      graphRecords ctx object validated derivation provenance ≠
        graphRecords ctx object otherValidated otherDerivation otherProvenance := by
  obtain ⟨shape, ⟨first, second, different, firstBranches, secondBranches⟩ | ⟨chains, cyclic⟩⟩ := sensitive
  · obtain ⟨_, _, firstVerdicts⟩ := exists_verdicts_branch shape firstBranches
    obtain ⟨_, _, secondVerdicts⟩ := exists_verdicts_branch shape secondBranches
    refine ⟨_, _, _, _, _, _, _, _, firstVerdicts, secondVerdicts, fun same => different ?_⟩
    exact cycleMessage_injective (congrArg CheckRecord.message (List.cons.inj same).1)
  · have loopless : ∀ {skipped : List String} (node : String), ¬ Arc (memberLinks skipped edges nodes) node node :=
      fun node => memberLinks_loopless shape.edgesOk node
    -- two orders name two nodes, and the message of the record holds the name
    obtain derivationCyclic | ⟨required, provenanceCyclic⟩ := cyclic
    · obtain ⟨other, first, second, different, firstNamed, secondNamed⟩ :=
        exists_other_report .inserted .derivation
          (fun node => "cycle detected in derivation graph at " ++ node ++
            " (derivation must be acyclic; REFERENCES/EQUIVALENT linkage excluded)") loopless derivationCyclic
      obtain ⟨_, _, _, verdicts⟩ := exists_verdicts_ok shape chains .inserted
      obtain ⟨_, _, _, others⟩ := exists_verdicts_ok shape chains other
      have here : checkDerivationAcyclic .inserted edges nodes = Result.lift (.error _) := firstNamed
      have there : checkDerivationAcyclic other edges nodes = Result.lift (.error _) := secondNamed
      refine ⟨_, _, _, _, _, _, _, _, ⟨verdicts.validation, here, verdicts.provenanceCheck⟩,
        ⟨others.validation, there, others.provenanceCheck⟩, graphRecords_derivation_ne object ?_⟩
      exact fun same => different (cycleMessage_injective same)
    · obtain ⟨other, first, second, different, firstNamed, secondNamed⟩ :=
        exists_other_report .inserted .provenance
          (fun node => "cycle detected in provenance graph at " ++ node ++ " (DAG profile)") loopless provenanceCyclic
      obtain ⟨_, _, _, verdicts⟩ := exists_verdicts_ok shape chains .inserted
      obtain ⟨_, _, _, others⟩ := exists_verdicts_ok shape chains other
      have here : checkAcyclicProvenance .inserted edges nodes = Result.lift (.error _) := firstNamed
      have there : checkAcyclicProvenance other edges nodes = Result.lift (.error _) := secondNamed
      refine ⟨_, _, _, _, _, _, _, _, ⟨verdicts.validation, verdicts.derivationCheck, here⟩,
        ⟨others.validation, others.derivationCheck, there⟩, graphRecords_provenance_ne object required ?_⟩
      exact fun same => different (cycleMessage_injective same)

end

/-! ## The whole report -/

/-- The bytes are verified, and their graph is one on which two orders can differ. -/
def OrderSensitive (primitives : Primitives) (ctx : VerifyCtx) (bytes : Bytes) : Prop :=
  ¬ Misused ctx ∧ ∃ proof, (decodeStrict bytes ctx.limits >>= cborToProof ctx.limits) = .ok proof ∧
    GraphOrderSensitive ctx (proofEdges primitives proof)
      (memberNodes primitives proof (eventMemberIds primitives proof))

/-- On bytes that parse, the report is a function of the graph records. -/
theorem verifyProof_eq_finalize {primitives : Primitives} {ctx : VerifyCtx} {bytes : Bytes} {proof : Proof}
    (inputs : checkInputs ctx = .ok ())
    (read : (decodeStrict bytes ctx.limits >>= cborToProof ctx.limits) = .ok proof) :
    ∃ value recomputed, ∀ order validated derivation provenance,
      GraphVerdicts order ctx (proofEdges primitives proof)
        (memberNodes primitives proof (eventMemberIds primitives proof)) validated derivation provenance →
      verifyProof primitives order ctx bytes = .ok (finalize (some proof.proofId)
        (openingChecks ctx proof value bytes ++
          memberChecks primitives ctx proof (eventMemberIds primitives proof) recomputed
            (graphRecords ctx ("proof:" ++ proof.proofId) validated derivation provenance))
        (findings primitives ctx proof) true) := by
  obtain ⟨value, decoded, parsed⟩ := bind_eq_ok.mp read
  have versions := cborToProof_versions parsed
  exact ⟨value, _, fun order validated derivation provenance verdicts =>
    verifyProof_of_stages inputs decoded parsed (mapM_memberEventId primitives versions)
      (recomputedProofId_eq primitives versions) (graphChecks_eq verdicts)⟩

theorem memberChecks_graph_injective {primitives : Primitives} {ctx : VerifyCtx} {proof : Proof}
    {eventIds : List String} {recomputed : String} {first second : List CheckRecord}
    (same : memberChecks primitives ctx proof eventIds recomputed first =
      memberChecks primitives ctx proof eventIds recomputed second) : first = second := by
  simpa only [memberChecks, List.append_assoc, List.append_cancel_left_eq, List.append_cancel_right_eq]
    using same

/-- Where the graph leaves a choice to the order, two orders give two reports. -/
theorem exists_report_ne {primitives : Primitives} {ctx : VerifyCtx} {bytes : Bytes}
    (sensitive : OrderSensitive primitives ctx bytes) :
    ∃ left right, verifyProof primitives left ctx bytes ≠ verifyProof primitives right ctx bytes := by
  obtain ⟨proper, proof, read, sensitive⟩ := sensitive
  have inputs : checkInputs ctx = .ok () := ((checkInputs_cases ctx).resolve_right fun misused => proper misused.1).2
  obtain ⟨value, recomputed, reports⟩ := @verifyProof_eq_finalize primitives ctx bytes proof inputs read
  obtain ⟨left, right, _, _, _, _, _, _, verdicts, others, differ⟩ :=
    exists_graphRecords_ne ("proof:" ++ proof.proofId) sensitive
  refine ⟨left, right, fun equal => differ ?_⟩
  rw [reports left _ _ _ verdicts, reports right _ _ _ others] at equal
  -- the graph records are one segment of the list of checks
  have checks := congrArg VerifyReport.checks (Except.ok.inj equal)
  simp only [finalize, List.append_cancel_right_eq, List.append_cancel_left_eq] at checks
  exact memberChecks_graph_injective checks

/-- The report is the same for every hash order exactly when the graph does not leave a choice to it. -/
theorem report_order_independent_iff (primitives : Primitives) (ctx : VerifyCtx) (bytes : Bytes) :
    (∀ left right, verifyProof primitives left ctx bytes = verifyProof primitives right ctx bytes) ↔
      ¬ OrderSensitive primitives ctx bytes := by
  constructor
  · intro same sensitive
    obtain ⟨left, right, differ⟩ := exists_report_ne sensitive
    exact differ (same left right)
  · intro insensitive left right
    obtain ⟨proper, inputs⟩ | ⟨_, failure, inputs⟩ := checkInputs_cases ctx
    · cases decoded : decodeStrict bytes ctx.limits with
      | error failure => simp only [verifyProof, inputs, Result.lift, ok_bind, decoded]
      | ok value =>
        cases parsed : cborToProof ctx.limits value with
        | error failure => simp only [verifyProof, inputs, Result.lift, ok_bind, decoded, parsed]
        | ok proof =>
          have read : (decodeStrict bytes ctx.limits >>= cborToProof ctx.limits) = .ok proof :=
            bind_eq_ok.mpr ⟨value, decoded, parsed⟩
          obtain ⟨_, recomputed, reports⟩ := @verifyProof_eq_finalize primitives ctx bytes proof inputs read
          obtain ⟨_, _, _, verdicts⟩ := exists_graphVerdicts left ctx (proofEdges primitives proof)
            (memberNodes primitives proof (eventMemberIds primitives proof))
          obtain ⟨_, _, _, others⟩ := exists_graphVerdicts right ctx (proofEdges primitives proof)
            (memberNodes primitives proof (eventMemberIds primitives proof))
          rw [reports left _ _ _ verdicts, reports right _ _ _ others,
            graphRecords_order _ (fun sensitive => insensitive ⟨proper, proof, read, sensitive⟩) verdicts others]
    · simp only [verifyProof, inputs, Result.lift, error_bind]

/-! ## Two events that produce each other -/

def producingEdge : Relationship := plainEdge firstEventId "PRODUCED" secondEventId

def producedEdge : Relationship := plainEdge secondEventId "PRODUCED" firstEventId

def producingDigest : Bytes :=
  [0x0f, 0x62, 0xf2, 0x31, 0xac, 0xd1, 0x2b, 0x49, 0xde, 0x05, 0x07, 0xf7, 0xec, 0x62, 0x92, 0x5a,
   0x7a, 0x17, 0x59, 0xd6, 0x12, 0xaf, 0xa2, 0xb1, 0x99, 0x9d, 0x41, 0xdf, 0x30, 0x2d, 0x4a, 0x1b]

def producedDigest : Bytes :=
  [0x7c, 0xfe, 0x6d, 0xca, 0x0a, 0x29, 0x5c, 0x68, 0x03, 0x02, 0xbc, 0xdf, 0x8f, 0x77, 0x61, 0xdf,
   0xf7, 0xc2, 0xf0, 0x9c, 0x25, 0x29, 0x36, 0xf6, 0x6f, 0xe7, 0x54, 0xb1, 0xa5, 0x22, 0x4c, 0x1b]

def cyclicProof : Proof :=
  { bareProof with
    events := [settledEvent "acct:1", settledEvent "acct:2"]
    relationships := [producingEdge, producedEdge] }

def cyclicPrimitives : Primitives :=
  Primitives.ofTable
    [(eventBytes "acct:1", firstEventDigest), (eventBytes "acct:2", secondEventDigest),
     (encodeCanonical (relationshipToCbor producingEdge), producingDigest),
     (encodeCanonical (relationshipToCbor producedEdge), producedDigest)] []

def cyclicBytes : Bytes := ((proofToCbor cyclicProof).toOption.map encodeCanonical).getD []

/-- Two hash orders give two reports on the bytes of the cyclic proof. -/
theorem cyclicProof_reports :
    ∃ left right, verifyProof cyclicPrimitives left VerifyCtx.default cyclicBytes ≠
      verifyProof cyclicPrimitives right VerifyCtx.default cyclicBytes := by
  have read : (decodeStrict cyclicBytes VerifyCtx.default.limits >>= cborToProof VerifyCtx.default.limits) =
      .ok cyclicProof := by decide +kernel
  have shape : checkShape (proofEdges cyclicPrimitives cyclicProof)
      (memberNodes cyclicPrimitives cyclicProof (eventMemberIds cyclicPrimitives cyclicProof))
      VerifyCtx.default.limits VerifyCtx.default.grounding = .ok 2 := by decide +kernel
  have arcs : derivationLinks (proofEdges cyclicPrimitives cyclicProof)
      (memberNodes cyclicPrimitives cyclicProof (eventMemberIds cyclicPrimitives cyclicProof)) =
        [(firstEventId, secondEventId), (secondEventId, firstEventId)] := by decide +kernel
  have noChains : proofLinks (· = RelType.supersedes) cyclicProof = [] := by decide +kernel
  -- without supersession the chain check passes at once
  have chains : ChainsOk (supersedesLinks (proofEdges cyclicPrimitives cyclicProof)) VerifyCtx.default.limits := by
    apply (checkSupersedes_isOk_iff .inserted).mp
    rw [checkSupersedes, supersedesLinks_proofEdges, noChains]
    exact ⟨0, rfl⟩
  have proper : ¬ Misused VerifyCtx.default := by simp [Misused, VerifyCtx.default]
  refine exists_report_ne ⟨proper, cyclicProof, read, (checkShape_eq_ok.mp shape).1, Or.inr ⟨chains, Or.inl ?_⟩⟩
  intro acyclic
  rw [arcs] at acyclic
  exact acyclic firstEventId (.tail (.single (by simp [Arc])) (by simp [Arc] : Arc _ secondEventId firstEventId))

end ProofEngine
