import ProofEngine.Graph.Edges
import ProofEngine.Verify.PipelineSound

/-! # The verdict on the graph

Every graph check ends in a verdict, and whether one of them fails depends on the graph alone. -/

namespace ProofEngine

open DirectedGraph

theorem attempt_lift {α : Type} (result : Result α) : attempt (Result.lift result) = .ok result := by
  cases result <;> rfl

def derivationLinks (edges : List EdgeRecord) (nodes : NodeSet) : Links :=
  memberLinks [RelType.references, RelType.equivalent] edges nodes

def provenanceLinks (edges : List EdgeRecord) (nodes : NodeSet) : Links :=
  memberLinks [RelType.equivalent] edges nodes

/-- The types the caller adds to those that need backing. -/
def VerifyCtx.grounding (ctx : VerifyCtx) : Option (List String) :=
  if ctx.extraGrounded.isEmpty then none else some ctx.extraGrounded

/-- What the graph checks together establish. -/
structure GraphOk (ctx : VerifyCtx) (edges : List EdgeRecord) (nodes : NodeSet) : Prop where
  shape : ShapeOk edges nodes ctx.limits ctx.grounding
  chains : ChainsOk (supersedesLinks edges) ctx.limits
  derivation : Acyclic (derivationLinks edges nodes)
  provenance : ctx.requireAcyclicProvenance = true → Acyclic (provenanceLinks edges nodes)

/-- How the three checks of a graph end. -/
structure GraphVerdicts (order : HashOrder) (ctx : VerifyCtx) (edges : List EdgeRecord) (nodes : NodeSet)
    (validated : Result ValidatedGraph) (derivation provenance : Result Unit) : Prop where
  validation : validateGraphWithGrounding order edges nodes ctx.limits ctx.grounding = Result.lift validated
  derivationCheck : checkDerivationAcyclic order edges nodes = Result.lift derivation
  provenanceCheck : checkAcyclicProvenance order edges nodes = Result.lift provenance

theorem exists_graphVerdicts (order : HashOrder) (ctx : VerifyCtx) (edges : List EdgeRecord) (nodes : NodeSet) :
    ∃ validated derivation provenance, GraphVerdicts order ctx edges nodes validated derivation provenance := by
  obtain ⟨validated, validation⟩ := validateGraph_settles order edges nodes ctx.limits ctx.grounding
  obtain ⟨derivation, derivationCheck⟩ := checkAcyclic_settles order .derivation _ _
  obtain ⟨provenance, provenanceCheck⟩ := checkAcyclic_settles order .provenance _ _
  exact ⟨validated, derivation, provenance, validation, derivationCheck, provenanceCheck⟩

/-- The records of RELATIONSHIPS and GRAPH, from the verdicts. -/
def graphRecords (ctx : VerifyCtx) (object : String) (validated : Result ValidatedGraph)
    (derivation provenance : Result Unit) : List CheckRecord :=
  match validated with
  | .error failure => [.fail (graphFailureStage failure.code) object failure.code failure.message]
  | .ok graph =>
    [.pass .relationships object (toString graph.edgeCount ++ " endpoints resolve, grounding satisfied"),
      .pass .graph object
        (toString graph.nodeCount ++ " nodes, " ++ toString graph.edgeCount ++
          " edges consistent (longest supersedes chain " ++ toString graph.longestSupersedesChain ++ ")"),
      graphCheck object "derivation subgraph acyclic (REFERENCES/EQUIVALENT linkage excluded)" derivation] ++
    if ctx.requireAcyclicProvenance then
      [graphCheck object "provenance DAG profile: no cycles (opt-in full-DAG)" provenance]
    else []

section
variable {order : HashOrder} {ctx : VerifyCtx} {edges : List EdgeRecord} {nodes : NodeSet}
  {validated : Result ValidatedGraph} {derivation provenance : Result Unit}

theorem graphChecks_eq {primitives : Primitives} {proof : Proof}
    (verdicts : GraphVerdicts order ctx (proofEdges primitives proof) nodes validated derivation provenance) :
    graphChecks primitives ctx order proof nodes =
      .ok (graphRecords ctx ("proof:" ++ proof.proofId) validated derivation provenance) := by
  -- the source passes `Some` only for a nonempty list of types
  have validation := verdicts.validation
  simp only [VerifyCtx.grounding] at validation
  simp only [graphChecks, provenanceChecks, validation, verdicts.derivationCheck, verdicts.provenanceCheck,
    attempt_lift, ok_bind, graphRecords]
  cases validated with
  | error failure => rfl
  | ok graph => cases ctx.requireAcyclicProvenance <;> rfl

theorem graphChecks_total (primitives : Primitives) (order : HashOrder) (ctx : VerifyCtx) (proof : Proof)
    (nodes : NodeSet) : ∃ graph, graphChecks primitives ctx order proof nodes = .ok graph := by
  obtain ⟨_, _, _, verdicts⟩ := exists_graphVerdicts order ctx (proofEdges primitives proof) nodes
  exact ⟨_, graphChecks_eq verdicts⟩

theorem lift_isOk {α : Type} {outcome : Outcome α} {result : Result α} (settled : outcome = Result.lift result) :
    (∃ value, outcome = .ok value) ↔ ∃ value, result = .ok value := by
  rw [settled]
  exact exists_congr fun value => Result.lift_eq_ok

theorem validateGraph_isOk_iff {limits : Limits} {extraGrounded : Option (List String)} :
    (∃ graph, validateGraphWithGrounding order edges nodes limits extraGrounded = .ok graph) ↔
      ShapeOk edges nodes limits extraGrounded ∧ ChainsOk (supersedesLinks edges) limits := by
  rw [validateGraph_eq, ← checkSupersedes_isOk_iff order]
  constructor
  · rintro ⟨graph, done⟩
    obtain ⟨count, shape, done⟩ := bind_eq_ok.mp done
    obtain ⟨longest, chains, _⟩ := bind_eq_ok.mp done
    exact ⟨(checkShape_eq_ok.mp (Result.lift_eq_ok.mp shape)).1, longest, chains⟩
  · rintro ⟨shape, longest, chains⟩
    rw [checkShape_eq_ok.mpr ⟨shape, rfl⟩, chains]
    exact ⟨_, rfl⟩

theorem GraphVerdicts.validated_iff
    (verdicts : GraphVerdicts order ctx edges nodes validated derivation provenance) :
    (∃ graph, validated = .ok graph) ↔
      ShapeOk edges nodes ctx.limits ctx.grounding ∧ ChainsOk (supersedesLinks edges) ctx.limits :=
  (lift_isOk verdicts.validation).symm.trans validateGraph_isOk_iff

theorem checkAcyclic_isOk_iff {site : HashSite} {message : String → String} {links : Links} :
    (∃ value, checkAcyclic order site message links = .ok value) ↔ Acyclic links := by
  obtain ⟨passes, acyclic⟩ | ⟨node, reported, cycle⟩ := checkAcyclic_spec order site message links
  · exact ⟨fun _ => acyclic, fun _ => ⟨(), passes⟩⟩
  · rw [reported]
    exact ⟨fun ⟨_, passes⟩ => (nomatch passes), fun acyclic => absurd cycle (acyclic node)⟩

theorem GraphVerdicts.derivation_iff
    (verdicts : GraphVerdicts order ctx edges nodes validated derivation provenance) :
    (∃ value, derivation = .ok value) ↔ Acyclic (derivationLinks edges nodes) :=
  (lift_isOk verdicts.derivationCheck).symm.trans checkAcyclic_isOk_iff

theorem GraphVerdicts.provenance_iff
    (verdicts : GraphVerdicts order ctx edges nodes validated derivation provenance) :
    (∃ value, provenance = .ok value) ↔ Acyclic (provenanceLinks edges nodes) :=
  (lift_isOk verdicts.provenanceCheck).symm.trans checkAcyclic_isOk_iff

theorem graphCheck_ok {object message : String} {result : Result Unit} :
    (graphCheck object message result).ok = true ↔ ∃ value, result = .ok value := by
  cases result with
  | error failure => simp [graphCheck]
  | ok value => simp [graphCheck]

/-- No graph check fails exactly when the graph is in order, whatever order its sets are walked in. -/
theorem GraphVerdicts.clean_iff (object : String)
    (verdicts : GraphVerdicts order ctx edges nodes validated derivation provenance) :
    (∀ check ∈ graphRecords ctx object validated derivation provenance, check.ok = true) ↔
      GraphOk ctx edges nodes := by
  -- after a failed validation the cycle checks leave no record, yet their verdicts exist
  have parts : GraphOk ctx edges nodes ↔ (∃ graph, validated = .ok graph) ∧ (∃ value, derivation = .ok value) ∧
      (ctx.requireAcyclicProvenance = true → ∃ value, provenance = .ok value) := by
    rw [verdicts.validated_iff, verdicts.derivation_iff, verdicts.provenance_iff]
    exact ⟨fun ok => ⟨⟨ok.shape, ok.chains⟩, ok.derivation, ok.provenance⟩,
      fun ok => ⟨ok.1.1, ok.1.2, ok.2.1, ok.2.2⟩⟩
  rw [parts]
  cases validated with
  | error failure => simp [graphRecords]
  | ok graph =>
    simp only [graphRecords, List.forall_mem_append, List.forall_mem_cons, CheckRecord.pass_ok, graphCheck_ok,
      List.not_mem_nil, false_implies, implies_true, and_true, true_and, Except.ok.injEq, exists_eq']
    refine and_congr_right fun _ => ?_
    split
    · rename_i required
      simp [required, graphCheck_ok]
    · rename_i required
      simp [required]

end

end ProofEngine
