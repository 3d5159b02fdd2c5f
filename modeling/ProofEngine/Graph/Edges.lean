import ProofEngine.Graph.Chains

/-! # What graph validation accepts

Validation is a check of the shape, which looks at each edge and at the counts, followed by the check of
the supersession chains.  Only the second part walks a hash set. -/

namespace ProofEngine

open Text DirectedGraph

/-! ## One edge -/

/-- A backing reference is of its own kind and names a member. -/
def Backed (nodes : NodeSet) (lead : String) (reference : Option String) : Prop :=
  ∀ id, reference = some id → id.isEmpty = false ∧ startsWith id lead = true ∧ id ∈ nodes.ids

/-- The edge type needs backing, by the default set or by the caller's. -/
def NeedsGrounding (extraGrounded : Option (List String)) (relType : String) : Prop :=
  RelType.requiresGrounding relType = true ∨ ∃ extra, extraGrounded = some extra ∧ relType ∈ extra

structure EdgeOk (nodes : NodeSet) (extraGrounded : Option (List String)) (relationship : Relationship) :
    Prop where
  version : relationship.v = 1
  named : relationship.source.isEmpty = false ∧ relationship.target.isEmpty = false
  apart : relationship.source ≠ relationship.target
  resolved : relationship.relType ≠ RelType.equivalent →
    relationship.source ∈ nodes.ids ∧ relationship.target ∈ nodes.ids
  identities : relationship.relType = RelType.equivalent →
    ∀ endpoint ∈ [relationship.source, relationship.target],
      looksLikeArtifactId endpoint = true → endpoint ∈ nodes.ids
  grounded : NeedsGrounding extraGrounded relationship.relType →
    relationship.evidenceRef.isSome = true ∨ relationship.attestationRef.isSome = true
  evidence : Backed nodes "evd:v1:" relationship.evidenceRef
  attestation : Backed nodes "att:v1:" relationship.attestationRef

/-- The endpoints of an edge that count as nodes. -/
def memberEndpoints (nodes : NodeSet) (relationship : Relationship) : List String :=
  if relationship.relType = RelType.equivalent then
    [relationship.source, relationship.target].filter nodes.contains
  else [relationship.source, relationship.target]

section
variable {nodes : NodeSet} {extraGrounded : Option (List String)}

theorem contains_iff {id : String} : nodes.contains id = true ↔ id ∈ nodes.ids := List.contains_iff_mem

theorem identityEndpoint_eq_ok {label endpoint : String} {found : List String} :
    identityEndpoint nodes label endpoint = .ok found ↔
      (looksLikeArtifactId endpoint = true → endpoint ∈ nodes.ids) ∧ found = [endpoint].filter nodes.contains := by
  rw [eq_comm (a := found)]
  unfold identityEndpoint
  by_cases member : nodes.contains endpoint = true
  · simp [member, contains_iff.mp member]
  · have outside : endpoint ∉ nodes.ids := fun inside => member (contains_iff.mpr inside)
    by_cases shaped : looksLikeArtifactId endpoint = true
    · simp [member, outside, shaped, danglingError]
    · simp [member, shaped]

theorem edgeEndpoints_eq_ok {relationship : Relationship} {found : List String} :
    edgeEndpoints nodes relationship = .ok found ↔
      (relationship.relType ≠ RelType.equivalent →
        relationship.source ∈ nodes.ids ∧ relationship.target ∈ nodes.ids) ∧
      (relationship.relType = RelType.equivalent → ∀ endpoint ∈ [relationship.source, relationship.target],
        looksLikeArtifactId endpoint = true → endpoint ∈ nodes.ids) ∧
      found = memberEndpoints nodes relationship := by
  unfold edgeEndpoints memberEndpoints
  -- EQUIVALENT may name identities outside the proof; every other type names members
  by_cases identity : relationship.relType = RelType.equivalent
  · simp only [if_pos identity, bind_eq_ok, identityEndpoint_eq_ok, Except.ok.injEq]
    constructor
    · rintro ⟨_, ⟨source, rfl⟩, _, ⟨target, rfl⟩, rfl⟩
      refine ⟨fun other => absurd identity other, fun _ => ?_, (List.filter_append [_] [_]).symm⟩
      simp only [List.forall_mem_cons, List.not_mem_nil, false_implies, implies_true, and_true]
      exact ⟨source, target⟩
    · rintro ⟨_, shaped, rfl⟩
      have both := shaped identity
      simp only [List.forall_mem_cons, List.not_mem_nil, false_implies, implies_true, and_true] at both
      exact ⟨_, ⟨both.1, rfl⟩, _, ⟨both.2, rfl⟩, (List.filter_append [_] [_]).symm⟩
  · simp only [if_neg identity]
    by_cases source : nodes.contains relationship.source = true
    · by_cases target : nodes.contains relationship.target = true
      · rw [eq_comm (a := found)]
        simp [source, target, identity, contains_iff.mp source, contains_iff.mp target]
      · simp [source, target, identity, mt contains_iff.mpr target, danglingError]
    · simp [source, identity, mt contains_iff.mpr source, danglingError]

theorem checkBacking_eq_ok {label lead : String} {reference : Option String} :
    checkBacking nodes label lead reference = .ok () ↔ Backed nodes lead reference := by
  cases reference with
  | none => simp [checkBacking, Backed]
  | some id =>
    simp only [checkBacking, Backed, Option.some.injEq, forall_eq']
    by_cases empty : id.isEmpty = true
    · simp [empty]
    · by_cases starts : startsWith id lead = true
      · by_cases member : nodes.contains id = true
        · simp [empty, starts, member, contains_iff.mp member]
        · simp [empty, starts, member, mt contains_iff.mpr member, danglingError]
      · simp [empty, starts]

theorem needsGrounding_iff {relType : String} :
    (RelType.requiresGrounding relType || (extraGrounded.map (·.contains relType)).getD false) = true ↔
      NeedsGrounding extraGrounded relType := by
  cases extraGrounded <;> simp [NeedsGrounding]

theorem checkEdge_eq_ok {seen : List String} {edge : EdgeRecord} {found : List String} :
    checkEdge nodes extraGrounded seen edge = .ok found ↔
      edge.id ∉ seen ∧ EdgeOk nodes extraGrounded edge.content ∧ found = memberEndpoints nodes edge.content := by
  simp only [checkEdge]
  constructor
  · intro done
    split at done
    · cases done
    rename_i fresh
    split at done
    · cases done
    rename_i version
    split at done
    · cases done
    rename_i named
    split at done
    · cases done
    rename_i apart
    obtain ⟨endpoints, resolves, done⟩ := bind_eq_ok.mp done
    obtain ⟨resolved, identities, rfl⟩ := edgeEndpoints_eq_ok.mp resolves
    split at done
    · cases done
    rename_i grounding
    obtain ⟨_, evidence, done⟩ := bind_eq_ok.mp done
    obtain ⟨_, attestation, done⟩ := bind_eq_ok.mp done
    cases done
    refine ⟨mt List.contains_iff_mem.mpr fresh, ⟨not_not.mp version, by simpa using named, apart, resolved,
      identities, fun needs => ?_, checkBacking_eq_ok.mp evidence, checkBacking_eq_ok.mp attestation⟩, rfl⟩
    -- the guard refused edges that need backing and have neither reference
    rw [needsGrounding_iff.mpr needs] at grounding
    cases evidenceRef : edge.content.evidenceRef with
    | some id => exact Or.inl rfl
    | none =>
      cases attestationRef : edge.content.attestationRef with
      | some id => exact Or.inr rfl
      | none => simp [evidenceRef, attestationRef] at grounding
  · rintro ⟨fresh, ok, rfl⟩
    have grounding : ¬ ((RelType.requiresGrounding edge.content.relType ||
        (extraGrounded.map (·.contains edge.content.relType)).getD false) &&
        edge.content.evidenceRef.isNone && edge.content.attestationRef.isNone) = true := by
      intro ungrounded
      simp only [Bool.and_eq_true, Option.isNone_iff_eq_none] at ungrounded
      have backed := ok.grounded (needsGrounding_iff.mp ungrounded.1.1)
      simp [ungrounded.1.2, ungrounded.2] at backed
    have endpoints : edgeEndpoints nodes edge.content = .ok (memberEndpoints nodes edge.content) :=
      edgeEndpoints_eq_ok.mpr ⟨ok.resolved, ok.identities, rfl⟩
    rw [if_neg (mt List.contains_iff_mem.mp fresh), if_neg (not_not.mpr ok.version),
      if_neg (by simp [ok.named]), if_neg ok.apart, endpoints, ok_bind, if_neg grounding,
      checkBacking_eq_ok.mpr ok.evidence, ok_bind, checkBacking_eq_ok.mpr ok.attestation]
    rfl

/-- The loop accepts edges that are each in order and have distinct ids. -/
theorem checkEdges_eq_ok {seen : List String} {edges : List EdgeRecord} {found : List String} :
    checkEdges nodes extraGrounded seen edges = .ok found ↔
      (∀ edge ∈ edges, edge.id ∉ seen ∧ EdgeOk nodes extraGrounded edge.content) ∧
      (edges.map (·.id)).Nodup ∧ found = edges.flatMap fun edge => memberEndpoints nodes edge.content := by
  induction edges generalizing seen found with
  | nil =>
    rw [eq_comm (a := found)]
    simp [checkEdges]
  | cons edge edges inductionHypothesis =>
    simp only [checkEdges, bind_eq_ok, checkEdge_eq_ok, inductionHypothesis, List.forall_mem_cons, List.map_cons,
      List.nodup_cons, List.mem_map, List.flatMap_cons, Except.ok.injEq]
    constructor
    · rintro ⟨here, ⟨fresh, ok, rfl⟩, later, ⟨others, nodup, rfl⟩, rfl⟩
      -- the rest was checked against the ids seen so far and this one
      have unseen : ∀ other ∈ edges, other.id ≠ edge.id ∧ other.id ∉ seen :=
        fun other member => List.ne_and_not_mem_of_not_mem_cons (others other member).1
      refine ⟨⟨⟨fresh, ok⟩, fun other member => ⟨(unseen other member).2, (others other member).2⟩⟩, ⟨?_, nodup⟩,
        rfl⟩
      rintro ⟨other, member, same⟩
      exact (unseen other member).1 same
    · rintro ⟨⟨⟨fresh, ok⟩, others⟩, ⟨unique, nodup⟩, rfl⟩
      refine ⟨_, ⟨fresh, ok, rfl⟩, _, ⟨fun other member => ⟨?_, (others other member).2⟩, nodup, rfl⟩, rfl⟩
      exact List.not_mem_cons_of_ne_of_not_mem (fun same => unique ⟨other, member, same⟩) (others other member).1

end

/-! ## The whole graph -/

/-- The part of validation before the supersession chains; yields the number of nodes. -/
def checkShape (edges : List EdgeRecord) (nodes : NodeSet) (limits : Limits)
    (extraGrounded : Option (List String)) : Result Nat := do
  if limits.maxEdges.toNat < edges.length then
    tooManyError "edges" edges.length "max_edges" limits.maxEdges
  else if limits.maxNodes.toNat < nodes.len then
    tooManyError "nodes" nodes.len "max_nodes" limits.maxNodes
  else
    let endpoints ← checkEdges nodes extraGrounded [] edges
    if limits.maxNodes.toNat < endpoints.dedup.length then
      tooManyError "nodes" endpoints.dedup.length "max_nodes" limits.maxNodes
    else .ok endpoints.dedup.length

theorem validateGraph_eq (order : HashOrder) (edges : List EdgeRecord) (nodes : NodeSet) (limits : Limits)
    (extraGrounded : Option (List String)) :
    validateGraphWithGrounding order edges nodes limits extraGrounded =
      (Result.lift (checkShape edges nodes limits extraGrounded) >>= fun nodeCount =>
        checkSupersedes order edges limits >>= fun longest =>
          .ok { edgeIds := edges.map (·.id), nodeCount, edgeCount := edges.length,
                longestSupersedesChain := longest }) := by
  simp only [validateGraphWithGrounding, checkShape]
  split
  · rfl
  split
  · rfl
  -- up to here both sides run the same guards on the counts
  cases checkEdges nodes extraGrounded [] edges with
  | error failure => rfl
  | ok endpoints =>
    simp only [Result.lift, ok_bind]
    split <;> rfl

/-- What the shape check accepts. -/
structure ShapeOk (edges : List EdgeRecord) (nodes : NodeSet) (limits : Limits)
    (extraGrounded : Option (List String)) : Prop where
  edgeCount : edges.length ≤ limits.maxEdges.toNat
  nodeCount : nodes.len ≤ limits.maxNodes.toNat
  edgesOk : ∀ edge ∈ edges, EdgeOk nodes extraGrounded edge.content
  distinct : (edges.map (·.id)).Nodup
  endpointCount : (edges.flatMap fun edge => memberEndpoints nodes edge.content).dedup.length ≤ limits.maxNodes.toNat

theorem checkShape_eq_ok {edges : List EdgeRecord} {nodes : NodeSet} {limits : Limits}
    {extraGrounded : Option (List String)} {count : Nat} :
    checkShape edges nodes limits extraGrounded = .ok count ↔ ShapeOk edges nodes limits extraGrounded ∧
      count = (edges.flatMap fun edge => memberEndpoints nodes edge.content).dedup.length := by
  simp only [checkShape]
  constructor
  · intro done
    split at done
    · cases done
    rename_i fewEdges
    split at done
    · cases done
    rename_i fewNodes
    obtain ⟨endpoints, checked, done⟩ := bind_eq_ok.mp done
    obtain ⟨ok, distinct, rfl⟩ := checkEdges_eq_ok.mp checked
    split at done
    · cases done
    rename_i fewEndpoints
    cases done
    exact ⟨⟨not_lt.mp fewEdges, not_lt.mp fewNodes, fun edge member => (ok edge member).2, distinct,
      not_lt.mp fewEndpoints⟩, rfl⟩
  · rintro ⟨ok, rfl⟩
    have checked : checkEdges nodes extraGrounded [] edges =
        .ok (edges.flatMap fun edge => memberEndpoints nodes edge.content) :=
      checkEdges_eq_ok.mpr ⟨fun edge member => ⟨List.not_mem_nil, ok.edgesOk edge member⟩, ok.distinct, rfl⟩
    rw [if_neg (not_lt.mpr ok.edgeCount), if_neg (not_lt.mpr ok.nodeCount), checked, ok_bind,
      if_neg (not_lt.mpr ok.endpointCount)]

/-! ## Verdicts are results -/

/-- The computation ends with a value or an error of its own: it neither panics nor runs on. -/
def Settles {α : Type} (outcome : Outcome α) : Prop := ∃ result : Result α, outcome = Result.lift result

theorem checkAcyclic_settles (order : HashOrder) (site : HashSite) (message : String → String) (links : Links) :
    Settles (checkAcyclic order site message links) := by
  obtain ⟨passes, _⟩ | ⟨node, reported, _⟩ := checkAcyclic_spec order site message links
  · exact ⟨.ok (), passes⟩
  · exact ⟨.error _, reported⟩

theorem checkSupersedes_settles (order : HashOrder) (edges : List EdgeRecord) (limits : Limits) :
    Settles (checkSupersedes order edges limits) := by
  obtain ⟨_, passes⟩ | ⟨node, _, reported⟩ | ⟨_, _, verdict⟩ := checkSupersedes_cases order edges limits
  · exact ⟨.ok 0, passes⟩
  · exact ⟨branchError node, reported⟩
  · generalize checkSupersedes order edges limits = outcome at verdict
    cases verdict with
    | cyclic _ => exact ⟨.error _, rfl⟩
    | tooLong _ _ _ => exact ⟨.error _, rfl⟩
    | @fits length _ _ _ => exact ⟨.ok length, rfl⟩

theorem validateGraph_settles (order : HashOrder) (edges : List EdgeRecord) (nodes : NodeSet) (limits : Limits)
    (extraGrounded : Option (List String)) :
    Settles (validateGraphWithGrounding order edges nodes limits extraGrounded) := by
  rw [validateGraph_eq]
  cases checkShape edges nodes limits extraGrounded with
  | error failure => exact ⟨.error failure, rfl⟩
  | ok nodeCount =>
    obtain ⟨result, settled⟩ := checkSupersedes_settles order edges limits
    rw [settled]
    cases result with
    | error failure => exact ⟨.error failure, rfl⟩
    | ok longest => exact ⟨.ok _, rfl⟩

end ProofEngine
