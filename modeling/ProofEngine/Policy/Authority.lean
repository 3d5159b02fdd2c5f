import ProofEngine.Policy.ShortestPath

/-! # Delegation chains and identity paths

What the two path searches of the evaluator decide, in terms of grants and of assertions of identity. -/

namespace ProofEngine

open Relation DirectedGraph Paths

/-! ## Delegation -/

/-- A grant that a chain may use: its attestation is ACTIVE, and it has exactly the scope that is required, if
    one is. -/
def Delegates (state : VerifiedState) (scope : Option String) (delegator delegatee : String) : Prop :=
  ∃ delegation ∈ state.delegations, delegation.attestationId ∈ state.activeAttestationIds ∧
    (∀ required, scope = some required → delegation.scope = some required) ∧
    delegation.delegator = delegator ∧ delegation.delegatee = delegatee

section
variable {state : VerifiedState} {inputs : EvalInputs}

theorem isActive_iff {id : String} : isActive state id = true ↔ id ∈ state.activeAttestationIds :=
  List.contains_iff_mem

theorem arc_delegationLinks {scope : Option String} {delegator delegatee : String} :
    Arc (delegationLinks state scope) delegator delegatee ↔ Delegates state scope delegator delegatee := by
  have inScope : ∀ delegation : Delegation, (scope.isNone || delegation.scope = scope) = true ↔
      ∀ required, scope = some required → delegation.scope = some required := by
    intro delegation
    cases scope <;> simp
  simp only [Arc, delegationLinks, Delegates, List.mem_map, List.mem_filter, Bool.and_eq_true, inScope, isActive_iff,
    Prod.mk.injEq, and_assoc]

/-- The search for a delegation chain ends on every state.  It finds a chain exactly when the target is the root
    or can be reached from it by active grants of the required scope, and then one with as few links as
    possible and no name twice. -/
theorem delegationChain_exact (state : VerifiedState) (root target : String) (scope : Option String) :
    ∃ chain, delegationChain state root target scope = .ok chain ∧
      (chain.isSome = true ↔ target = root ∨ ∃ nodes, IsPath (Delegates state scope) root target nodes) ∧
      ∀ nodes, chain = some nodes → IsShortest (Delegates state scope) root target nodes := by
  obtain ⟨chain, done, found, shortest⟩ := findPath_exact (delegationLinks state scope) root target
  have same : Arc (delegationLinks state scope) = Delegates state scope :=
    funext₂ fun _ _ => propext arc_delegationLinks
  rw [same] at found shortest
  refine ⟨chain, done, ?_, shortest⟩
  rw [found, ← exists_path_iff]
  constructor
  · exact .inr
  · rintro (rfl | reached)
    · exact ⟨_, .singleton _⟩
    · exact reached

/-! ## Identity -/

/-- A trusted party asserts, by an ACTIVE attestation, that two names stand for one identity: in a binding, or
    as the verified attester of an EQUIVALENT edge. -/
def Identifies (state : VerifiedState) (inputs : EvalInputs) (left right : String) : Prop :=
  (∃ binding ∈ state.identityBindings, binding.asserter ∈ inputs.trustedIssuers ∧
    binding.attestationId ∈ state.activeAttestationIds ∧ binding.subject = left ∧ binding.equivalent = right) ∨
  ∃ edge ∈ state.edges, edge.relType = RelType.equivalent ∧
    (∃ id ∈ state.activeAttestationIds, edge.attestation = some id) ∧
    (∃ attester ∈ inputs.trustedIssuers, edge.attester = some attester) ∧ edge.source = left ∧ edge.target = right

/-- The verifier takes two names for one identity. -/
def SameIdentity (state : VerifiedState) (inputs : EvalInputs) (a b : String) : Prop :=
  ∃ nodes, identityPath state inputs a b = .ok (some nodes)

theorem isLiveEdge_iff {edge : EdgeFact} :
    isLiveEdge state inputs edge = true ↔ (∃ id ∈ state.activeAttestationIds, edge.attestation = some id) ∧
      ∃ attester ∈ inputs.trustedIssuers, edge.attester = some attester := by
  simp only [isLiveEdge]
  cases edge.attestation with
  | none => simp
  | some id =>
    cases edge.attester with
    | none => simp
    | some attester => simp [isActive_iff]

/-- Both sources of the search are walked in both directions. -/
theorem arc_identityLinks {left right : String} :
    Arc (identityLinks state inputs) left right ↔ SymmGen (Identifies state inputs) left right := by
  have edge_iff : ∀ x y, (left, right) ∈ linkEdge x y ↔ x = left ∧ y = right ∨ x = right ∧ y = left := by
    intro x y
    simp only [linkEdge, List.mem_cons, Prod.mk.injEq, List.not_mem_nil, or_false]
    constructor
    · rintro (⟨rfl, rfl⟩ | ⟨rfl, rfl⟩)
      · exact .inl ⟨rfl, rfl⟩
      · exact .inr ⟨rfl, rfl⟩
    · rintro (⟨rfl, rfl⟩ | ⟨rfl, rfl⟩)
      · exact .inl ⟨rfl, rfl⟩
      · exact .inr ⟨rfl, rfl⟩
  have guarded : ∀ (condition : Prop) [Decidable condition] x y,
      (left, right) ∈ (if condition then linkEdge x y else []) ↔
        condition ∧ (x = left ∧ y = right ∨ x = right ∧ y = left) := by
    intro condition _ x y
    by_cases holds : condition
    · simp [holds, edge_iff]
    · simp [holds]
  change Arc (identityLinks state inputs) left right ↔
    Identifies state inputs left right ∨ Identifies state inputs right left
  simp only [Arc, identityLinks, List.mem_append, List.mem_flatMap, guarded, Bool.and_eq_true, decide_eq_true_eq,
    List.contains_iff_mem, isActive_iff, isLiveEdge_iff, Identifies]
  constructor
  · rintro (⟨binding, member, ⟨trusted, active⟩, forth | back⟩ |
      ⟨edge, member, ⟨equivalent, active, trusted⟩, forth | back⟩)
    · exact .inl (.inl ⟨binding, member, trusted, active, forth⟩)
    · exact .inr (.inl ⟨binding, member, trusted, active, back⟩)
    · exact .inl (.inr ⟨edge, member, equivalent, active, trusted, forth⟩)
    · exact .inr (.inr ⟨edge, member, equivalent, active, trusted, back⟩)
  · rintro ((⟨binding, member, trusted, active, forth⟩ | ⟨edge, member, equivalent, active, trusted, forth⟩) |
      (⟨binding, member, trusted, active, back⟩ | ⟨edge, member, equivalent, active, trusted, back⟩))
    · exact .inl ⟨binding, member, ⟨trusted, active⟩, .inl forth⟩
    · exact .inr ⟨edge, member, ⟨equivalent, active, trusted⟩, .inl forth⟩
    · exact .inl ⟨binding, member, ⟨trusted, active⟩, .inr back⟩
    · exact .inr ⟨edge, member, ⟨equivalent, active, trusted⟩, .inr back⟩

theorem identityPath_spec (a b : String) :
    ∃ path, identityPath state inputs a b = .ok path ∧
      (path.isSome = true ↔ EqvGen (Identifies state inputs) a b) ∧
      ∀ nodes, path = some nodes → IsShortest (SymmGen (Identifies state inputs)) a b nodes := by
  obtain ⟨path, done, found, shortest⟩ := findPath_exact (identityLinks state inputs) a b
  have same : Arc (identityLinks state inputs) = SymmGen (Identifies state inputs) :=
    funext₂ fun _ _ => propext arc_identityLinks
  rw [same] at found shortest
  rw [EqvGen.reflTransGen_symmGen] at found
  exact ⟨path, done, found, shortest⟩

theorem sameIdentity_iff {a b : String} :
    SameIdentity state inputs a b ↔ EqvGen (Identifies state inputs) a b := by
  obtain ⟨path, done, found, _⟩ := @identityPath_spec state inputs a b
  rw [SameIdentity, done, ← found, Option.isSome_iff_exists]
  simp only [Except.ok.injEq]

theorem Identifies.mono {more : EvalInputs} (wider : inputs.trustedIssuers ⊆ more.trustedIssuers) {left right : String}
    (identifies : Identifies state inputs left right) : Identifies state more left right := by
  rcases identifies with ⟨binding, member, trusted, rest⟩ |
    ⟨edge, member, equivalent, active, ⟨attester, trusted, named⟩, rest⟩
  · exact .inl ⟨binding, member, wider trusted, rest⟩
  · exact .inr ⟨edge, member, equivalent, active, ⟨attester, wider trusted, named⟩, rest⟩

theorem SameIdentity.mono {more : EvalInputs} (wider : inputs.trustedIssuers ⊆ more.trustedIssuers) {a b : String}
    (same : SameIdentity state inputs a b) : SameIdentity state more a b := by
  rw [sameIdentity_iff] at same ⊢
  exact EqvGen.mono (fun _ _ => Identifies.mono wider) a b same

end

/-- Identity under one verifier's trust list is an equivalence: the search ends on every state and connects the
    names that trusted, active assertions connect when read in both directions.  More trust connects more,
    and a path that is found has no name twice. -/
theorem identityPath_exact (state : VerifiedState) (inputs : EvalInputs) :
    (∀ a b, ∃ path, identityPath state inputs a b = .ok path) ∧
    Equivalence (SameIdentity state inputs) ∧
    (∀ a b, SameIdentity state inputs a b ↔ EqvGen (Identifies state inputs) a b) ∧
    (∀ more : EvalInputs, inputs.trustedIssuers ⊆ more.trustedIssuers →
      ∀ a b, SameIdentity state inputs a b → SameIdentity state more a b) ∧
    ∀ a b nodes, identityPath state inputs a b = .ok (some nodes) →
      IsPath (SymmGen (Identifies state inputs)) a b nodes ∧ nodes.Nodup := by
  have connected : SameIdentity state inputs = EqvGen (Identifies state inputs) :=
    funext₂ fun _ _ => propext sameIdentity_iff
  refine ⟨fun a b => ?_, ?_, fun _ _ => sameIdentity_iff, fun _ wider _ _ => .mono wider, ?_⟩
  · obtain ⟨path, done, _⟩ := @identityPath_spec state inputs a b
    exact ⟨path, done⟩
  · rw [connected]
    exact EqvGen.is_equivalence _
  · intro a b nodes done
    obtain ⟨path, again, _, shortest⟩ := @identityPath_spec state inputs a b
    cases done.symm.trans again
    have found := shortest nodes rfl
    exact ⟨found.toIsPath, found.nodup⟩

end ProofEngine
