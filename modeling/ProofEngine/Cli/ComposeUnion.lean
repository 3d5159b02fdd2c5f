import ProofEngine.Cli.ComposeExact

/-! # Composition as a union

The graph that is checked is that of all inputs, the composite is made of the first input under each claimed id.  The
two coincide, and the composite is the union of its inputs, exactly when no input that was passed over brings a member
of its own. -/

namespace ProofEngine

open FirstBy DirectedGraph Text

/-! ## Unions -/

inductive MemberKind where
  | event
  | attestation
  | evidence
  | relationship
  deriving DecidableEq, Repr

section
variable (primitives : Primitives)

/-- The recomputed ids of the members of a kind. -/
def memberIds : MemberKind → Proof → List String
  | .event, proof => eventMemberIds primitives proof
  | .attestation, proof => proofAttestationIds primitives proof
  | .evidence, proof => evidenceMemberIds primitives proof
  | .relationship, proof => relationshipMemberIds primitives proof

/-- The members of the composite are those of the inputs, by id. -/
def ExactUnion (inputs : List Proof) (composite : Proof) : Prop :=
  ∀ kind id, id ∈ memberIds primitives kind composite ↔ ∃ input ∈ inputs, id ∈ memberIds primitives kind input

/-- No input that repeats a claimed id brings a member that no kept input has. -/
def NothingSkipped (inputs : List Proof) : Prop :=
  ∀ input ∈ inputs, ∀ kind, ∀ id ∈ memberIds primitives kind input,
    ∃ kept ∈ keptProofs inputs, id ∈ memberIds primitives kind kept

/-- The composite passes the checks that a composition makes, in whatever order sets are walked. -/
structure Coherent (cli : Cli) (composite : Proof) : Prop where
  validated : ∀ order, ∃ graph, validateGraphWithGrounding order (proofEdges primitives composite)
    (memberNodes primitives composite (eventMemberIds primitives composite)) Limits.default (composeGrounding cli) =
      .ok graph
  acyclic : ∀ order, checkDerivationAcyclic order (proofEdges primitives composite)
    (memberNodes primitives composite (eventMemberIds primitives composite)) = .ok ()

/-- The encodings of the relationships that are compared by their ids. -/
def relationshipEncodings (inputs : List Proof) : List Bytes :=
  inputs.flatMap fun input =>
    input.relationships.map fun relationship => encodeCanonical (relationshipToCbor relationship)

end

section
variable {primitives : Primitives} {inputs : List Proof} {composite : Proof}

theorem mem_ids_of_perm {α : Type} {id : α → String} {members : Proof → List α} {held : List α}
    (perm : held.Perm (keptMembers id members inputs)) {key : String} :
    key ∈ held.map id ↔ ∃ kept ∈ keptProofs inputs, key ∈ (members kept).map id := by
  rw [(perm.map id).mem_iff, keptMembers, mem_keys, List.map_flatMap, List.mem_flatMap]

/-- The ids in a composite are those of the kept inputs. -/
theorem HoldsKept.mem_memberIds (holds : HoldsKept primitives inputs composite) {kind : MemberKind} {id : String} :
    id ∈ memberIds primitives kind composite ↔ ∃ kept ∈ keptProofs inputs, id ∈ memberIds primitives kind kept := by
  cases kind with
  | event => exact mem_ids_of_perm holds.events
  | attestation => exact mem_ids_of_perm holds.attestations
  | evidence => exact mem_ids_of_perm holds.evidence
  | relationship => exact mem_ids_of_perm holds.relationships

theorem HoldsKept.exactUnion_iff (holds : HoldsKept primitives inputs composite) :
    ExactUnion primitives inputs composite ↔ NothingSkipped primitives inputs := by
  constructor
  · intro exact input member kind id inside
    exact holds.mem_memberIds.mp ((exact kind id).mpr ⟨input, member, inside⟩)
  · intro covered kind id
    rw [holds.mem_memberIds]
    constructor
    · rintro ⟨kept, member, inside⟩
      exact ⟨kept, mem_of_mem_firstBy member, inside⟩
    · rintro ⟨input, member, inside⟩
      exact covered input member kind id inside

/-! ## One graph -/

/-- The nodes that were checked are the members of the composite. -/
theorem memberNodes_perm_union {graph : UnionGraph} (exact : ExactUnion primitives inputs composite)
    (unites : Unites primitives inputs graph) :
    (memberNodes primitives composite (eventMemberIds primitives composite)).ids.Perm
      (NodeSet.new graph.nodeIds).ids := by
  refine (List.perm_ext_iff_of_nodup (NodeSet.nodup _) (NodeSet.nodup _)).mpr fun id => ?_
  rw [mem_memberNodes rfl, NodeSet.new, List.mem_dedup, unites.nodeIds, List.mem_flatMap]
  have events := exact .event id
  have attestations := exact .attestation id
  have evidence := exact .evidence id
  simp only [memberIds] at events attestations evidence
  simp only [NamesMember, events, attestations, evidence, List.mem_append, or_assoc, ← exists_or, ← and_or_left]

/-- Without a collision, relationships of the inputs with one id are one relationship. -/
theorem edges_determined (read : ∀ input ∈ inputs, ReadProof input)
    (collisionFree : CollisionFree primitives (relationshipEncodings inputs)) :
    ∀ left ∈ inputs.flatMap (proofEdges primitives), ∀ right ∈ inputs.flatMap (proofEdges primitives),
      left.id = right.id → left = right := by
  intro left leftMember right rightMember same
  obtain ⟨input, member, inside⟩ := List.mem_flatMap.mp leftMember
  obtain ⟨other, otherMember, otherInside⟩ := List.mem_flatMap.mp rightMember
  rw [proofEdges_eq] at inside otherInside
  obtain ⟨relationship, held, rfl⟩ := List.mem_map.mp inside
  obtain ⟨another, otherHeld, rfl⟩ := List.mem_map.mp otherInside
  have hashed : ∀ {proof : Proof} {content : Relationship}, proof ∈ inputs → content ∈ proof.relationships →
      encodeCanonical (relationshipToCbor content) ∈ relationshipEncodings inputs := by
    intro proof content proofMember contentMember
    exact List.mem_flatMap.mpr ⟨proof, proofMember, List.mem_map_of_mem contentMember⟩
  have encodings := collisionFree _ (hashed member held) _ (hashed otherMember otherHeld) (idWith_inj same)
  have determined := (read input member).bounded.encodingsDetermine (read other otherMember).bounded
  rw [determined.relationships relationship held another otherHeld encodings]

/-- The edges that were checked are those of the composite. -/
theorem proofEdges_perm_union {graph : UnionGraph} (read : ∀ input ∈ inputs, ReadProof input)
    (collisionFree : CollisionFree primitives (relationshipEncodings inputs))
    (holds : HoldsKept primitives inputs composite) (covered : NothingSkipped primitives inputs)
    (unites : Unites primitives inputs graph) : (proofEdges primitives composite).Perm graph.edges := by
  have within : ∀ edge ∈ (keptProofs inputs).flatMap (proofEdges primitives),
      edge ∈ inputs.flatMap (proofEdges primitives) := by
    intro edge member
    obtain ⟨kept, keptMember, inside⟩ := List.mem_flatMap.mp member
    exact List.mem_flatMap.mpr ⟨kept, mem_of_mem_firstBy keptMember, inside⟩
  have determined := edges_determined read collisionFree
  have ids : ∀ {proofs : List Proof} {id : String}, id ∈ (proofs.flatMap (proofEdges primitives)).map (·.id) ↔
      ∃ proof ∈ proofs, id ∈ memberIds primitives .relationship proof := by
    intro proofs id
    rw [List.map_flatMap, List.mem_flatMap]
    simp only [proofEdges_eq, List.map_map]
    rfl
  -- the composite has the first of each id among the kept inputs
  have kept : (keptMembers (relationshipMemberId primitives) Proof.relationships inputs).map
      (fun content => ({ content, id := relationshipMemberId primitives content } : EdgeRecord)) =
        firstBy (·.id) ((keptProofs inputs).flatMap (proofEdges primitives)) := by
    have edges : (keptProofs inputs).flatMap (proofEdges primitives) =
        ((keptProofs inputs).flatMap Proof.relationships).map fun content =>
          { content, id := relationshipMemberId primitives content } := by
      rw [List.map_flatMap]
      exact List.flatMap_congr fun proof _ => proofEdges_eq
    rw [edges, firstBy_map]
    rfl
  rw [proofEdges_eq, unites.edges]
  refine ((holds.relationships.map _).trans (.of_eq kept)).trans (firstBy_perm ?_ fun id => ?_)
  · exact fun left leftMember right rightMember => determined left (within left leftMember) right rightMember
  · rw [ids, ids]
    constructor
    · rintro ⟨proof, member, inside⟩
      exact ⟨proof, mem_of_mem_firstBy member, inside⟩
    · rintro ⟨input, member, inside⟩
      exact covered input member .relationship id inside

theorem checkUnion_eq_ok {order : HashOrder} {cli : Cli} {graph : UnionGraph}
    (done : checkUnion order cli graph = .ok ()) :
    ShapeOk graph.edges (NodeSet.new graph.nodeIds) Limits.default (composeGrounding cli) ∧
      ChainsOk (supersedesLinks graph.edges) Limits.default ∧
      Acyclic (derivationLinks graph.edges (NodeSet.new graph.nodeIds)) := by
  obtain ⟨found, validated, derived⟩ := bind_eq_ok.mp done
  obtain ⟨shape, chains⟩ := validateGraph_isOk_iff.mp ⟨found, labelledOutcome_eq_ok.mp validated⟩
  exact ⟨shape, chains, checkAcyclic_isOk_iff.mp ⟨(), labelledOutcome_eq_ok.mp derived⟩⟩

/-- A composite that is the union of its inputs has the graph that was checked. -/
theorem coherent_of_union {order : HashOrder} {cli : Cli} {graph : UnionGraph}
    (checked : checkUnion order cli graph = .ok ())
    (sameEdges : (proofEdges primitives composite).Perm graph.edges)
    (sameNodes : (memberNodes primitives composite (eventMemberIds primitives composite)).ids.Perm
      (NodeSet.new graph.nodeIds).ids) : Coherent primitives cli composite := by
  obtain ⟨shape, chains, acyclic⟩ := checkUnion_eq_ok checked
  constructor
  · intro order
    exact validateGraph_isOk_iff.mpr
      ⟨shape.perm sameEdges sameNodes, chains.perm ((sameEdges.filter _).map _)⟩
  · intro order
    have passes := (acyclic_perm (memberLinks_perm _ sameEdges sameNodes)).mpr acyclic
    obtain ⟨_, done⟩ := (@checkAcyclic_isOk_iff order .derivation _ _).mpr passes
    exact done

end

/-! ## Where composition is a union -/

/-- A composition is the union of its inputs and passes its own checks exactly when no input that was passed over has a
    member of its own. -/
theorem compose_union_iff (primitives : Primitives) (maps : MapOrder) (libraries : Libraries) (order : HashOrder)
    (cli : Cli) (world after : World) (composition : Composition)
    (done : compose primitives maps libraries order cli world = .ok composition after) :
    ∃ inputs, ComposeInputs libraries cli world inputs ∧
      (CollisionFree primitives (relationshipEncodings inputs) →
        (ExactUnion primitives inputs composition.built.proof ∧ Coherent primitives cli composition.built.proof ↔
          NothingSkipped primitives inputs)) := by
  obtain ⟨inputs, gathered, graph, builder, given, ran⟩ := compose_ran done
  refine ⟨inputs, given, fun collisionFree => ?_⟩
  have holds := ran.holds
  constructor
  · rintro ⟨exact, _⟩
    exact holds.exactUnion_iff.mp exact
  · intro covered
    have exact := holds.exactUnion_iff.mpr covered
    have sameEdges := proofEdges_perm_union ran.read collisionFree holds covered ran.unites
    exact ⟨exact, coherent_of_union ran.coherent sameEdges (memberNodes_perm_union exact ran.unites)⟩

/-! ## One id, two proofs -/

/-- A proof of one event under the id that belongs to the event about `acct:1`. -/
def statedProof (subject : String) : Proof :=
  { bareProof with
    proofId := "prf:v1:6OWL56fcZawEN9TYDtyo5VATKQKfzVlASV6XvhoEBfc"
    events := [settledEvent subject] }

def statedBytes (subject : String) : Bytes :=
  ((proofToCbor (statedProof subject)).toOption.map encodeCanonical).getD []

def settledTable : List (Bytes × Bytes) :=
  [(eventBytes "acct:1", firstEventDigest), (eventBytes "acct:2", secondEventDigest)]

/-- The composition of the proof about `acct:1`. -/
def settledComposite : Proof :=
  { statedProof "acct:1" with
    proofId := "prf:v1:KmdMjCu0ck3Iv07NGM_1nyYDAZmWjHitrqwgSYLgpvU"
    referencedProofs := ["prf:v1:6OWL56fcZawEN9TYDtyo5VATKQKfzVlASV6XvhoEBfc"]
    createdAt := 1700000100 }

def settledCompositeDigest : Bytes :=
  [0x2a, 0x67, 0x4c, 0x8c, 0x2b, 0xb4, 0x72, 0x4d, 0xc8, 0xbf, 0x4e, 0xcd, 0x18, 0xcf, 0xf5, 0x9f,
   0x26, 0x03, 0x01, 0x99, 0x96, 0x8c, 0x78, 0xad, 0xae, 0xac, 0x20, 0x49, 0x82, 0xe0, 0xa6, 0xf5]

def settledPrimitives : Primitives :=
  Primitives.ofTable (settledTable ++
    [(encodeCanonical (bindingOf (Primitives.ofTable settledTable []) settledComposite), settledCompositeDigest)]) []

/-- The honest proof in one file, the misstated one in another. -/
def statedWorld : World :=
  wrapperWorld [("honest.json", statedBytes "acct:1"), ("misstated.json", statedBytes "acct:2")]

theorem statedProof_read : ∀ subject ∈ ["acct:1", "acct:2"],
    (decodeStrict (statedBytes subject) Limits.default >>= cborToProof Limits.default) = .ok (statedProof subject) ∧
      (statedBytes subject).length ≤ 2 ^ 16 := by decide +kernel

theorem loads_honest : loadProof wrapperLibraries "honest.json" statedWorld =
    .ok { canonical := statedBytes "acct:1", proof := statedProof "acct:1" } statedWorld :=
  loadProof_wrapperWorld (by decide) rfl (statedProof_read "acct:1" (by simp))

theorem loads_misstated : loadProof wrapperLibraries "misstated.json" statedWorld =
    .ok { canonical := statedBytes "acct:2", proof := statedProof "acct:2" } statedWorld :=
  loadProof_wrapperWorld (by decide) rfl (statedProof_read "acct:2" (by simp))

/-- What the honest proof leaves gathered. -/
def settledGathered : Gathered where
  seenProofs := ["prf:v1:6OWL56fcZawEN9TYDtyo5VATKQKfzVlASV6XvhoEBfc"]
  events := [(firstEventId, settledEvent "acct:1")]

theorem gathers_honest : gatherInput settledPrimitives wrapperLibraries "honest.json" {} statedWorld =
    .ok settledGathered statedWorld :=
  gatherInput_fresh loads_honest List.not_mem_nil (by decide +kernel)

/-- Nothing of an input that was passed over is built. -/
theorem settledGathered_builds : ∃ proposition builder built, composeProposition (composeFlags "") = .ok proposition ∧
    composeBuilder settledPrimitives .inserted (composeFlags "") proposition settledGathered = .ok builder ∧
    builder.build settledPrimitives Limits.default = .ok built ∧ built.proof = settledComposite :=
  composeFlags_build (by decide +kernel)

/-- After the honest proof, one under the same id is looked at for its graph only. -/
theorem settledPair_composes {proofs other : String} {another : LoadedProof} {graph : UnionGraph}
    (listed : inputList (composeFlags proofs) "proofs" = .ok ["honest.json", other])
    (loads : loadProof wrapperLibraries other statedWorld = .ok another statedWorld)
    (repeats : another.proof.proofId ∈ settledGathered.seenProofs)
    (united : unionInput settledPrimitives { nodeIds := [firstEventId] } another.proof = .ok graph)
    (coherent : checkUnion .inserted (composeFlags proofs) graph = .ok ()) :
    ∃ composition after, compose settledPrimitives .inserted wrapperLibraries .inserted (composeFlags proofs)
        statedWorld = .ok composition after ∧
      ComposeInputs wrapperLibraries (composeFlags proofs) statedWorld [statedProof "acct:1", another.proof] ∧
      composition.built.proof = settledComposite := by
  obtain ⟨proposition, builder, built, stated, assembled, builds, same⟩ := settledGathered_builds
  have first : unionInput settledPrimitives {} (statedProof "acct:1") = .ok { nodeIds := [firstEventId] } := by
    decide +kernel
  obtain ⟨after, done⟩ := compose_of_steps listed rfl stated
    (gatherInputs_pair gathers_honest (gatherInput_seen loads repeats)) assembled
    (unionInputs_pair loads_honest loads first united) coherent builds rfl fun _ => rfl
  exact ⟨_, after, done, ⟨_, listed, .cons loads_honest (.cons loads (.nil statedWorld))⟩, same⟩

/-- An input that is given twice adds nothing, and the composite is the union. -/
theorem repeatedInput_union : ∃ composition after inputs,
    compose settledPrimitives .inserted wrapperLibraries .inserted (composeFlags "honest.json,honest.json")
        statedWorld = .ok composition after ∧
      ComposeInputs wrapperLibraries (composeFlags "honest.json,honest.json") statedWorld inputs ∧
      ExactUnion settledPrimitives inputs composition.built.proof ∧
      Coherent settledPrimitives (composeFlags "honest.json,honest.json") composition.built.proof := by
  have listed : inputList (composeFlags "honest.json,honest.json") "proofs" = .ok ["honest.json", "honest.json"] := by
    decide +kernel
  have united : unionInput settledPrimitives { nodeIds := [firstEventId] } (statedProof "acct:1") =
      .ok { nodeIds := [firstEventId, firstEventId] } := by decide +kernel
  obtain ⟨composition, after, done, ⟨_, listedToo, loads⟩, _⟩ :=
    settledPair_composes listed loads_honest List.mem_cons_self united (by decide +kernel)
  obtain ⟨inputs, ⟨paths, listedAgain, loadsAgain⟩, exact⟩ := compose_union_iff _ _ _ _ _ _ _ _ done
  obtain rfl := Except.ok.inj (listedToo.symm.trans listedAgain)
  obtain rfl := loads.unique loadsAgain
  have unrelated : relationshipEncodings [statedProof "acct:1", statedProof "acct:1"] = [] := by decide +kernel
  refine ⟨composition, after, _, done, ⟨_, listedToo, loads⟩, (exact (by simp [unrelated, CollisionFree])).mpr ?_⟩
  intro input member kind id inside
  have kept : input ∈ keptProofs [statedProof "acct:1", statedProof "acct:1"] := (mem_firstBy (by simp)).mpr member
  exact ⟨input, kept, inside⟩

/-- The misstated proof is passed over, and its event with it; the graph with that event was fine. -/
theorem misstatedProof_skipped : ∃ composition after inputs,
    compose settledPrimitives .inserted wrapperLibraries .inserted (composeFlags "honest.json,misstated.json")
        statedWorld = .ok composition after ∧
      ComposeInputs wrapperLibraries (composeFlags "honest.json,misstated.json") statedWorld inputs ∧
      ¬ ExactUnion settledPrimitives inputs composition.built.proof := by
  have listed : inputList (composeFlags "honest.json,misstated.json") "proofs" =
      .ok ["honest.json", "misstated.json"] := by
    decide +kernel
  have united : unionInput settledPrimitives { nodeIds := [firstEventId] } (statedProof "acct:2") =
      .ok { nodeIds := [firstEventId, secondEventId] } := by decide +kernel
  obtain ⟨composition, after, done, given, same⟩ :=
    settledPair_composes listed loads_misstated List.mem_cons_self united (by decide +kernel)
  refine ⟨composition, after, _, done, given, fun exact => ?_⟩
  have brought : secondEventId ∈ memberIds settledPrimitives .event (statedProof "acct:2") := by decide +kernel
  have held := (exact .event secondEventId).mpr ⟨statedProof "acct:2", by simp, brought⟩
  have lost : secondEventId ∉ memberIds settledPrimitives .event settledComposite := by decide +kernel
  rw [same] at held
  exact lost held

end ProofEngine
