import ProofEngine.Crypto.Create
import ProofEngine.Verify.Totality
import ProofEngine.Verify.Verdicts

/-! # The proof builder

Members are collected in any order, sorted by id, bound into the proof id and written out; the bytes must parse
to the proof that was assembled.  `builderOf_eq` says what a whole run of additions collects, `build_eq_ok` what
a built proof satisfies. -/

namespace ProofEngine

open StableSort Text

structure BuiltProof where
  proof : Proof
  canonical : Bytes
  id : String
  deriving DecidableEq, Repr

structure ProofBuilder where
  proposition : Option Proposition
  createdAt : UInt64
  events : List CreatedEvent
  attestations : List CreatedAttestation
  evidence : List CreatedEvidence
  relationships : List CreatedRelationship
  referencedProofs : List String
  vocabularies : List VocabularyDecl
  deriving DecidableEq, Repr

/-- The namespace of a declaration, as `vocabularyFromCbor` reads it. -/
def checkVocabularyNs (ns : String) : Result Unit :=
  if ns.isEmpty || 128 < len ns then schemaError "vocabulary ns length out of bounds"
  else if ns.toList.contains ':' || ns.toList.any isWhitespace then
    schemaError "vocabulary ns must not contain ':' or whitespace"
  else .ok ()

/-- No id occurs twice; `seen` holds the ids before. -/
def checkDuplicates (what : String) : (seen ids : List String) → Result Unit
  | _, [] => .ok ()
  | seen, id :: ids =>
    if id ∈ seen then schemaError ("duplicate " ++ what ++ " member " ++ id)
    else checkDuplicates what (id :: seen) ids

namespace ProofBuilder

def new (proposition : Proposition) (createdAt : UInt64) : ProofBuilder where
  proposition := some proposition
  createdAt := createdAt
  events := []
  attestations := []
  evidence := []
  relationships := []
  referencedProofs := []
  vocabularies := []

/-! ## Additions -/

def addEvent (builder : ProofBuilder) (event : CreatedEvent) : ProofBuilder :=
  { builder with events := builder.events ++ [event] }

def addAttestation (builder : ProofBuilder) (attestation : CreatedAttestation) : ProofBuilder :=
  { builder with attestations := builder.attestations ++ [attestation] }

def addEvidence (builder : ProofBuilder) (evidence : CreatedEvidence) : ProofBuilder :=
  { builder with evidence := builder.evidence ++ [evidence] }

def addRelationship (builder : ProofBuilder) (relationship : CreatedRelationship) : ProofBuilder :=
  { builder with relationships := builder.relationships ++ [relationship] }

def addReferencedProof (primitives : Primitives) (builder : ProofBuilder) (id : String) : Result ProofBuilder := do
  checkProofRefShape primitives id
  .ok { builder with referencedProofs := builder.referencedProofs ++ [id] }

def addVocabulary (builder : ProofBuilder) (ns : String) (version : UInt64) : Result ProofBuilder := do
  checkVocabularyNs ns
  .ok { builder with vocabularies := builder.vocabularies ++ [{ ns, version }] }

/-! ## Assembly -/

/-- Members by id, references and declared namespaces once each. -/
def arrange (builder : ProofBuilder) : ProofBuilder :=
  { builder with
    events := sortOn (fun event => utf8 event.id) builder.events
    attestations := sortOn (fun attestation => utf8 attestation.id) builder.attestations
    evidence := sortOn (fun evidence => utf8 evidence.id) builder.evidence
    relationships := sortOn (fun relationship => utf8 relationship.id) builder.relationships
    referencedProofs := sortDedup utf8 builder.referencedProofs
    -- a namespace keeps the version that was declared first
    vocabularies := sortDedup (fun declared => utf8 declared.ns) builder.vocabularies }

def checkMembers (builder : ProofBuilder) : Result Unit := do
  checkDuplicates "event" [] (builder.events.map (·.id))
  checkDuplicates "attestation" [] (builder.attestations.map (·.id))
  checkDuplicates "evidence" [] (builder.evidence.map (·.id))
  checkDuplicates "relationship" [] (builder.relationships.map (·.id))

section
variable (primitives : Primitives)

def assemble (builder : ProofBuilder) (proposition : Proposition) : Proof where
  v := 1
  proofId := proofIdFull primitives (propositionToCbor proposition) builder.createdAt
    (builder.events.map (·.id)) (builder.attestations.map (·.id)) (builder.evidence.map (·.id))
    (builder.relationships.map (·.id)) builder.referencedProofs builder.vocabularies
  proposition := proposition
  events := builder.events.map (·.content)
  attestations := builder.attestations.map fun attestation =>
    { content := attestation.content, sign1 := attestation.sign1 }
  evidence := builder.evidence.map (·.content)
  relationships := builder.relationships.map (·.content)
  referencedProofs := builder.referencedProofs
  vocabularies := builder.vocabularies
  createdAt := builder.createdAt

/-- The bytes of an assembled proof; they must parse to that proof. -/
def emit (proof : Proof) (limits : Limits) : Result BuiltProof := do
  let encoded ← proofToCbor proof
  let canonical := encodeCanonical encoded
  if limits.maxProofSize.toNat < canonical.length then limitError "built proof exceeds max_proof_size"
  else
    let value ← decodeAndCheckCanonical canonical limits
    let back ← cborToProof limits value
    if back ≠ proof then schemaError "built proof failed self-check round-trip"
    else .ok { proof, canonical, id := proof.proofId }

def build (builder : ProofBuilder) (limits : Limits) : Result BuiltProof :=
  match builder.proposition with
  | none => schemaError "proof needs a proposition"
  | some proposition =>
    if proposition.v ≠ 1 then onlyVersion1 "proposition"
    else do
      let arranged := builder.arrange
      arranged.checkMembers
      if limits.maxReferencedProofs.toNat < arranged.referencedProofs.length then
        limitError "too many referenced proofs"
      else if limits.maxVocabularies.toNat < arranged.vocabularies.length then limitError "too many vocabularies"
      else
        let proof := arranged.assemble primitives proposition
        if proof.proofId ∈ arranged.referencedProofs then
          .error (ErrorCode.cycleDetected.err "proof cannot reference itself")
        else emit proof limits

end

end ProofBuilder

/-! ## Sequences of additions -/

inductive BuilderCall where
  | addEvent (event : CreatedEvent)
  | addAttestation (attestation : CreatedAttestation)
  | addEvidence (evidence : CreatedEvidence)
  | addRelationship (relationship : CreatedRelationship)
  | addReferencedProof (id : String)
  | addVocabulary (ns : String) (version : UInt64)
  deriving DecidableEq, Repr

namespace BuilderCall

/-- A refused call leaves the builder as it was. -/
def apply (primitives : Primitives) (builder : ProofBuilder) : BuilderCall → ProofBuilder
  | .addEvent event => builder.addEvent event
  | .addAttestation attestation => builder.addAttestation attestation
  | .addEvidence evidence => builder.addEvidence evidence
  | .addRelationship relationship => builder.addRelationship relationship
  | .addReferencedProof id =>
    match builder.addReferencedProof primitives id with
    | .ok builder => builder
    | .error _ => builder
  | .addVocabulary ns version =>
    match builder.addVocabulary ns version with
    | .ok builder => builder
    | .error _ => builder

def event? : BuilderCall → Option CreatedEvent
  | .addEvent event => some event
  | _ => none

def attestation? : BuilderCall → Option CreatedAttestation
  | .addAttestation attestation => some attestation
  | _ => none

def evidence? : BuilderCall → Option CreatedEvidence
  | .addEvidence evidence => some evidence
  | _ => none

def relationship? : BuilderCall → Option CreatedRelationship
  | .addRelationship relationship => some relationship
  | _ => none

def reference? (primitives : Primitives) : BuilderCall → Option String
  | .addReferencedProof id => if (checkProofRefShape primitives id).isOk then some id else none
  | _ => none

def vocabulary? : BuilderCall → Option VocabularyDecl
  | .addVocabulary ns version => if (checkVocabularyNs ns).isOk then some { ns, version } else none
  | _ => none

end BuilderCall

section
variable (primitives : Primitives)

/-- The builder after a sequence of additions. -/
def builderOf (proposition : Proposition) (createdAt : UInt64) (calls : List BuilderCall) : ProofBuilder :=
  calls.foldl (BuilderCall.apply primitives) (ProofBuilder.new proposition createdAt)

/-- A run of additions appends to each list what the calls for it carry. -/
theorem foldl_apply (calls : List BuilderCall) (builder : ProofBuilder) :
    calls.foldl (BuilderCall.apply primitives) builder =
      { builder with
        events := builder.events ++ calls.filterMap BuilderCall.event?
        attestations := builder.attestations ++ calls.filterMap BuilderCall.attestation?
        evidence := builder.evidence ++ calls.filterMap BuilderCall.evidence?
        relationships := builder.relationships ++ calls.filterMap BuilderCall.relationship?
        referencedProofs := builder.referencedProofs ++ calls.filterMap (BuilderCall.reference? primitives)
        vocabularies := builder.vocabularies ++ calls.filterMap BuilderCall.vocabulary? } := by
  induction calls generalizing builder with
  | nil => simp
  | cons call calls inductionHypothesis =>
    rw [List.foldl_cons, inductionHypothesis]
    cases call with
    | addReferencedProof id =>
      cases shape : checkProofRefShape primitives id <;>
        simp [BuilderCall.apply, ProofBuilder.addReferencedProof, shape, List.filterMap_cons, BuilderCall.event?,
          BuilderCall.attestation?, BuilderCall.evidence?, BuilderCall.relationship?, BuilderCall.reference?,
          BuilderCall.vocabulary?, Except.isOk, Except.toBool]
    | addVocabulary ns version =>
      cases shape : checkVocabularyNs ns <;>
        simp [BuilderCall.apply, ProofBuilder.addVocabulary, shape, List.filterMap_cons, BuilderCall.event?,
          BuilderCall.attestation?, BuilderCall.evidence?, BuilderCall.relationship?, BuilderCall.reference?,
          BuilderCall.vocabulary?, Except.isOk, Except.toBool]
    | _ =>
      simp [BuilderCall.apply, ProofBuilder.addEvent, ProofBuilder.addAttestation, ProofBuilder.addEvidence,
        ProofBuilder.addRelationship, List.filterMap_cons, BuilderCall.event?, BuilderCall.attestation?,
        BuilderCall.evidence?, BuilderCall.relationship?, BuilderCall.reference?, BuilderCall.vocabulary?]

theorem builderOf_eq (proposition : Proposition) (createdAt : UInt64) (calls : List BuilderCall) :
    builderOf primitives proposition createdAt calls =
      { proposition := some proposition
        createdAt
        events := calls.filterMap BuilderCall.event?
        attestations := calls.filterMap BuilderCall.attestation?
        evidence := calls.filterMap BuilderCall.evidence?
        relationships := calls.filterMap BuilderCall.relationship?
        referencedProofs := calls.filterMap (BuilderCall.reference? primitives)
        vocabularies := calls.filterMap BuilderCall.vocabulary? } :=
  foldl_apply primitives calls _

end

/-! ## What a built proof satisfies -/

theorem checkDuplicates_eq_ok {what : String} {seen ids : List String} {nothing : Unit} :
    checkDuplicates what seen ids = .ok nothing ↔ ids.Nodup ∧ ∀ id ∈ ids, id ∉ seen := by
  induction ids generalizing seen with
  | nil => simp [checkDuplicates]
  | cons id ids inductionHypothesis =>
    rw [checkDuplicates]
    split
    · rename_i repeated
      simp [schemaError, repeated]
    · rename_i fresh
      rw [inductionHypothesis, List.nodup_cons, List.forall_mem_cons]
      constructor
      · rintro ⟨distinct, later⟩
        have absent : id ∉ ids := fun member => later id member List.mem_cons_self
        exact ⟨⟨absent, distinct⟩, fresh, fun other member => mt (List.mem_cons_of_mem _) (later other member)⟩
      · rintro ⟨⟨absent, distinct⟩, _, later⟩
        refine ⟨distinct, fun other member seenBefore => ?_⟩
        rcases List.mem_cons.mp seenBefore with rfl | seenBefore
        · exact absent member
        · exact later other member seenBefore

/-- No two members of one kind have the same id. -/
structure ProofBuilder.Distinct (builder : ProofBuilder) : Prop where
  events : (builder.events.map (·.id)).Nodup
  attestations : (builder.attestations.map (·.id)).Nodup
  evidence : (builder.evidence.map (·.id)).Nodup
  relationships : (builder.relationships.map (·.id)).Nodup

theorem checkMembers_eq_ok {builder : ProofBuilder} {nothing : Unit}
    (done : builder.checkMembers = .ok nothing) : builder.Distinct := by
  simp only [ProofBuilder.checkMembers, bind_eq_ok, checkDuplicates_eq_ok] at done
  obtain ⟨_, events, _, attestations, _, evidence, relationships⟩ := done
  exact ⟨events.1, attestations.1, evidence.1, relationships.1⟩

section
variable {primitives : Primitives} {limits : Limits} {builder : ProofBuilder} {built : BuiltProof}

/-- An emitted proof reads back from its bytes. -/
theorem emit_eq_ok {proof : Proof} (done : ProofBuilder.emit proof limits = .ok built) :
    built.proof = proof ∧ built.id = proof.proofId ∧
      (decodeStrict built.canonical limits >>= cborToProof limits) = .ok proof := by
  simp only [ProofBuilder.emit, bind_eq_ok, decodeAndCheckCanonical_eq] at done
  obtain ⟨encoded, _, done⟩ := done
  split at done
  · cases done
  · simp only [bind_eq_ok] at done
    obtain ⟨value, decoded, back, parsed, done⟩ := done
    split at done
    · cases done
    · rename_i same
      rw [not_not] at same
      cases done
      exact ⟨rfl, rfl, bind_eq_ok.mpr ⟨value, decoded, same ▸ parsed⟩⟩

theorem build_eq_ok (done : builder.build primitives limits = .ok built) :
    ∃ proposition, builder.proposition = some proposition ∧ builder.arrange.Distinct ∧
      built.proof = builder.arrange.assemble primitives proposition ∧ built.id = built.proof.proofId ∧
      (decodeStrict built.canonical limits >>= cborToProof limits) = .ok built.proof := by
  rw [ProofBuilder.build] at done
  split at done
  · cases done
  · rename_i proposition present
    split at done
    · cases done
    · simp only [bind_eq_ok] at done
      obtain ⟨_, members, done⟩ := done
      split at done
      · cases done
      · split at done
        · cases done
        · split at done
          · cases done
          · obtain ⟨proofIs, idIs, read⟩ := emit_eq_ok done
            rw [← proofIs] at idIs read
            exact ⟨proposition, present, checkMembers_eq_ok members, proofIs, idIs, read⟩

end

end ProofEngine
