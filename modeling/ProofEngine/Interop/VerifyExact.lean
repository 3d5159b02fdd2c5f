import ProofEngine.Interop.Binding
import ProofEngine.Verify.BuilderVerifies

/-! # What acceptance by the second verifier says

A proof the second verifier accepts passes the engine's stages from PARSE to KEYS, with the same id, exactly when its
map states what the second verifier leaves open. -/

namespace ProofEngine.Interop

open StableSort Text CborValue

/-! ## What is left open -/

/-- The lists of a proof are no longer than the engine takes. -/
structure CountsAdmitted (limits : Limits) (entries : Entries) : Prop where
  edges : listed entries "relationships" ≤ limits.maxEdges.toNat
  members : listed entries "events" + listed entries "attestations" + listed entries "evidence" ≤ limits.maxNodes.toNat
  references : listed entries "referenced_proofs" ≤ limits.maxReferencedProofs.toNat
  vocabularies : listed entries "vocabularies" ≤ limits.maxVocabularies.toNat

/-- Bytes within the engine's default limits. -/
structure WithinEngineLimits (raw : Bytes) : Prop where
  size : raw.length ≤ Limits.default.maxProofSize.toNat
  extents : ∀ value, decodeStrict raw unbounded = .ok value → value.Everywhere Limits.default.Admits
  counts : ∀ entries, decodeStrict raw unbounded = .ok (.map entries) → CountsAdmitted Limits.default entries

/-- A list field is an array of maps of which `stated` holds. -/
def EachStated (stated : Entries → Prop) (entries : Entries) (key : String) : Prop :=
  ∃ items, findField entries key = some (.array items) ∧ ∀ item ∈ items, ∃ fields, item = .map fields ∧ stated fields

def ContentOfEntryStated (entries : Entries) : Prop :=
  ∃ content, findField entries "content" = some (.map content) ∧ ContentStated content

def HeaderOfEntryStated (entries : Entries) : Prop :=
  ∃ sign1, findField entries "sign1" = some (.bytes sign1) ∧ HeaderStated sign1

/-- What the engine requires of a proof and the second verifier does not check. -/
structure ProofStated (entries : Entries) : Prop where
  version : findField entries "v" = some (.uint 1)
  createdAt : ∃ n, findField entries "created_at" = some (.uint n)
  proposition : ∃ fields, findField entries "proposition" = some (.map fields) ∧ PropositionStated fields
  events : EachStated EventStated entries "events"
  contents : EachStated ContentOfEntryStated entries "attestations"
  headers : EachStated HeaderOfEntryStated entries "attestations"
  evidence : EachStated EvidenceStated entries "evidence"
  relationships : EachStated RelationshipStated entries "relationships"
  references : ReferencesStated entries
  vocabularies : VocabulariesStated entries

/-! ## An accepted proof -/

/-- `verify` accepted every element of a list field. -/
def EachChecked {α : Type} (verify : Value → Py α) (entries : Entries) (key : String) (results : List α) : Prop :=
  ∃ items, members (toPythonPairs entries) key = .ok items ∧ items.mapM verify = .ok results

/-- What the second verifier has checked of a proof. -/
structure ProofChecked (runtime : Runtime) (entries : Entries) (verified : Verified) : Prop where
  closed : ∀ entry ∈ entries, ∃ key ∈ ProofEngine.proofFields, entry.1 = .text key
  propositionClosed : ∀ fields, findField entries "proposition" = some (.map fields) →
    ∀ entry ∈ fields, ∃ key ∈ propositionFields, entry.1 = .text key
  createdAt : get (toPythonPairs entries) "created_at" = .int verified.createdAt
  events : EachChecked (verifyEvent runtime) entries "events" verified.eventIds
  attestations : ∃ attested, EachChecked (verifyAttestation runtime) entries "attestations" attested ∧
    verified.attestationIds = attested.map Prod.fst
  evidence : EachChecked (verifyEvidence runtime) entries "evidence" verified.evidenceIds
  relationships : EachChecked (verifyRelationship runtime) entries "relationships" verified.relationshipIds
  references : referencedProofs (get (toPythonPairs entries) "referenced_proofs") = .ok verified.referencedProofs
  bound : ∃ proposition declared bound, findField entries "proposition" = some proposition ∧
    vocabularies (get (toPythonPairs entries) "vocabularies") = .ok declared ∧
    encAny (.map (binding (toPython proposition) verified.createdAt verified.eventIds verified.attestationIds
      verified.evidenceIds verified.relationshipIds verified.referencedProofs declared)) = .ok bound ∧
    verified.proofId = objId runtime "prf" bound
  proofId : findField entries "proof_id" = some (.text verified.proofId)

section
variable {runtime : Runtime} {raw : Bytes} {verified : Verified} {entries : Entries}

theorem get_eq_str (unique : UniqueKeys entries) {key s : String}
    (is : isStr s (get (toPythonPairs entries) key) = true) : findField entries key = some (.text s) := by
  obtain ⟨_, absent⟩ | ⟨value, found, present⟩ := get_cases unique key
  · rw [absent] at is
    cases is
  · rw [present, isStr_toPython, isKey_iff] at is
    rw [found, is]

theorem verifyProof_eq_ok (done : verifyProof runtime raw = .ok verified) :
    ∃ entries, raw = encodeCanonical (.map entries) ∧ Readable (.map entries) ∧
      ProofChecked runtime entries verified := by
  simp only [verifyProof, bind_eq_ok, ensure_eq_ok] at done
  obtain ⟨outer, accepted, d, closedDone, done⟩ := done
  obtain ⟨value, rfl, written, readable⟩ := checkCanonical_readable accepted
  obtain ⟨entries, rfl, rfl, closed⟩ := closed_eq_ok.mp closedDone
  obtain ⟨_, _, _, propositionDone, _, propositionClosed, created, createdDone, events, eventsDone, eventIds,
    eventsChecked, attestations, attestationsDone, attested, attestationsChecked, evidence, evidenceDone, evidenceIds,
    evidenceChecked, relationships, relationshipsDone, relationshipIds, relationshipsChecked, refs, refsDone, declared,
    declaredDone, bound, boundDone, _, idIs, done⟩ := done
  cases done
  obtain ⟨proposition, propositionFound, rfl⟩ := req_eq_ok.mp propositionDone
  have unique := readable.ascending.uniqueKeys
  refine ⟨entries, written, readable, closed_of_subset (by decide) closed, ?_, asInt_eq_ok.mp createdDone,
    ⟨events, eventsDone, eventsChecked⟩, ⟨attested, ⟨attestations, attestationsDone, attestationsChecked⟩, rfl⟩,
    ⟨evidence, evidenceDone, evidenceChecked⟩, ⟨relationships, relationshipsDone, relationshipsChecked⟩, refsDone,
    ⟨proposition, declared, bound, propositionFound, declaredDone, boundDone, rfl⟩, get_eq_str unique idIs⟩
  intro fields found
  cases propositionFound.symm.trans found
  obtain ⟨others, same, _, known⟩ := closed_eq_ok.mp propositionClosed
  cases same
  exact closed_of_subset (by decide) known

end

/-! ## Members -/

section
variable {entries : Entries} {key : String}

theorem EachChecked.of_array {α : Type} {verify : Value → Py α} {results : List α}
    (checked : EachChecked verify entries key results) {items : List CborValue}
    (found : findField entries key = some (.array items)) :
    (items.mapM fun item => verify (toPython item)) = .ok results := by
  obtain ⟨others, membersDone, done⟩ := checked
  have required : req (toPythonPairs entries) key = .ok (toPython (.array items)) := req_eq_ok.mpr ⟨_, found, rfl⟩
  rw [members, required, ok_bind] at membersDone
  cases membersDone
  rw [toPythonItems_eq, mapM_eq_ok, List.forall₂_map_left_iff] at done
  exact mapM_eq_ok.mpr done

theorem exists_mapM {α β : Type} {parse : α → Result β} {items : List α}
    (each : ∀ item ∈ items, ∃ member, parse item = .ok member) : ∃ members, items.mapM parse = .ok members := by
  induction items with
  | nil => exact ⟨[], rfl⟩
  | cons item items inductionHypothesis =>
    obtain ⟨⟨member, here⟩, rest⟩ := List.forall_mem_cons.mp each
    obtain ⟨members, restDone⟩ := inductionHypothesis rest
    refine ⟨member :: members, ?_⟩
    rw [List.mapM_cons, here, ok_bind, restDone]
    rfl

/-- A list of accepted members parses exactly when the members are stated. -/
theorem eachStated_iff {α β : Type} {verify : Value → Py α} {results : List α} {parse : CborValue → Result β}
    {stated : Entries → Prop} (readable : Readable (.map entries)) (canonical : Canonical Limits.default (.map entries))
    (checked : EachChecked verify entries key results)
    (single : ∀ item result, Readable item → Canonical Limits.default item → verify (toPython item) = .ok result →
      ((∃ member, parse item = .ok member) ↔ ∃ fields, item = .map fields ∧ stated fields)) :
    EachStated stated entries key ↔
      ∃ items members, findField entries key = some (.array items) ∧ items.mapM parse = .ok members := by
  have each : ∀ items, findField entries key = some (.array items) → ∀ item ∈ items,
      ((∃ member, parse item = .ok member) ↔ ∃ fields, item = .map fields ∧ stated fields) := by
    intro items found item member
    obtain ⟨result, _, done⟩ := exists_result_of_mem (checked.of_array found) member
    exact single item result ((readable.field found).item member)
      ((everywhere_array.mp (canonical.findField found)).2 item member) done
  constructor
  · rintro ⟨items, found, stated⟩
    obtain ⟨members, done⟩ := exists_mapM fun item member => (each items found item member).mpr (stated item member)
    exact ⟨items, members, found, done⟩
  · rintro ⟨items, members, found, done⟩
    refine ⟨items, found, fun item member => (each items found item member).mp ?_⟩
    obtain ⟨result, _, here⟩ := exists_result_of_mem done member
    exact ⟨result, here⟩

theorem exists_fields_iff {fields : Entries} {stated : Entries → Prop} :
    (∃ others, CborValue.map fields = .map others ∧ stated others) ↔ stated fields := by
  simp

variable {runtime : Runtime} {item : CborValue} {id : String}

theorem event_single (readable : Readable item) (canonical : Canonical Limits.default item)
    (done : verifyEvent runtime (toPython item) = .ok id) :
    (∃ event, cborToEvent Limits.default item = .ok event) ↔ ∃ fields, item = .map fields ∧ EventStated fields := by
  obtain ⟨fields, rfl, checked, _⟩ := verifyEvent_eq_ok readable done
  rw [exists_fields_iff]
  exact cborToEvent_iff checked canonical

theorem evidence_single (readable : Readable item) (canonical : Canonical Limits.default item)
    (done : verifyEvidence runtime (toPython item) = .ok id) :
    (∃ evidence, cborToEvidence Limits.default item = .ok evidence) ↔
      ∃ fields, item = .map fields ∧ EvidenceStated fields := by
  obtain ⟨fields, rfl, checked, _⟩ := verifyEvidence_eq_ok readable done
  rw [exists_fields_iff]
  exact cborToEvidence_iff checked canonical

theorem relationship_single (readable : Readable item) (canonical : Canonical Limits.default item)
    (done : verifyRelationship runtime (toPython item) = .ok id) :
    (∃ relationship, cborToRelationship Limits.default item = .ok relationship) ↔
      ∃ fields, item = .map fields ∧ RelationshipStated fields := by
  obtain ⟨fields, rfl, checked, _⟩ := verifyRelationship_eq_ok readable done
  rw [exists_fields_iff]
  exact cborToRelationship_iff checked canonical

theorem attestation_single {result : String × Value} (readable : Readable item)
    (canonical : Canonical Limits.default item) (done : verifyAttestation runtime (toPython item) = .ok result) :
    (∃ stored, cborToAttestationEntry Limits.default item = .ok stored) ↔
      ∃ fields, item = .map fields ∧ ContentOfEntryStated fields := by
  obtain ⟨fields, content, rfl, checked, _⟩ := verifyAttestation_eq_ok readable done
  rw [exists_fields_iff, cborToAttestationEntry_iff checked canonical]
  simp [ContentOfEntryStated, checked.contentFound]

end

/-! ## Parsing -/

section
variable {runtime : Runtime} {primitives : Primitives} {verified : Verified} {entries : Entries}

theorem objId_eq (relation : SameRelation runtime primitives) (kind : String) (canonical : Bytes) :
    objId runtime kind canonical = idWith primitives kind canonical := by
  rw [objId, idWith, relation.sha256]
  rfl

theorem idWith_bounded {kind : String} (short : len kind ≤ 3) (canonical : Bytes) :
    BoundedText (idWith primitives kind canonical) := by
  have body := Base64Url.len_encode_le (primitives.sha256 canonical).1
  have colons : len ":v1:" = 4 := by decide +kernel
  have whole : len (idWith primitives kind canonical) =
      len kind + len ":v1:" + len (b64uNopad (primitives.sha256 canonical).1) := by
    rw [idWith, len_append, len_append]
  rw [(primitives.sha256 canonical).2] at body
  rw [colons, b64uNopad] at whole
  refine ⟨?_, by omega⟩
  rw [Bool.eq_false_iff]
  intro empty
  rw [String.isEmpty_iff.mp empty] at whole
  have hollow : len "" = 0 := by decide +kernel
  omega

theorem listed_eq {key : String} {items : List CborValue} (found : findField entries key = some (.array items)) :
    listed entries key = items.length := by
  simp [listed, found]

/-- An accepted proof is parsed exactly when what is open in it is stated. -/
theorem cborToProof_iff (relation : SameRelation runtime primitives) (readable : Readable (.map entries))
    (canonical : Canonical Limits.default (.map entries)) (counts : CountsAdmitted Limits.default entries)
    (checked : ProofChecked runtime entries verified) :
    ProofStated entries ↔ (∃ proof, cborToProof Limits.default (.map entries) = .ok proof) ∧
      EachStated HeaderOfEntryStated entries "attestations" := by
  have unique := readable.ascending.uniqueKeys
  obtain ⟨attested, attestedChecked, _⟩ := checked.attestations
  obtain ⟨_, declared, bound, _, declaredDone, _, idIs⟩ := checked.bound
  have events := eachStated_iff readable canonical checked.events fun _ _ => event_single
  have contents := eachStated_iff readable canonical attestedChecked fun _ _ => attestation_single
  have evidence := eachStated_iff readable canonical checked.evidence fun _ _ => evidence_single
  have relationships := eachStated_iff readable canonical checked.relationships fun _ _ => relationship_single
  constructor
  · intro stated
    obtain ⟨createdAt, createdFound⟩ := stated.createdAt
    obtain ⟨fields, propositionFound, propositionStated⟩ := stated.proposition
    obtain ⟨proposition, propositionDone⟩ := (cborToProposition_iff (checked.propositionClosed fields propositionFound)
      (canonical.findField propositionFound)).mpr propositionStated
    obtain ⟨eventItems, parsedEvents, eventsFound, eventsDone⟩ := events.mp stated.events
    obtain ⟨entryItems, stored, storedFound, storedDone⟩ := contents.mp stated.contents
    obtain ⟨evidenceItems, parsedEvidence, evidenceFound, evidenceDone⟩ := evidence.mp stated.evidence
    obtain ⟨edgeItems, edges, edgesFound, edgesDone⟩ := relationships.mp stated.relationships
    obtain ⟨decls, declsDone, _⟩ :=
      cborToVocabularies_of_stated readable counts.vocabularies declaredDone stated.vocabularies
    have references := cborToReferencedProofs_of_stated unique counts.references checked.references stated.references
    have edgeCount := counts.edges
    have memberCount := counts.members
    rw [listed_eq edgesFound, (mapM_eq_ok.mp edgesDone).length_eq] at edgeCount
    rw [listed_eq eventsFound, listed_eq storedFound, listed_eq evidenceFound, (mapM_eq_ok.mp eventsDone).length_eq,
      (mapM_eq_ok.mp storedDone).length_eq, (mapM_eq_ok.mp evidenceDone).length_eq] at memberCount
    rw [objId_eq relation] at idIs
    have lead : startsWith verified.proofId "prf:v1:" = true := by
      rw [idIs, idWith]
      exact startsWith_append _ _
    refine ⟨⟨⟨1, verified.proofId, proposition, parsedEvents, stored, parsedEvidence, edges, verified.referencedProofs,
      decls, createdAt⟩, cborToProof_of_entries rfl ?_ ?_ lead edgeCount memberCount⟩, stated.headers⟩
    · exact ⟨checked.closed, stated.version, checked.proofId, createdFound, ⟨_, propositionFound, propositionDone⟩,
        ⟨_, eventsFound, eventsDone⟩, ⟨_, storedFound, storedDone⟩, ⟨_, evidenceFound, evidenceDone⟩,
        ⟨_, edgesFound, edgesDone⟩, references, declsDone⟩
    · rw [idIs]
      exact idWith_bounded (by decide +kernel) _
  · rintro ⟨⟨proof, parsed⟩, headers⟩
    obtain ⟨_, others, same, parts⟩ := cborToProof_entries parsed
    cases same
    obtain ⟨proposition, propositionFound, propositionDone⟩ := parts.proposition
    obtain ⟨fields, rfl, _⟩ := cborToProposition_eq_ok.mp propositionDone
    obtain ⟨eventItems, eventsFound, eventsDone⟩ := parts.events
    obtain ⟨entryItems, storedFound, storedDone⟩ := parts.attestations
    obtain ⟨evidenceItems, evidenceFound, evidenceDone⟩ := parts.evidence
    obtain ⟨edgeItems, edgesFound, edgesDone⟩ := parts.relationships
    have propositionStated := (cborToProposition_iff (checked.propositionClosed fields propositionFound)
      (canonical.findField propositionFound)).mp ⟨_, propositionDone⟩
    exact ⟨parts.version, ⟨_, parts.createdAt⟩, ⟨fields, propositionFound, propositionStated⟩,
      events.mpr ⟨_, _, eventsFound, eventsDone⟩, contents.mpr ⟨_, _, storedFound, storedDone⟩, headers,
      evidence.mpr ⟨_, _, evidenceFound, evidenceDone⟩, relationships.mpr ⟨_, _, edgesFound, edgesDone⟩,
      referencesStated_of_ok parts.references, vocabulariesStated_of_ok parts.vocabularies⟩

end

/-! ## One proof id -/

section
variable {runtime : Runtime} {primitives : Primitives} {verified : Verified} {entries : Entries} {proof : Proof}

theorem ids_agree {α β : Type} {verify : Value → Py α} {name : α → String} {parse : CborValue → Result β}
    {memberId : β → String} {items : List CborValue} {results : List α} {members : List β}
    (checked : (items.mapM fun item => verify (toPython item)) = .ok results) (parsed : items.mapM parse = .ok members)
    (single : ∀ item ∈ items, ∀ result member, verify (toPython item) = .ok result → parse item = .ok member →
      name result = memberId member) : results.map name = members.map memberId := by
  induction items generalizing results members with
  | nil =>
    cases checked
    cases parsed
    rfl
  | cons item items inductionHypothesis =>
    simp only [List.mapM_cons, bind_eq_ok] at checked parsed
    obtain ⟨result, checkedHere, results, checkedRest, checked⟩ := checked
    obtain ⟨member, parsedHere, members, parsedRest, parsed⟩ := parsed
    cases checked
    cases parsed
    obtain ⟨here, rest⟩ := List.forall_mem_cons.mp single
    rw [List.map_cons, List.map_cons, here result member checkedHere parsedHere,
      inductionHypothesis checkedRest parsedRest rest]

theorem encodeCanonical_of_sortMaps {value other : CborValue} (same : other.sortMaps = value) :
    encodeCanonical value = encodeCanonical other := by
  rw [← same]
  exact encodeValue_sortMaps other

/-- Members named by their own bytes have the same ids on both sides. -/
theorem memberIds_agree {α : Type} {verify : Value → Py String} {parse : CborValue → Result α} {encode : α → CborValue}
    {key kind : String} {ids : List String} {items : List CborValue} {members : List α}
    (relation : SameRelation runtime primitives) (readable : Readable (.map entries))
    (canonical : Canonical Limits.default (.map entries)) (checked : EachChecked verify entries key ids)
    (found : findField entries key = some (.array items)) (parsed : items.mapM parse = .ok members)
    (named : ∀ item id, Readable item → verify (toPython item) = .ok id →
      id = objId runtime kind (encodeCanonical item))
    (written : ∀ item member, Canonical Limits.default item → parse item = .ok member →
      (encode member).sortMaps = item) :
    ids = members.map fun member => idWith primitives kind (encodeCanonical (encode member)) := by
  rw [← List.map_id ids]
  refine ids_agree (checked.of_array found) parsed fun item inside name member here itemParsed => ?_
  have itemCanonical := (everywhere_array.mp (canonical.findField found)).2 item inside
  rw [id, named item name ((readable.field found).item inside) here, objId_eq relation,
    encodeCanonical_of_sortMaps (written item member itemCanonical itemParsed)]

theorem attestationIds_agree (relation : SameRelation runtime primitives) (readable : Readable (.map entries))
    (canonical : Canonical Limits.default (.map entries)) (checked : ProofChecked runtime entries verified)
    (parts : ProofEntries Limits.default entries proof) :
    verified.attestationIds = proof.attestations.map fun stored => attestationMemberId primitives stored.content := by
  obtain ⟨attested, attestedChecked, idsAre⟩ := checked.attestations
  obtain ⟨items, found, parsed⟩ := parts.attestations
  rw [idsAre]
  refine ids_agree (attestedChecked.of_array found) parsed fun item member result stored here itemParsed => ?_
  obtain ⟨fields, content, rfl, entryChecked, idIs⟩ := verifyAttestation_eq_ok ((readable.field found).item member) here
  obtain ⟨_, _, same, contentFound, contentDone⟩ := cborToAttestationEntry_content itemParsed
  cases same
  cases entryChecked.contentFound.symm.trans contentFound
  have itemCanonical := (everywhere_array.mp (canonical.findField found)).2 _ member
  have contentCanonical := Canonical.findField itemCanonical entryChecked.contentFound
  rw [idIs, objId_eq relation, encodeCanonical_of_sortMaps (cborToAttestation_canonical contentCanonical contentDone)]
  rfl

/-- The engine recomputes the id the second verifier found. -/
theorem recomputedProofId_agrees (relation : SameRelation runtime primitives) (readable : Readable (.map entries))
    (canonical : Canonical Limits.default (.map entries)) (counts : CountsAdmitted Limits.default entries)
    (checked : ProofChecked runtime entries verified)
    (parsed : cborToProof Limits.default (.map entries) = .ok proof) :
    recomputedProofId primitives proof = .ok verified.proofId ∧ proof.proofId = verified.proofId := by
  obtain ⟨_, others, same, parts⟩ := cborToProof_entries parsed
  cases same
  have unique := readable.ascending.uniqueKeys
  obtain ⟨proposition, declared, bound, propositionFound, declaredDone, boundDone, idIs⟩ := checked.bound
  obtain ⟨_, found, propositionDone⟩ := parts.proposition
  cases propositionFound.symm.trans found
  have created : verified.createdAt = proof.createdAt.toNat := by
    have present := checked.createdAt
    rw [get_toPythonPairs unique, parts.createdAt] at present
    exact (Value.int.inj present).symm
  have references : verified.referencedProofs = proof.referencedProofs := Except.ok.inj
    ((cborToReferencedProofs_of_stated unique counts.references checked.references
      (referencesStated_of_ok parts.references)).symm.trans parts.references)
  obtain ⟨decls, declsDone, rfl⟩ := cborToVocabularies_of_stated readable counts.vocabularies declaredDone
    (vocabulariesStated_of_ok parts.vocabularies)
  cases declsDone.symm.trans parts.vocabularies
  have bounded := cborToProof_bounded canonical.addressable parsed
  have propositionSame := cborToProposition_canonical (canonical.findField propositionFound) propositionDone
  have events : verified.eventIds = proof.events.map fun event =>
      eventId primitives (encodeCanonical (eventRecord event)) := by
    obtain ⟨items, found, done⟩ := parts.events
    refine memberIds_agree relation readable canonical checked.events found done (fun item id here accepted => ?_)
      fun _ _ => cborToEvent_canonical
    obtain ⟨_, _, _, idIs⟩ := verifyEvent_eq_ok here accepted
    exact idIs
  have evidence : verified.evidenceIds = proof.evidence.map (evidenceMemberId primitives) := by
    obtain ⟨items, found, done⟩ := parts.evidence
    refine memberIds_agree relation readable canonical checked.evidence found done (fun item id here accepted => ?_)
      fun _ _ => cborToEvidence_canonical
    obtain ⟨_, _, _, idIs⟩ := verifyEvidence_eq_ok here accepted
    exact idIs
  have relationships : verified.relationshipIds = proof.relationships.map (relationshipMemberId primitives) := by
    obtain ⟨items, found, done⟩ := parts.relationships
    refine memberIds_agree relation readable canonical checked.relationships found done
      (fun item id here accepted => ?_) fun _ _ => cborToRelationship_canonical
    obtain ⟨_, _, _, idIs⟩ := verifyRelationship_eq_ok here accepted
    exact idIs
  rw [events, attestationIds_agree relation readable canonical checked parts, evidence, relationships, created,
    references, encAny_binding bounded (readable.field propositionFound) propositionSame] at boundDone
  cases boundDone
  refine ⟨?_, CborValue.text.inj (Option.some.inj (parts.proofId.symm.trans checked.proofId))⟩
  rw [recomputedProofId_eq primitives (cborToProof_versions parsed), idIs, objId_eq relation]
  rfl

end

/-! ## Signatures -/

section
variable {runtime : Runtime} {primitives : Primitives} {ctx : VerifyCtx} {verified : Verified} {entries : Entries}
  {proof : Proof}

theorem verifyEntries_ok_iff {stored : List (StoredAttestation × String)} :
    (∀ check ∈ (verifyEntries primitives ctx stored).1, check.ok = true) ↔
      ∀ entry ∈ stored, ∃ alg, verifyEntry primitives ctx entry.1 entry.2 = .ok alg := by
  refine ⟨fun clean => ?_, verifyEntries_ok⟩
  induction stored with
  | nil => simp
  | cons entry stored inductionHypothesis =>
    cases here : verifyEntry primitives ctx entry.1 entry.2 with
    | error failed =>
      -- a failed entry would leave a failed check
      simp only [verifyEntries, here, List.forall_mem_cons] at clean
      rw [(verifyEntry_eq_error here).2] at clean
      cases clean.1
    | ok alg =>
      simp only [verifyEntries, here, List.forall_mem_cons] at clean
      exact List.forall_mem_cons.mpr ⟨⟨alg, here⟩, inductionHypothesis clean.2.2⟩

theorem signatureChecks_ok_iff :
    (∀ check ∈ signatureChecks primitives ctx proof, check.ok = true) ↔ ∀ stored ∈ proof.attestations,
      ∃ alg, verifyEntry primitives ctx stored (attestationMemberId primitives stored.content) = .ok alg := by
  have note : ∀ check ∈ (if proof.attestations.isEmpty then
      [CheckRecord.note .signatures ("proof:" ++ proof.proofId)
        "no attestations present (policy decides whether that suffices)"] else []), check.ok = true := by
    intro check member
    split at member
    · rw [List.mem_singleton.mp member]
      rfl
    · cases member
  rw [signatureChecks, List.forall_mem_append, and_iff_left note, verifyEntries_ok_iff, proofEntries_eq,
    List.forall_mem_map]

/-- The engine verifies an accepted attestation exactly when its header is stated. -/
theorem verifyEntry_single {item : CborValue} {result : String × Value} {stored : StoredAttestation}
    (relation : SameRelation runtime primitives) (limits : ctx.limits = Limits.default)
    (ed25519 : ctx.allowedAlgs.ed25519 = true) (esp256 : ctx.allowedAlgs.esp256 = true) (readable : Readable item)
    (canonical : Canonical Limits.default item) (done : verifyAttestation runtime (toPython item) = .ok result)
    (parsed : cborToAttestationEntry Limits.default item = .ok stored) :
    (∃ alg, verifyEntry primitives ctx stored (attestationMemberId primitives stored.content) = .ok alg) ↔
      ∃ fields, item = .map fields ∧ HeaderOfEntryStated fields := by
  obtain ⟨fields, content, rfl, checked, _⟩ := verifyAttestation_eq_ok readable done
  obtain ⟨sign1, issuer, parts, sign1Found, issuerFound, signature⟩ := checked.envelope
  obtain ⟨_, _, same, contentFound, contentDone⟩ := cborToAttestationEntry_content parsed
  cases same
  cases checked.contentFound.symm.trans contentFound
  have contentCanonical := Canonical.findField canonical contentFound
  -- the parsed entry has the envelope and the issuer that were checked
  have storedFound := findField_sortMaps_record ["content", "sign1"]
    (cborToAttestationEntry_canonical canonical parsed) rfl (by decide) ("sign1", .bytes stored.sign1) (by simp)
  have sign1Is : sign1 = stored.sign1 := CborValue.bytes.inj (Option.some.inj (sign1Found.symm.trans storedFound))
  obtain ⟨_, same, _, _, _, found, _⟩ := cborToAttestation_eq_ok.mp contentDone
  cases same
  have issuerIs : issuer = stored.content.issuer := CborValue.text.inj (Option.some.inj (issuerFound.symm.trans found))
  subst sign1Is issuerIs
  have written : encodeCanonical (.map content) = encodeCanonical (attestationToCbor stored.content) :=
    encodeCanonical_of_sortMaps (cborToAttestation_canonical contentCanonical contentDone)
  have named : attestationId primitives (encodeCanonical (.map content)) =
      attestationMemberId primitives stored.content := by
    rw [written]
    rfl
  -- the payload is shorter than the envelope around it
  have small : stored.sign1.length ≤ Limits.default.maxFieldSize.toNat :=
    (Canonical.findField canonical sign1Found).self.admitted
  have fieldLeProof : Limits.default.maxFieldSize.toNat ≤ Limits.default.maxProofSize.toNat := by decide
  have lengths := length_sign1Bytes_ge parts.protectedRaw (encodeCanonical (.map content)) parts.signature
  rw [sign1Bytes, ← EnvelopeParts.value, ← signature.envelope] at lengths
  have decoded : decodeStrict (encodeCanonical (.map content)) Limits.default = .ok (.map content) :=
    decodeStrict_encodeCanonical contentCanonical (readable.field contentFound).depth (by omega)
  have read : (decodeStrict (encodeCanonical (.map content)) Limits.default >>= cborToAttestation Limits.default) =
      .ok stored.content := by
    rw [decoded, ok_bind, contentDone]
  rw [exists_fields_iff, signature.verifyEntry_iff relation limits ed25519 esp256 read named]
  simp [HeaderOfEntryStated, sign1Found]

theorem signatureChecks_iff (relation : SameRelation runtime primitives) (limits : ctx.limits = Limits.default)
    (ed25519 : ctx.allowedAlgs.ed25519 = true) (esp256 : ctx.allowedAlgs.esp256 = true)
    (readable : Readable (.map entries)) (canonical : Canonical Limits.default (.map entries))
    (checked : ProofChecked runtime entries verified) (parts : ProofEntries Limits.default entries proof) :
    (∀ check ∈ signatureChecks primitives ctx proof, check.ok = true) ↔
      EachStated HeaderOfEntryStated entries "attestations" := by
  obtain ⟨attested, attestedChecked, _⟩ := checked.attestations
  obtain ⟨items, found, parsed⟩ := parts.attestations
  have single : ∀ item ∈ items, ∀ stored, cborToAttestationEntry Limits.default item = .ok stored →
      ((∃ alg, verifyEntry primitives ctx stored (attestationMemberId primitives stored.content) = .ok alg) ↔
        ∃ fields, item = .map fields ∧ HeaderOfEntryStated fields) := by
    intro item member stored itemParsed
    obtain ⟨result, _, done⟩ := exists_result_of_mem (attestedChecked.of_array found) member
    exact verifyEntry_single relation limits ed25519 esp256 ((readable.field found).item member)
      ((everywhere_array.mp (canonical.findField found)).2 item member) done itemParsed
  rw [signatureChecks_ok_iff]
  constructor
  · intro clean
    refine ⟨items, found, fun item member => ?_⟩
    obtain ⟨stored, storedMember, itemParsed⟩ := exists_result_of_mem parsed member
    exact (single item member stored itemParsed).mp (clean stored storedMember)
  · rintro ⟨others, otherFound, stated⟩ stored storedMember
    cases found.symm.trans otherFound
    obtain ⟨item, member, itemParsed⟩ := exists_of_mem_mapM parsed storedMember
    exact (single item member stored itemParsed).mpr (stated item member)

end

/-! ## The two verifiers -/

section
variable {runtime : Runtime} {primitives : Primitives} {raw : Bytes} {verified : Verified}

/-- Bytes within the limits that the second verifier takes are decoded by the engine. -/
theorem decodeStrict_of_accepted (within : WithinEngineLimits raw) {entries : Entries}
    (written : raw = encodeCanonical (.map entries)) (readable : Readable (.map entries)) :
    decodeStrict raw Limits.default = .ok (.map entries) ∧ CountsAdmitted Limits.default entries := by
  have decoded : decodeStrict raw unbounded = .ok (.map entries) :=
    decodeStrict_eq_ok.mpr ⟨written, readable.canonical, readable.depth, within.size⟩
  have admitted := within.extents _ decoded
  refine ⟨decodeStrict_eq_ok.mpr ⟨written, fun part inside => ?_, readable.depth, within.size⟩,
    within.counts entries decoded⟩
  have here := readable.canonical part inside
  exact ⟨here.ordered, here.distinct, here.negative, admitted part inside⟩

/-- On a proof the second verifier accepts, the engine reports the same id and no failed check from PARSE to KEYS
    exactly when the proof states what the second verifier leaves open. -/
theorem verifiers_agree_iff (runtime : Runtime) (primitives : Primitives) (relation : SameRelation runtime primitives)
    (order : HashOrder) (ctx : VerifyCtx) (limits : ctx.limits = Limits.default)
    (ed25519 : ctx.allowedAlgs.ed25519 = true) (esp256 : ctx.allowedAlgs.esp256 = true) (proper : ¬ Misused ctx)
    (raw : Bytes) (within : WithinEngineLimits raw) (verified : Verified)
    (accepted : verifyProof runtime raw = .ok verified) :
    (∃ report, ProofEngine.verifyProof primitives order ctx raw = .ok report ∧
        report.proofId = some verified.proofId ∧ NoFailure report.checks cryptoStages) ↔
      ∃ entries, decodeStrict raw Limits.default = .ok (.map entries) ∧ ProofStated entries := by
  obtain ⟨entries, written, readable, checked⟩ := verifyProof_eq_ok accepted
  obtain ⟨decoded, counts⟩ := decodeStrict_of_accepted within written readable
  have canonical := (decodeStrict_sound decoded).2
  have verdict : ∀ report : VerifyReport, ∀ proof value eventIds recomputed graph,
      StagesRan primitives order ctx raw value proof eventIds recomputed graph report →
      (NoFailure report.checks cryptoStages ↔
        recomputed = proof.proofId ∧ ∀ check ∈ signatureChecks primitives ctx proof, check.ok = true) := by
    intro report proof value eventIds recomputed graph stages
    rw [← stages.cryptoValid_iff, stages.reported]
    exact stageValid_eq_valid.symm
  constructor
  · rintro ⟨report, done, reported, clean⟩
    refine ⟨entries, decoded, ?_⟩
    cases verifyProof_ran done with
    | unparsed failed => cases reported
    | misshapen otherDecoded failed => cases reported  -- a report without a proof names no id
    | completed stages =>
      have same := Except.ok.inj (stages.decoded.symm.trans (limits ▸ decoded))
      have parsed := stages.parsed
      rw [limits, same] at parsed
      obtain ⟨_, others, same, parts⟩ := cborToProof_entries parsed
      cases same
      have signatures := ((verdict _ _ _ _ _ _ stages).mp clean).2
      exact (cborToProof_iff relation readable canonical counts checked).mpr ⟨⟨_, parsed⟩,
        (signatureChecks_iff relation limits ed25519 esp256 readable canonical checked parts).mp signatures⟩
  · rintro ⟨others, otherDecoded, stated⟩
    cases decoded.symm.trans otherDecoded
    obtain ⟨⟨proof, parsed⟩, headers⟩ :=
      (cborToProof_iff relation readable canonical counts checked).mp stated
    obtain ⟨_, others, same, parts⟩ := cborToProof_entries parsed
    cases same
    obtain ⟨report, done⟩ := verifyProof_of_inputs primitives order raw
      ((checkInputs_cases ctx).resolve_right fun misused => proper misused.1).2
    have read : (decodeStrict raw ctx.limits >>= cborToProof ctx.limits) = .ok proof := by
      rw [limits, decoded, ok_bind, parsed]
    obtain ⟨_, _, _, _, stages⟩ := stagesRan_of_read read done
    obtain ⟨named, idIs⟩ := recomputedProofId_agrees relation readable canonical counts checked parsed
    have recomputed := Except.ok.inj (stages.named.symm.trans named)
    refine ⟨report, done, ?_, (verdict _ _ _ _ _ _ stages).mpr ⟨recomputed.trans idIs.symm,
      (signatureChecks_iff relation limits ed25519 esp256 readable canonical checked parts).mpr headers⟩⟩
    rw [stages.reported, ← idIs]
    rfl

end

/-! ## A proof on which they agree and one on which they do not -/

/-- A runtime that decides as the given primitives do. -/
def runtimeOf (primitives : Primitives) : Runtime where
  sha256 data := (primitives.sha256 data).1
  edVerify key message signature := key.length = 32 ∧ signature.length = 64 ∧
    primitives.ed25519KeyError key = none ∧ primitives.ed25519Verify key message signature = true
  p256Verify key message signature := key.length = 64 ∧ signature.length = 64 ∧
    primitives.p256PointError (0x04 :: key) = none ∧ primitives.p256KeyError (0x04 :: key) = none ∧
    primitives.p256SignatureError signature = none ∧ primitives.p256Verify key message signature = true
  repr _ := ""
  display _ := ""

theorem sameRelation_runtimeOf (primitives : Primitives) : SameRelation (runtimeOf primitives) primitives :=
  ⟨fun _ => rfl, fun _ _ _ => decide_eq_true_iff, fun _ _ _ => decide_eq_true_iff⟩

/-- The default context with both schemes. -/
def bothSchemes : VerifyCtx :=
  { VerifyCtx.default with allowedAlgs := { AllowedAlgs.strict with esp256 := true } }

theorem bothSchemes_proper : ¬ Misused bothSchemes := by
  rcases checkInputs_cases bothSchemes with ⟨proper, _⟩ | ⟨_, failure, failed⟩
  · exact proper
  · cases failed

theorem WithinEngineLimits.of_decoded {raw : Bytes} {entries : Entries}
    (decoded : decodeStrict raw unbounded = .ok (.map entries)) (size : raw.length ≤ Limits.default.maxProofSize.toNat)
    (extents : (CborValue.map entries).Everywhere Limits.default.Admits)
    (counts : CountsAdmitted Limits.default entries) : WithinEngineLimits raw := by
  refine ⟨size, fun value here => ?_, fun others here => ?_⟩
  · cases decoded.symm.trans here
    exact extents
  · cases decoded.symm.trans here
    exact counts

/-- The map of the proof with one signed statement. -/
def signedEntries : Entries :=
  match decodeStrict signedProofBytes unbounded with
  | .ok (.map entries) => entries
  | _ => []

theorem signedProof_within : WithinEngineLimits signedProofBytes := by
  have decoded : decodeStrict signedProofBytes unbounded = .ok (.map signedEntries) := by decide +kernel
  -- one evaluation for all bounds, so that the bytes are decoded once
  have bounds : signedProofBytes.length ≤ Limits.default.maxProofSize.toNat ∧
      (CborValue.map signedEntries).Everywhere Limits.default.Admits ∧
      listed signedEntries "relationships" ≤ Limits.default.maxEdges.toNat ∧
      listed signedEntries "events" + listed signedEntries "attestations" + listed signedEntries "evidence" ≤
        Limits.default.maxNodes.toNat ∧
      listed signedEntries "referenced_proofs" ≤ Limits.default.maxReferencedProofs.toNat ∧
      listed signedEntries "vocabularies" ≤ Limits.default.maxVocabularies.toNat := by decide +kernel
  obtain ⟨size, extents, edges, members, references, vocabularies⟩ := bounds
  exact .of_decoded decoded size extents ⟨edges, members, references, vocabularies⟩

theorem signedProof_verifiers_agree :
    ∃ verified, verifyProof (runtimeOf signedPrimitives) signedProofBytes = .ok verified ∧
      (∃ report, ProofEngine.verifyProof signedPrimitives .inserted bothSchemes signedProofBytes = .ok report ∧
        report.proofId = some verified.proofId ∧ NoFailure report.checks cryptoStages) ∧
      ∃ entries, decodeStrict signedProofBytes Limits.default = .ok (.map entries) ∧ ProofStated entries := by
  have accepted : (verifyProof (runtimeOf signedPrimitives) signedProofBytes).map Verified.proofId =
      .ok signedProof.proofId := by decide +kernel
  have reported : ((ProofEngine.verifyProof signedPrimitives .inserted bothSchemes signedProofBytes).map
      fun report => (report.proofId, stageValid report.checks cryptoStages)) =
        .ok (some signedProof.proofId, .valid) := by decide +kernel
  obtain ⟨verified, done, named⟩ := map_eq_ok.mp accepted
  obtain ⟨report, ran, verdict⟩ := map_eq_ok.mp reported
  obtain ⟨idIs, valid⟩ := Prod.mk.inj verdict
  have clean : ∃ report, ProofEngine.verifyProof signedPrimitives .inserted bothSchemes signedProofBytes = .ok report ∧
      report.proofId = some verified.proofId ∧ NoFailure report.checks cryptoStages :=
    ⟨report, ran, by rw [idIs, named], stageValid_eq_valid.mp valid⟩
  exact ⟨verified, done, clean, (verifiers_agree_iff _ _ (sameRelation_runtimeOf signedPrimitives) .inserted bothSchemes
    rfl rfl rfl bothSchemes_proper signedProofBytes signedProof_within verified done).mp clean⟩

def emptyPropositionId : String := "prf:v1:5342Sq4ekyQDhvopH_qB70PAjFJelTYSJYt-nu2KfEc"

def emptyPropositionDigest : Bytes :=
  [0xe7, 0x7e, 0x36, 0x4a, 0xae, 0x1e, 0x93, 0x24, 0x03, 0x86, 0xfa, 0x29, 0x1f, 0xfa, 0x81, 0xef,
   0x43, 0xc0, 0x8c, 0x52, 0x5e, 0x95, 0x36, 0x12, 0x25, 0x8b, 0x7e, 0x9e, 0xed, 0x8a, 0x7c, 0x47]

/-- A proof without members whose proposition states nothing. -/
def emptyPropositionMap : CborValue :=
  record [("attestations", .array []), ("created_at", .uint 1700000000), ("events", .array []),
    ("evidence", .array []), ("proof_id", .text emptyPropositionId), ("proposition", .map []),
    ("relationships", .array []), ("v", .uint 1)]

def emptyPropositionEntries : Entries :=
  match emptyPropositionMap.sortMaps with
  | .map entries => entries
  | _ => []

/-- The digest of its binding. -/
def emptyPropositionPrimitives : Primitives :=
  Primitives.ofTable
    [(encodeCanonical (proofBinding (.map []) 1700000000 [] [] [] [] [] []), emptyPropositionDigest)] []

/-- The second verifier checks no field of a proposition, so it takes a proof that fails the engine's SCHEMA. -/
theorem emptyProposition_accepted :
    SameRelation (runtimeOf emptyPropositionPrimitives) emptyPropositionPrimitives ∧
      WithinEngineLimits (encodeCanonical emptyPropositionMap) ∧
      ∃ verified report,
        verifyProof (runtimeOf emptyPropositionPrimitives) (encodeCanonical emptyPropositionMap) = .ok verified ∧
        ProofEngine.verifyProof emptyPropositionPrimitives .inserted bothSchemes
          (encodeCanonical emptyPropositionMap) = .ok report ∧
        ¬ NoFailure report.checks cryptoStages := by
  have decoded : decodeStrict (encodeCanonical emptyPropositionMap) unbounded =
      .ok (.map emptyPropositionEntries) := by decide +kernel
  have accepted : (verifyProof (runtimeOf emptyPropositionPrimitives) (encodeCanonical emptyPropositionMap)).map
      Verified.proofId = .ok emptyPropositionId := by decide +kernel
  have reported : ((ProofEngine.verifyProof emptyPropositionPrimitives .inserted bothSchemes
      (encodeCanonical emptyPropositionMap)).map fun report => stageValid report.checks cryptoStages) =
        .ok .invalid := by decide +kernel
  obtain ⟨verified, done, _⟩ := map_eq_ok.mp accepted
  obtain ⟨report, ran, invalid⟩ := map_eq_ok.mp reported
  refine ⟨sameRelation_runtimeOf _, .of_decoded decoded (by decide +kernel) (by decide +kernel)
    ⟨by decide +kernel, by decide +kernel, by decide +kernel, by decide +kernel⟩, verified, report, done, ran, ?_⟩
  rw [← stageValid_eq_valid, invalid]
  decide

end ProofEngine.Interop
