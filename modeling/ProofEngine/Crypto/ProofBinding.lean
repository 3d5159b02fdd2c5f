import ProofEngine.Crypto.Envelope
import ProofEngine.Format.MemberIdentity

/-! # Proof ids bind proofs

The id of a proof is the hash of a map that holds the ids of its members.  Without a collision among
the byte strings hashed on the way, two proofs with one id have the same content; the encoding does
not see the order in which free-form entries are stored. -/

namespace ProofEngine

open StableSort Text CborValue

/-! ## What is hashed -/

section
variable (primitives : Primitives)

/-- The id of an event member. -/
def memberEventId (event : EventContent) : Result String :=
  match eventToCbor event with
  | .ok encoded => .ok (eventId primitives (encodeCanonical encoded))
  | .error failure => schemaError ("member event failed to encode: " ++ failure.display)

/-- The id bound to everything a proof contains. -/
def recomputedProofId (proof : Proof) : Result String := do
  let eventIds ← proof.events.mapM (memberEventId primitives)
  .ok (proofIdFull primitives (propositionToCbor proof.proposition) proof.createdAt eventIds
    (proof.attestations.map fun stored => attestationMemberId primitives stored.content)
    (proof.evidence.map (evidenceMemberId primitives))
    (proof.relationships.map (relationshipMemberId primitives))
    proof.referencedProofs proof.vocabularies)

/-- The map whose hash names a parsed proof. -/
def bindingOf (proof : Proof) : CborValue :=
  proofBinding (propositionToCbor proof.proposition) proof.createdAt
    (proof.events.map fun event => eventId primitives (encodeCanonical (eventRecord event)))
    (proof.attestations.map fun stored => attestationMemberId primitives stored.content)
    (proof.evidence.map (evidenceMemberId primitives))
    (proof.relationships.map (relationshipMemberId primitives))
    proof.referencedProofs proof.vocabularies

/-- The byte strings hashed for a proof id: every member and the map of their ids. -/
def hashedInputs (proof : Proof) : List Bytes :=
  proof.events.map (fun event => encodeCanonical (eventRecord event)) ++
  proof.attestations.map (fun stored => encodeCanonical (attestationToCbor stored.content)) ++
  proof.evidence.map (fun evidence => encodeCanonical (evidenceToCbor evidence)) ++
  proof.relationships.map (fun relationship => encodeCanonical (relationshipToCbor relationship)) ++
  [encodeCanonical (bindingOf primitives proof)]

/-- The hash has no collision among `inputs`. -/
def CollisionFree (inputs : List Bytes) : Prop :=
  ∀ left ∈ inputs, ∀ right ∈ inputs, primitives.sha256 left = primitives.sha256 right → left = right

instance (inputs : List Bytes) : Decidable (CollisionFree primitives inputs) :=
  inferInstanceAs (Decidable (∀ left ∈ inputs, ∀ right ∈ inputs,
    primitives.sha256 left = primitives.sha256 right → left = right))

theorem memberEventId_eq {event : EventContent} (version : event.v = 1) :
    memberEventId primitives event = .ok (eventId primitives (encodeCanonical (eventRecord event))) := by
  rw [memberEventId, eventToCbor_of_version version]

theorem mapM_memberEventId {events : List EventContent} (versions : ∀ event ∈ events, event.v = 1) :
    events.mapM (memberEventId primitives) =
      .ok (events.map fun event => eventId primitives (encodeCanonical (eventRecord event))) := by
  rw [mapM_eq_ok, List.forall₂_map_right_iff, List.forall₂_same]
  exact fun event member => memberEventId_eq primitives (versions event member)

theorem recomputedProofId_eq {proof : Proof} (versions : ∀ event ∈ proof.events, event.v = 1) :
    recomputedProofId primitives proof =
      .ok (idWith primitives IdKind.proof (encodeCanonical (bindingOf primitives proof))) := by
  rw [recomputedProofId, mapM_memberEventId primitives versions]
  rfl

end

/-! ## The binding determines its parts -/

section
variable {primitives : Primitives}

theorem sized_id (kind : String) (short : len kind ≤ 3) (canonical : Bytes) :
    Sized (.text (idWith primitives kind canonical)) := by
  -- a digest has 32 bytes, so an id is far below the limit of a head
  have digest := Base64Url.len_encode_le (primitives.sha256 canonical).1
  have colon : len ":v1:" = 4 := by decide +kernel
  rw [(primitives.sha256 canonical).2] at digest
  apply sized_text
  rw [idWith, len_append, len_append, colon, b64uNopad]
  omega

theorem sized_sortedIds {ids : List String} (small : ids.length < 2 ^ 64)
    (each : ∀ id ∈ ids, Sized (.text id)) : Sized (sortedIds ids) := by
  refine sized_array (by simpa using small) fun item member => ?_
  obtain ⟨id, idMember, rfl⟩ := List.mem_map.mp member
  exact each id (mem_sortOn.mp idMember)

theorem sortMaps_sortedIds_inj {ids others : List String}
    (same : (sortedIds ids).sortMaps = (sortedIds others).sortMaps) :
    sortOn utf8 ids = sortOn utf8 others := by
  simp only [sortedIds, sortMaps_array, List.map_map, CborValue.array.injEq] at same
  exact List.map_injective_iff.mpr (fun _ _ texts => CborValue.text.inj texts) same

/-- The fields of a binding, by which of the optional lists are there. -/
def bindingNames (withReferences withVocabularies : Bool) : List String :=
  ["attestations", "created_at", "events", "evidence", "relationships", "proposition", "v"]
    ++ (if withReferences then ["referenced_proofs"] else [])
    ++ (if withVocabularies then ["vocabularies"] else [])

theorem bindingNames_nodup (withReferences withVocabularies : Bool) :
    (bindingNames withReferences withVocabularies).Nodup := by
  cases withReferences <;> cases withVocabularies <;> decide

theorem bindingFields_names (proposition : CborValue) (createdAt : UInt64)
    (eventIds attestationIds evidenceIds relationshipIds referencedProofs : List String)
    (vocabularies : List VocabularyDecl) :
    (bindingFields proposition createdAt eventIds attestationIds evidenceIds relationshipIds
      referencedProofs vocabularies).map Prod.fst =
        bindingNames (!referencedProofs.isEmpty) (!vocabularies.isEmpty) := by
  cases references : referencedProofs.isEmpty <;> cases declared : vocabularies.isEmpty <;>
    simp [bindingFields, bindingNames, references, declared]

/-- A binding as a sorted map. -/
structure BindingEntries (entries : Entries) (proposition : CborValue) (createdAt : UInt64)
    (eventIds attestationIds evidenceIds relationshipIds referencedProofs : List String)
    (vocabularies : List VocabularyDecl) : Prop where
  attestations : findField entries "attestations" = some (sortedIds attestationIds).sortMaps
  createdAt : findField entries "created_at" = some (.uint createdAt)
  events : findField entries "events" = some (sortedIds eventIds).sortMaps
  evidence : findField entries "evidence" = some (sortedIds evidenceIds).sortMaps
  relationships : findField entries "relationships" = some (sortedIds relationshipIds).sortMaps
  proposition : findField entries "proposition" = some proposition.sortMaps
  references : findField entries "referenced_proofs" =
    if referencedProofs.isEmpty then none else some (sortedIds referencedProofs).sortMaps
  vocabularies : findField entries "vocabularies" =
    if vocabularies.isEmpty then none
    else some (array ((sortOn (fun declared => utf8 declared.ns) vocabularies).map vocabularyToCbor)).sortMaps

theorem proofBinding_entries {entries : Entries} {proposition : CborValue} {createdAt : UInt64}
    {eventIds attestationIds evidenceIds relationshipIds referencedProofs : List String}
    {vocabularies : List VocabularyDecl}
    (sorted : (proofBinding proposition createdAt eventIds attestationIds evidenceIds relationshipIds
      referencedProofs vocabularies).sortMaps = .map entries) :
    BindingEntries entries proposition createdAt eventIds attestationIds evidenceIds relationshipIds
      referencedProofs vocabularies := by
  have names := bindingFields_names proposition createdAt eventIds attestationIds evidenceIds
    relationshipIds referencedProofs vocabularies
  -- an optional list that is empty leaves no entry
  have absent := fun (key : String) (gone : key ∉ _) => findField_sortMaps_record_none _ sorted names gone
  have found := findField_sortMaps_record _ sorted names (bindingNames_nodup _ _)
  rw [bindingFields, List.forall_mem_append, List.forall_mem_append] at found
  obtain ⟨⟨fixed, references⟩, declared⟩ := found
  simp only [List.forall_mem_cons, List.not_mem_nil, false_implies, implies_true, and_true] at fixed
  obtain ⟨attestations, created, events, evidence, relationships, prop, _⟩ := fixed
  refine ⟨attestations, created, events, evidence, relationships, prop, ?_, ?_⟩
  · cases isEmpty : referencedProofs.isEmpty with
    | true =>
      refine absent _ ?_
      rw [isEmpty]
      cases vocabularies.isEmpty <;> decide
    | false => simpa [isEmpty] using references
  · cases isEmpty : vocabularies.isEmpty with
    | true =>
      refine absent _ ?_
      rw [isEmpty]
      cases referencedProofs.isEmpty <;> decide
    | false => simpa [isEmpty] using declared

theorem perm_of_sortedIds {entries : Entries} {key : String} {ids others : List String}
    (here : findField entries key = some (sortedIds ids).sortMaps)
    (there : findField entries key = some (sortedIds others).sortMaps) : ids.Perm others := by
  -- the map holds the sorted list, and sorting keeps the multiset
  have same := sortMaps_sortedIds_inj (Option.some.inj (here.symm.trans there))
  exact (sortOn_perm utf8 ids).symm.trans (same ▸ sortOn_perm utf8 others)

/-- Optional lists with the same trace in the map are the same list. -/
theorem optionalList_inj {α : Type} {encode : List α → CborValue} {items others : List α}
    (encodeInj : encode items = encode others → items = others)
    (same : (if items.isEmpty then none else some (encode items)) =
      if others.isEmpty then none else some (encode others)) : items = others := by
  cases items with
  | nil =>
    cases others with
    | nil => rfl
    | cons other others => simp at same
  | cons item items =>
    cases others with
    | nil => simp at same
    | cons other others => exact encodeInj (by simpa using same)

/-! ## Proofs with one id -/

/-- The proofs agree in everything an id covers, free-form entries compared in encoded-key order. -/
structure SameUpToEntryOrder (proof other : Proof) : Prop where
  proposition : proof.proposition.inKeyOrder = other.proposition.inKeyOrder
  createdAt : proof.createdAt = other.createdAt
  events : (proof.events.map EventContent.inKeyOrder).Perm (other.events.map EventContent.inKeyOrder)
  attestations : (proof.attestations.map fun stored => stored.content.inKeyOrder).Perm
    (other.attestations.map fun stored => stored.content.inKeyOrder)
  evidence : proof.evidence.Perm other.evidence
  relationships : proof.relationships.Perm other.relationships
  referencedProofs : proof.referencedProofs = other.referencedProofs
  vocabularies : proof.vocabularies = other.vocabularies

/-- The proofs agree in everything an id covers. -/
structure SameContent (proof other : Proof) : Prop where
  proposition : proof.proposition = other.proposition
  createdAt : proof.createdAt = other.createdAt
  events : proof.events.Perm other.events
  attestations : (proof.attestations.map StoredAttestation.content).Perm
    (other.attestations.map StoredAttestation.content)
  evidence : proof.evidence.Perm other.evidence
  relationships : proof.relationships.Perm other.relationships
  referencedProofs : proof.referencedProofs = other.referencedProofs
  vocabularies : proof.vocabularies = other.vocabularies

/-- What a parsed proof guarantees about its members. -/
structure Proof.Bounded (proof : Proof) : Prop where
  proposition : proof.proposition.Bounded
  events : ∀ event ∈ proof.events, event.Bounded
  attestations : ∀ stored ∈ proof.attestations, stored.content.Bounded ∧ stored.content.claim.KeysSmall
  evidence : ∀ evidence ∈ proof.evidence, evidence.Bounded
  relationships : ∀ relationship ∈ proof.relationships, relationship.Bounded
  counts : proof.events.length < 2 ^ 64 ∧ proof.attestations.length < 2 ^ 64 ∧
    proof.evidence.length < 2 ^ 64 ∧ proof.relationships.length < 2 ^ 64 ∧
    proof.referencedProofs.length < 2 ^ 64 ∧ proof.vocabularies.length < 2 ^ 64
  references : ∀ reference ∈ proof.referencedProofs, Sized (.text reference)
  vocabularies : ∀ declared ∈ proof.vocabularies, Sized (vocabularyToCbor declared)
  referencesSorted : sortOn utf8 proof.referencedProofs = proof.referencedProofs
  vocabulariesSorted : sortOn (fun declared => utf8 declared.ns) proof.vocabularies = proof.vocabularies

theorem sized_bindingOf {proof : Proof} (bounded : proof.Bounded) : Sized (bindingOf primitives proof) := by
  obtain ⟨eventCount, attestationCount, evidenceCount, relationshipCount, referenceCount,
    vocabularyCount⟩ := bounded.counts
  have ids : ∀ {α : Type} {members : List α} {kind : String} {canonical : α → Bytes},
      members.length < 2 ^ 64 → len kind ≤ 3 →
      Sized (sortedIds (members.map fun member => idWith primitives kind (canonical member))) := by
    intro α members kind canonical count short
    refine sized_sortedIds (by simpa using count) fun id member => ?_
    obtain ⟨_, _, rfl⟩ := List.mem_map.mp member
    exact sized_id kind short _
  have short : ∀ withReferences withVocabularies, (bindingNames withReferences withVocabularies).length < 2 ^ 64 ∧
      ∀ name ∈ bindingNames withReferences withVocabularies, len name < 2 ^ 64 := by decide +kernel
  refine sized_record_of_names _ (bindingFields_names _ _ _ _ _ _ _ _) (short _ _) ?_
  rw [bindingFields, List.forall_mem_append, List.forall_mem_append]
  refine ⟨⟨?_, ?_⟩, ?_⟩
  · simp only [List.forall_mem_cons, List.not_mem_nil, false_implies, implies_true, and_true]
    exact ⟨ids attestationCount (by decide +kernel), sized_uint _, ids eventCount (by decide +kernel),
      ids evidenceCount (by decide +kernel), ids relationshipCount (by decide +kernel),
      bounded.proposition.sized, sized_uint _⟩
  · split
    · simp
    · simpa using sized_sortedIds referenceCount bounded.references
  · split
    · simp
    · have declared : Sized (.array ((sortOn (fun declared => utf8 declared.ns)
          proof.vocabularies).map vocabularyToCbor)) :=
        sized_array (by simpa using vocabularyCount) (by simpa using bounded.vocabularies)
      simpa using declared

section
variable {limits : Limits} {value : CborValue} {proof : Proof}

theorem mapM_addressable {α : Type} {parse : CborValue → Result α} {items : List CborValue} {members : List α}
    (addressable : (array items).Everywhere Addressable) (done : items.mapM parse = .ok members) :
    members.length < 2 ^ 64 := by
  have count : items.length < 2 ^ 64 := addressable.self
  rwa [(mapM_eq_ok.mp done).length_eq] at count

theorem cborToReferencedProofs_bounded {entries : Entries} {references : List String}
    (addressable : (map entries).Everywhere Addressable)
    (done : cborToReferencedProofs limits entries = .ok references) :
    references.length < 2 ^ 64 ∧ (∀ reference ∈ references, Sized (.text reference)) ∧
      sortOn utf8 references = references := by
  simp only [cborToReferencedProofs] at done
  split at done
  · cases done
    simp
  · rename_i items present
    have itemsAddressable := ((everywhere_map.mp addressable).2 _ (mem_of_findField present)).2
    split at done
    · cases done
    · simp only [bind_eq_ok] at done
      obtain ⟨parsed, parsedDone, done⟩ := done
      split at done
      · cases done
      · rename_i fixed
        cases done
        refine ⟨mapM_addressable itemsAddressable parsedDone, fun reference member => ?_,
          sortOn_of_strict (strict_of_destutter_sortOn (not_not.mp fixed))⟩
        obtain ⟨item, itemMember, itemDone⟩ := exists_of_mem_mapM parsedDone member
        have itemAddressable := (everywhere_array.mp itemsAddressable).2 item itemMember
        rw [referenceFromCbor_eq_ok itemDone] at itemAddressable
        exact sized_text itemAddressable.self
  · cases done

theorem vocabularyFromCbor_sized {declared : VocabularyDecl} (done : vocabularyFromCbor value = .ok declared) :
    Sized (vocabularyToCbor declared) := by
  cases value with
  | map entries =>
    simp only [vocabularyFromCbor, bind_eq_ok, textField_eq_ok] at done
    obtain ⟨_, _, ns, ⟨_, bounded⟩, done⟩ := done
    split at done
    · cases done
    · split at done
      · cases done
      · simp only [bind_eq_ok] at done
        obtain ⟨version, _, done⟩ := done
        cases done
        refine sized_record_of_names ["ns", "version"] rfl (fieldNames_fit _ (by simp)).2 ?_
        simp only [List.forall_mem_cons, List.not_mem_nil, false_implies, implies_true, and_true]
        exact ⟨bounded.sized, sized_uint _⟩
  | _ => cases done

theorem cborToVocabularies_bounded {entries : Entries} {vocabularies : List VocabularyDecl}
    (addressable : (map entries).Everywhere Addressable)
    (done : cborToVocabularies limits entries = .ok vocabularies) :
    vocabularies.length < 2 ^ 64 ∧ (∀ declared ∈ vocabularies, Sized (vocabularyToCbor declared)) ∧
      sortOn (fun declared => utf8 declared.ns) vocabularies = vocabularies := by
  simp only [cborToVocabularies] at done
  split at done
  · cases done
    simp
  · rename_i items present
    have itemsAddressable := ((everywhere_map.mp addressable).2 _ (mem_of_findField present)).2
    split at done
    · cases done
    · simp only [bind_eq_ok] at done
      obtain ⟨parsed, parsedDone, done⟩ := done
      split at done
      · cases done
      · rename_i fixed
        cases done
        refine ⟨mapM_addressable itemsAddressable parsedDone, fun declared member => ?_, ?_⟩
        · obtain ⟨item, _, itemDone⟩ := exists_of_mem_mapM parsedDone member
          exact vocabularyFromCbor_sized itemDone
        · -- No entry was dropped, so the names in order are the names of the sorted list.
          obtain ⟨lengths, names⟩ := not_or.mp fixed
          have whole := (List.destutter_sublist (fun left right : VocabularyDecl => utf8 left.ns ≠ utf8 right.ns)
            (sortOn (fun declared => utf8 declared.ns) vocabularies)).eq_of_length
              ((not_not.mp lengths).trans (length_sortOn _ _).symm)
          rw [whole] at names
          have sorted := sortOn_pairwise (fun declared => utf8 declared.ns) vocabularies
          have byName : ((sortOn (fun declared => utf8 declared.ns) vocabularies).map (·.ns)).Pairwise
              (fun left right => utf8 left ≤ utf8 right) := List.pairwise_map.mpr sorted
          rw [not_not.mp names] at byName
          exact sortOn_of_pairwise (by simpa only [List.pairwise_map] using byName)
  · cases done

theorem cborToAttestationEntry_content {stored : StoredAttestation}
    (done : cborToAttestationEntry limits value = .ok stored) :
    ∃ entries content, value = .map entries ∧ findField entries "content" = some content ∧
      cborToAttestation limits content = .ok stored.content := by
  cases value with
  | map entries =>
    simp only [cborToAttestationEntry, bind_eq_ok, requireField_eq_ok] at done
    obtain ⟨_, _, content, contentFound, _, contentDone, _, _, _, _, done⟩ := done
    cases done
    exact ⟨entries, content, rfl, contentFound, contentDone⟩
  | _ => cases done

theorem cborToProof_bounded (addressable : value.Everywhere Addressable)
    (done : cborToProof limits value = .ok proof) : proof.Bounded := by
  obtain ⟨_, entries, rfl, parts⟩ := cborToProof_entries done
  have fieldAddressable : ∀ {key : String} {field : CborValue}, findField entries key = some field →
      field.Everywhere Addressable :=
    fun found => ((everywhere_map.mp addressable).2 _ (mem_of_findField found)).2
  obtain ⟨_, _, propositionDone⟩ := parts.proposition
  obtain ⟨_, eventsFound, eventsDone⟩ := parts.events
  obtain ⟨_, attestationsFound, attestationsDone⟩ := parts.attestations
  obtain ⟨_, evidenceFound, evidenceDone⟩ := parts.evidence
  obtain ⟨_, relationshipsFound, relationshipsDone⟩ := parts.relationships
  obtain ⟨referenceCount, references, referencesSorted⟩ :=
    cborToReferencedProofs_bounded addressable parts.references
  obtain ⟨vocabularyCount, vocabularies, vocabulariesSorted⟩ :=
    cborToVocabularies_bounded addressable parts.vocabularies
  refine ⟨cborToProposition_bounded propositionDone, fun event member => ?_, fun stored member => ?_,
    fun evidence member => ?_, fun relationship member => ?_,
    ⟨mapM_addressable (fieldAddressable eventsFound) eventsDone,
      mapM_addressable (fieldAddressable attestationsFound) attestationsDone,
      mapM_addressable (fieldAddressable evidenceFound) evidenceDone,
      mapM_addressable (fieldAddressable relationshipsFound) relationshipsDone, referenceCount,
      vocabularyCount⟩, references, vocabularies, referencesSorted, vocabulariesSorted⟩
  · obtain ⟨_, _, itemDone⟩ := exists_of_mem_mapM eventsDone member
    exact cborToEvent_bounded itemDone
  · obtain ⟨item, itemMember, itemDone⟩ := exists_of_mem_mapM attestationsDone member
    obtain ⟨_, _, rfl, contentFound, contentDone⟩ := cborToAttestationEntry_content itemDone
    -- the content sits two levels down: in the list of entries, in the field of an entry
    have itemAddressable := (everywhere_array.mp (fieldAddressable attestationsFound)).2 _ itemMember
    have contentAddressable := ((everywhere_map.mp itemAddressable).2 _ (mem_of_findField contentFound)).2
    exact ⟨cborToAttestation_bounded contentDone, cborToAttestation_keysSmall contentAddressable contentDone⟩
  · obtain ⟨_, _, itemDone⟩ := exists_of_mem_mapM evidenceDone member
    exact cborToEvidence_bounded itemDone
  · obtain ⟨_, _, itemDone⟩ := exists_of_mem_mapM relationshipsDone member
    exact cborToRelationship_bounded itemDone

end

/-- Every member and the binding are hashed. -/
structure Hashes (primitives : Primitives) (proof : Proof) (inputs : List Bytes) : Prop where
  events : ∀ event ∈ proof.events, encodeCanonical (eventRecord event) ∈ inputs
  attestations : ∀ stored ∈ proof.attestations, encodeCanonical (attestationToCbor stored.content) ∈ inputs
  evidence : ∀ evidence ∈ proof.evidence, encodeCanonical (evidenceToCbor evidence) ∈ inputs
  relationships : ∀ relationship ∈ proof.relationships,
    encodeCanonical (relationshipToCbor relationship) ∈ inputs
  binding : encodeCanonical (bindingOf primitives proof) ∈ inputs

theorem hashes_hashedInputs (primitives : Primitives) (proof : Proof) :
    Hashes primitives proof (hashedInputs primitives proof) := by
  refine ⟨?_, ?_, ?_, ?_, ?_⟩ <;> simp only [hashedInputs, List.mem_append]
  · exact fun event member => .inl (.inl (.inl (.inl (List.mem_map_of_mem member))))
  · exact fun stored member => .inl (.inl (.inl (.inr (List.mem_map.mpr ⟨stored, member, rfl⟩))))
  · exact fun evidence member => .inl (.inl (.inr (List.mem_map_of_mem member)))
  · exact fun relationship member => .inl (.inr (List.mem_map_of_mem member))
  · exact .inr List.mem_cons_self

/-- Members with the same ids up to order have the same content up to order. -/
theorem members_perm {α γ : Type} {kind : String} {canonical : α → Bytes} {content : α → γ}
    {members others : List α} {inputs otherInputs : List Bytes}
    (collisionFree : CollisionFree primitives (inputs ++ otherInputs))
    (hashed : ∀ member ∈ members, canonical member ∈ inputs)
    (otherHashed : ∀ other ∈ others, canonical other ∈ otherInputs)
    (determines : ∀ member ∈ members, ∀ other ∈ others, canonical member = canonical other →
      content member = content other)
    (ids : (members.map fun member => idWith primitives kind (canonical member)).Perm
      (others.map fun member => idWith primitives kind (canonical member))) :
    (members.map content).Perm (others.map content) := by
  -- equal ids are equal encodings, and these determine the content
  refine perm_map_of_perm_keys (fun member inside other otherInside same => ?_) ids
  exact determines member inside other otherInside
    (collisionFree _ (List.mem_append_left _ (hashed member inside)) _
      (List.mem_append_right _ (otherHashed other otherInside)) (idWith_inj same))

/-- Encodings determine the members they are of, free-form entries up to order. -/
structure EncodingsDetermine (proof other : Proof) : Prop where
  events : ∀ event ∈ proof.events, ∀ another ∈ other.events,
    encodeCanonical (eventRecord event) = encodeCanonical (eventRecord another) →
      event.inKeyOrder = another.inKeyOrder
  attestations : ∀ stored ∈ proof.attestations, ∀ another ∈ other.attestations,
    encodeCanonical (attestationToCbor stored.content) = encodeCanonical (attestationToCbor another.content) →
      stored.content.inKeyOrder = another.content.inKeyOrder
  evidence : ∀ evidence ∈ proof.evidence, ∀ another ∈ other.evidence,
    encodeCanonical (evidenceToCbor evidence) = encodeCanonical (evidenceToCbor another) → evidence = another
  relationships : ∀ relationship ∈ proof.relationships, ∀ another ∈ other.relationships,
    encodeCanonical (relationshipToCbor relationship) = encodeCanonical (relationshipToCbor another) →
      relationship = another

theorem Proof.Bounded.encodingsDetermine {proof other : Proof} (bounded : proof.Bounded)
    (otherBounded : other.Bounded) : EncodingsDetermine proof other := by
  constructor
  case events =>
    intro event member another otherMember encodings
    have eventBounded := bounded.events event member
    have anotherBounded := otherBounded.events another otherMember
    exact sortMaps_eventRecord_inj (eventBounded.version.trans anotherBounded.version.symm)
      (eventBounded.sized.sortMaps_eq anotherBounded.sized encodings)
  case attestations =>
    intro stored member another otherMember encodings
    obtain ⟨storedBounded, storedSmall⟩ := bounded.attestations stored member
    obtain ⟨anotherBounded, anotherSmall⟩ := otherBounded.attestations another otherMember
    exact sortMaps_attestationToCbor_inj storedBounded anotherBounded
      ((storedBounded.sized storedSmall).sortMaps_eq (anotherBounded.sized anotherSmall) encodings)
  case evidence =>
    intro evidence member another otherMember encodings
    exact sortMaps_evidenceToCbor_inj ((bounded.evidence evidence member).sized.sortMaps_eq
      (otherBounded.evidence another otherMember).sized encodings)
  case relationships =>
    intro relationship member another otherMember encodings
    exact sortMaps_relationshipToCbor_inj ((bounded.relationships relationship member).sized.sortMaps_eq
      (otherBounded.relationships another otherMember).sized encodings)

theorem sameUpToEntryOrder_of_id {proof other : Proof} (bounded : proof.Bounded) (otherBounded : other.Bounded)
    (collisionFree : CollisionFree primitives (hashedInputs primitives proof ++ hashedInputs primitives other))
    (same : idWith primitives IdKind.proof (encodeCanonical (bindingOf primitives proof)) =
      idWith primitives IdKind.proof (encodeCanonical (bindingOf primitives other))) :
    SameUpToEntryOrder proof other := by
  have hashes := hashes_hashedInputs primitives proof
  have otherHashes := hashes_hashedInputs primitives other
  have encodings := collisionFree _ (List.mem_append_left _ hashes.binding) _
    (List.mem_append_right _ otherHashes.binding) (idWith_inj same)
  -- equal encodings are equal values once maps are sorted; read both from one list of entries
  have bindings := (sized_bindingOf bounded).sortMaps_eq (sized_bindingOf otherBounded) encodings
  obtain ⟨entries, sorted⟩ : ∃ entries, (bindingOf primitives proof).sortMaps = .map entries :=
    ⟨_, sortMaps_record _⟩
  have here := proofBinding_entries sorted
  have there := proofBinding_entries (bindings.symm.trans sorted)
  have propositions := Option.some.inj (here.proposition.symm.trans there.proposition)
  have created : proof.createdAt = other.createdAt := by
    simpa using here.createdAt.symm.trans there.createdAt
  have references : proof.referencedProofs = other.referencedProofs := by
    refine @optionalList_inj _ (fun ids => (sortedIds ids).sortMaps) _ _ (fun lists => ?_)
      (here.references.symm.trans there.references)
    have sorted := sortMaps_sortedIds_inj lists
    rwa [bounded.referencesSorted, otherBounded.referencesSorted] at sorted
  have vocabularies : proof.vocabularies = other.vocabularies := by
    have lists := here.vocabularies.symm.trans there.vocabularies
    rw [bounded.vocabulariesSorted, otherBounded.vocabulariesSorted] at lists
    refine @optionalList_inj _ (fun items => (array (items.map vocabularyToCbor)).sortMaps) _ _ ?_ lists
    intro lists
    simp only [sortMaps_array, List.map_map, CborValue.array.injEq] at lists
    exact List.map_injective_iff.mpr sortMaps_vocabularyToCbor_injective lists
  have determined := bounded.encodingsDetermine otherBounded
  refine ⟨sortMaps_propositionToCbor_inj propositions, created, ?_, ?_, ?_, ?_, references, vocabularies⟩
  · exact members_perm collisionFree hashes.events otherHashes.events determined.events
      (perm_of_sortedIds here.events there.events)
  · exact members_perm collisionFree hashes.attestations otherHashes.attestations determined.attestations
      (perm_of_sortedIds here.attestations there.attestations)
  · rw [← List.map_id proof.evidence, ← List.map_id other.evidence]
    exact members_perm collisionFree hashes.evidence otherHashes.evidence determined.evidence
      (perm_of_sortedIds here.evidence there.evidence)
  · rw [← List.map_id proof.relationships, ← List.map_id other.relationships]
    exact members_perm collisionFree hashes.relationships otherHashes.relationships determined.relationships
      (perm_of_sortedIds here.relationships there.relationships)

/-- Members of a proof read from strictly decoded bytes store their entries in encoded-key order. -/
theorem cborToProof_inKeyOrder {limits : Limits} {value : CborValue} {proof : Proof}
    (canonical : Canonical limits value) (done : cborToProof limits value = .ok proof) :
    proof.proposition.inKeyOrder = proof.proposition ∧
      proof.events.map EventContent.inKeyOrder = proof.events ∧
      (proof.attestations.map fun stored => stored.content.inKeyOrder) =
        proof.attestations.map StoredAttestation.content := by
  obtain ⟨_, entries, rfl, parts⟩ := cborToProof_entries done
  obtain ⟨_, propositionFound, propositionDone⟩ := parts.proposition
  obtain ⟨_, eventsFound, eventsDone⟩ := parts.events
  obtain ⟨_, attestationsFound, attestationsDone⟩ := parts.attestations
  refine ⟨cborToProposition_inKeyOrder (canonical.findField propositionFound) propositionDone, ?_, ?_⟩
  · refine (List.map_congr_left fun event member => ?_).trans (List.map_id _)
    obtain ⟨item, itemMember, itemDone⟩ := exists_of_mem_mapM eventsDone member
    exact cborToEvent_inKeyOrder ((everywhere_array.mp (canonical.findField eventsFound)).2 _ itemMember)
      itemDone
  · refine List.map_congr_left fun stored member => ?_
    obtain ⟨item, itemMember, itemDone⟩ := exists_of_mem_mapM attestationsDone member
    obtain ⟨_, _, rfl, contentFound, contentDone⟩ := cborToAttestationEntry_content itemDone
    have itemCanonical := (everywhere_array.mp (canonical.findField attestationsFound)).2 _ itemMember
    exact cborToAttestation_inKeyOrder (Canonical.findField itemCanonical contentFound) contentDone

/-- Entries of decoded bytes are in key order already, so nothing is left to reorder. -/
theorem SameUpToEntryOrder.sameContent {limits otherLimits : Limits} {value otherValue : CborValue}
    {proof other : Proof} (agree : SameUpToEntryOrder proof other)
    (canonical : Canonical limits value) (parsed : cborToProof limits value = .ok proof)
    (otherCanonical : Canonical otherLimits otherValue)
    (otherParsed : cborToProof otherLimits otherValue = .ok other) : SameContent proof other := by
  obtain ⟨proposition, events, attestations⟩ := cborToProof_inKeyOrder canonical parsed
  obtain ⟨otherProposition, otherEvents, otherAttestations⟩ :=
    cborToProof_inKeyOrder otherCanonical otherParsed
  refine ⟨?_, agree.createdAt, ?_, ?_, agree.evidence, agree.relationships, agree.referencedProofs,
    agree.vocabularies⟩
  · rw [← proposition, ← otherProposition]
    exact agree.proposition
  · rw [← events, ← otherEvents]
    exact agree.events
  · rw [← attestations, ← otherAttestations]
    exact agree.attestations

end

/-- Equal proof ids mean equal content: up to the stored order of free-form entries for proofs parsed
    from any value, and exactly for proofs parsed from strictly decoded bytes. -/
theorem recomputedProofId_binds (primitives : Primitives) (limits otherLimits : Limits)
    (value other : MachineValue) (proof otherProof : Proof) (id : String)
    (parsed : cborToProof limits value.1 = .ok proof)
    (otherParsed : cborToProof otherLimits other.1 = .ok otherProof)
    (collisionFree : CollisionFree primitives
      (hashedInputs primitives proof ++ hashedInputs primitives otherProof))
    (named : recomputedProofId primitives proof = .ok id)
    (otherNamed : recomputedProofId primitives otherProof = .ok id) :
    SameUpToEntryOrder proof otherProof ∧
      ∀ bytes otherBytes, decodeStrict bytes limits = .ok value.1 →
        decodeStrict otherBytes otherLimits = .ok other.1 → SameContent proof otherProof := by
  rw [recomputedProofId_eq primitives (cborToProof_versions parsed)] at named
  rw [recomputedProofId_eq primitives (cborToProof_versions otherParsed)] at otherNamed
  have agree := sameUpToEntryOrder_of_id (cborToProof_bounded value.2 parsed)
    (cborToProof_bounded other.2 otherParsed) collisionFree (Except.ok.inj (named.trans otherNamed.symm))
  exact ⟨agree, fun bytes otherBytes decoded otherDecoded => agree.sameContent (decodeStrict_sound decoded).2
    parsed (decodeStrict_sound otherDecoded).2 otherParsed⟩

/-! ## Two stored orders, one id -/

/-- A proof without members whose context entries are stored in the given order. -/
def contextProofMap (context : List (String × MetaValue)) : CborValue :=
  record [("attestations", .array []), ("created_at", .uint 1700000000), ("events", .array []),
    ("evidence", .array []), ("proof_id", .text "prf:v1:x"),
    ("proposition", record [("at_time", .null), ("context", record (metaToFields context)),
      ("kind", .text "payment"), ("object", .null), ("predicate", .text "settled"),
      ("subject", .text "acct:1"), ("v", .uint 1)]),
    ("relationships", .array []), ("v", .uint 1)]

def contextProof (context : List (String × MetaValue)) : Proof :=
  { bareProof with proposition := { bareProof.proposition with context } }

def amountFirst : List (String × MetaValue) := [("amount", .uint 5), ("currency", .text "EUR")]

def currencyFirst : List (String × MetaValue) := [("currency", .text "EUR"), ("amount", .uint 5)]

/-- The binding of a proof without members does not depend on the hash. -/
def contextBinding (context : List (String × MetaValue)) : Bytes :=
  encodeCanonical (proofBinding (propositionToCbor (contextProof context).proposition) 1700000000
    [] [] [] [] [] [])

theorem contextBinding_same : contextBinding amountFirst = contextBinding currencyFirst := by decide +kernel

theorem contextProof_id (primitives : Primitives) (context : List (String × MetaValue)) :
    recomputedProofId primitives (contextProof context) =
      .ok (idWith primitives IdKind.proof (contextBinding context)) :=
  recomputedProofId_eq primitives fun _ member => nomatch member

theorem contextProofs_collisionFree (primitives : Primitives) :
    CollisionFree primitives (hashedInputs primitives (contextProof amountFirst) ++
      hashedInputs primitives (contextProof currencyFirst)) := by
  have inputs : ∀ context, hashedInputs primitives (contextProof context) = [contextBinding context] :=
    fun _ => rfl
  intro left leftIn right rightIn _
  simp only [inputs, contextBinding_same, List.cons_append, List.nil_append, List.mem_cons,
    List.not_mem_nil, or_self, or_false] at leftIn rightIn
  rw [leftIn, rightIn]

theorem contextProofs_parsed :
    cborToProof Limits.default (contextProofMap amountFirst) = .ok (contextProof amountFirst) ∧
    cborToProof Limits.default (contextProofMap currencyFirst) = .ok (contextProof currencyFirst) := by
  decide +kernel

/-- Two stored orders of the context give different propositions under one id, whatever the hash. -/
theorem contextOrder_same_id :
    cborToProof Limits.default (contextProofMap amountFirst) = .ok (contextProof amountFirst) ∧
    cborToProof Limits.default (contextProofMap currencyFirst) = .ok (contextProof currencyFirst) ∧
    (∀ primitives : Primitives,
      CollisionFree primitives (hashedInputs primitives (contextProof amountFirst) ++
        hashedInputs primitives (contextProof currencyFirst)) ∧
      recomputedProofId primitives (contextProof amountFirst) =
        recomputedProofId primitives (contextProof currencyFirst)) ∧
    (contextProof amountFirst).proposition ≠ (contextProof currencyFirst).proposition := by
  refine ⟨contextProofs_parsed.1, contextProofs_parsed.2, fun primitives =>
    ⟨contextProofs_collisionFree primitives, ?_⟩, by decide +kernel⟩
  rw [contextProof_id, contextProof_id, contextBinding_same]

def contextDigest : Bytes :=
  [0x76, 0x04, 0x61, 0x04, 0xa1, 0x55, 0xa0, 0x94, 0xa3, 0x20, 0x22, 0xf4, 0x0c, 0x9f, 0x63, 0xe7,
   0xa6, 0x90, 0x18, 0x34, 0x9e, 0xd3, 0x26, 0x35, 0x61, 0x60, 0xd0, 0x19, 0xbc, 0xdb, 0x18, 0x70]

def contextPrimitives : Primitives :=
  Primitives.ofTable [(contextBinding amountFirst, contextDigest)] []

/-- The two orders agree once entries are compared in encoded-key order. -/
theorem contextOrder_same_content :
    SameUpToEntryOrder (contextProof amountFirst) (contextProof currencyFirst) := by
  have addressable : (contextProofMap amountFirst).Everywhere Addressable ∧
      (contextProofMap currencyFirst).Everywhere Addressable := by decide +kernel
  have otherNamed := contextProof_id contextPrimitives currencyFirst
  rw [← contextBinding_same] at otherNamed
  exact (recomputedProofId_binds contextPrimitives Limits.default Limits.default ⟨_, addressable.1⟩
    ⟨_, addressable.2⟩ _ _ _ contextProofs_parsed.1 contextProofs_parsed.2
    (contextProofs_collisionFree contextPrimitives) (contextProof_id contextPrimitives amountFirst)
    otherNamed).1

end ProofEngine
