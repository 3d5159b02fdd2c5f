import ProofEngine.Format.MemberCodec

/-! # Proof bytes

The parser accepts a proof with or without `referenced_proofs` and `vocabularies`; the encoder
writes them only when they are non-empty.  Everything else is fixed by the parsed proof, so a
canonical input is re-encoded to itself unless one of the two lists is there and empty. -/

namespace ProofEngine

open StableSort Text CborValue

/-! ## Arrays of members -/

theorem sortMaps_array_of_forall₂ {α : Type} {encode : α → CborValue} {items : List CborValue}
    {members : List α}
    (parsed : List.Forall₂ (fun item member => (encode member).sortMaps = item) items members) :
    (array (members.map encode)).sortMaps = .array items := by
  rw [sortMaps_array, List.map_map]
  congr 1
  induction parsed with
  | nil => rfl
  | cons here _ inductionHypothesis => simp [here, inductionHypothesis]

section
variable {limits : Limits}

/-- An array of canonical items is the encoding of the members parsed from it. -/
theorem mapM_canonical {α : Type} {parse : CborValue → Result α} {encode : α → CborValue}
    {items : List CborValue} {members : List α} (canonical : Canonical limits (.array items))
    (single : ∀ item member, Canonical limits item → parse item = .ok member →
      (encode member).sortMaps = item)
    (done : items.mapM parse = .ok members) : (array (members.map encode)).sortMaps = .array items := by
  -- each item is canonical by itself
  have nested := (everywhere_array.mp canonical).2
  apply sortMaps_array_of_forall₂
  have steps := mapM_eq_ok.mp done
  clear done canonical
  induction steps with
  | nil => exact .nil
  | cons here _ inductionHypothesis =>
    obtain ⟨first, rest⟩ := List.forall_mem_cons.mp nested
    exact .cons (single _ _ first here) (inductionHypothesis rest)

theorem cborArray_eq_ok {entries : Entries} {key : String} {items : List CborValue} :
    cborArray entries key = .ok items ↔ findField entries key = some (.array items) := by
  simp only [cborArray, bind_eq_ok, requireField_eq_ok]
  constructor
  · rintro ⟨value, found, done⟩
    cases value with
    | array others =>
      cases done
      exact found
    | _ => contradiction
  · intro found
    exact ⟨.array items, found, rfl⟩

theorem cborToAttestationEntry_canonical {value : CborValue} {stored : StoredAttestation}
    (canonical : Canonical limits value) (done : cborToAttestationEntry limits value = .ok stored) :
    (attestationEntryToCbor stored).sortMaps = value := by
  cases value with
  | map entries =>
    simp only [cborToAttestationEntry, bind_eq_ok, checkClosed_eq_ok, requireField_eq_ok] at done
    obtain ⟨_, closed, contentCbor, contentFound, content, contentDone, sign1Cbor, sign1Found, sign1,
      sign1Done, done⟩ := done
    cases done
    have sign1Same : sign1Cbor = .bytes sign1 := by
      cases sign1Cbor with
      | bytes b =>
        simp only [sign1FromCbor] at sign1Done
        split at sign1Done
        · contradiction
        · cases sign1Done
          rfl
      | _ => contradiction
    rw [sign1Same] at sign1Found
    refine sortMaps_record_of_fields ["content", "sign1"] canonical.ascending rfl (by decide) closed ?_
    simp only [List.forall_mem_cons, List.not_mem_nil, false_implies, implies_true, and_true]
    refine ⟨?_, sign1Found⟩
    rw [contentFound, cborToAttestation_canonical (canonical.findField contentFound) contentDone]
  | _ => contradiction

/-! ## The two optional lists -/

theorem referenceFromCbor_eq_ok {value : CborValue} {reference : String}
    (done : referenceFromCbor value = .ok reference) : value = .text reference := by
  cases value with
  | text s =>
    simp only [referenceFromCbor, bind_eq_ok] at done
    obtain ⟨_, _, done⟩ := done
    cases done
    rfl
  | _ => contradiction

/-- Absent references are parsed as none, present ones as the array they stand in. -/
theorem cborToReferencedProofs_eq_ok {entries : Entries} {references : List String}
    (canonical : Canonical limits (.map entries))
    (done : cborToReferencedProofs limits entries = .ok references) :
    (findField entries "referenced_proofs" = none ∧ references = []) ∨
      findField entries "referenced_proofs" = some (array (references.map text)).sortMaps := by
  simp only [cborToReferencedProofs] at done
  split at done
  · rename_i absent
    cases done
    exact .inl ⟨absent, rfl⟩
  · rename_i items present
    split at done
    · contradiction
    · simp only [bind_eq_ok] at done
      obtain ⟨parsed, parsedDone, done⟩ := done
      split at done
      · contradiction
      · cases done
        have single : ∀ item reference, Canonical limits item →
            referenceFromCbor item = .ok reference → (text reference).sortMaps = item :=
          fun _ _ _ here => (referenceFromCbor_eq_ok here).symm
        have same := mapM_canonical (canonical.findField present) single parsedDone
        exact .inr (by rw [present, same])
  · contradiction

theorem vocabularyFromCbor_canonical {value : CborValue} {declared : VocabularyDecl}
    (canonical : Canonical limits value) (done : vocabularyFromCbor value = .ok declared) :
    (vocabularyToCbor declared).sortMaps = value := by
  cases value with
  | map entries =>
    simp only [vocabularyFromCbor, bind_eq_ok, checkClosed_eq_ok, textField_eq_ok] at done
    obtain ⟨_, closed, ns, ⟨nsFound, _⟩, done⟩ := done
    split at done
    · contradiction
    · split at done
      · contradiction
      · simp only [bind_eq_ok, uintField_eq_ok] at done
        obtain ⟨version, versionFound, done⟩ := done
        cases done
        refine sortMaps_record_of_fields ["ns", "version"] canonical.ascending rfl (by decide) closed ?_
        simp only [List.forall_mem_cons, List.not_mem_nil, false_implies, implies_true, and_true]
        exact ⟨nsFound, versionFound⟩
  | _ => contradiction

theorem cborToVocabularies_eq_ok {entries : Entries} {vocabularies : List VocabularyDecl}
    (canonical : Canonical limits (.map entries))
    (done : cborToVocabularies limits entries = .ok vocabularies) :
    (findField entries "vocabularies" = none ∧ vocabularies = []) ∨
      findField entries "vocabularies" =
        some (array (vocabularies.map vocabularyToCbor)).sortMaps := by
  simp only [cborToVocabularies] at done
  split at done
  · rename_i absent
    cases done
    exact .inl ⟨absent, rfl⟩
  · rename_i items present
    split at done
    · contradiction
    · simp only [bind_eq_ok] at done
      obtain ⟨parsed, parsedDone, done⟩ := done
      split at done
      · contradiction
      · cases done
        have same := mapM_canonical (canonical.findField present)
          (fun _ _ canonical => vocabularyFromCbor_canonical canonical) parsedDone
        exact .inr (by rw [present, same])
  · contradiction

/-! ## Whole proofs -/

/-- The fields of a proof, with or without each of the optional lists. -/
def proofRecordFields (proof : Proof) (withReferences withVocabularies : Bool) :
    List (String × CborValue) :=
    [("attestations", .array (proof.attestations.map attestationEntryToCbor)),
     ("created_at", .uint proof.createdAt),
     ("events", .array (proof.events.map eventRecord)),
     ("evidence", .array (proof.evidence.map evidenceToCbor)),
     ("proof_id", .text proof.proofId),
     ("proposition", propositionToCbor proof.proposition),
     ("relationships", .array (proof.relationships.map relationshipToCbor)),
     ("v", .uint 1)]
    ++ (if withReferences then [("referenced_proofs", .array (proof.referencedProofs.map .text))] else [])
    ++ (if withVocabularies then [("vocabularies", .array (proof.vocabularies.map vocabularyToCbor))]
        else [])

def proofRecord (proof : Proof) (withReferences withVocabularies : Bool) : CborValue :=
  record (proofRecordFields proof withReferences withVocabularies)

def proofNames (withReferences withVocabularies : Bool) : List String :=
  ["attestations", "created_at", "events", "evidence", "proof_id", "proposition", "relationships", "v"]
    ++ (if withReferences then ["referenced_proofs"] else [])
    ++ (if withVocabularies then ["vocabularies"] else [])

theorem proofNames_nodup (withReferences withVocabularies : Bool) :
    (proofNames withReferences withVocabularies).Nodup := by
  cases withReferences <;> cases withVocabularies <;> decide

/-- Known keys are the fixed ones and those of the lists that are there. -/
theorem closed_proofNames {entries : Entries}
    (closed : ∀ entry ∈ entries, ∃ key ∈ proofFields, entry.1 = .text key) :
    ∀ entry ∈ entries, ∃ key ∈ proofNames (findField entries "referenced_proofs").isSome
      (findField entries "vocabularies").isSome, entry.1 = .text key := by
  intro entry member
  obtain ⟨key, known, same⟩ := closed entry member
  -- a key that occurs is found
  have present : (findField entries key).isSome := by
    rw [Option.isSome_iff_ne_none, ne_eq, findField_eq_none]
    exact fun nowhere => nowhere entry member same
  refine ⟨key, ?_, same⟩
  simp only [proofFields, List.mem_cons, List.not_mem_nil, or_false] at known
  rcases known with rfl | rfl | rfl | rfl | rfl | rfl | rfl | rfl | rfl | rfl <;>
    simp [proofNames, present]

theorem proofNames_eq (proof : Proof) (withReferences withVocabularies : Bool) :
    (proofRecordFields proof withReferences withVocabularies).map Prod.fst =
      proofNames withReferences withVocabularies := by
  cases withReferences <;> cases withVocabularies <;> rfl

theorem length_proofRecordFields (proof : Proof) (withReferences withVocabularies : Bool) :
    (proofRecordFields proof withReferences withVocabularies).length =
      8 + withReferences.toNat + withVocabularies.toNat := by
  cases withReferences <;> cases withVocabularies <;> rfl

theorem proofToCbor_eq_record {proof : Proof} (versions : ∀ event ∈ proof.events, event.v = 1) :
    proofToCbor proof =
      .ok (proofRecord proof (!proof.referencedProofs.isEmpty) (!proof.vocabularies.isEmpty)) := by
  have events : proof.events.mapM eventToCbor = .ok (proof.events.map eventRecord) := by
    rw [mapM_eq_ok, List.forall₂_map_right_iff, List.forall₂_same]
    exact fun event member => eventToCbor_of_version (versions event member)
  rw [proofToCbor, events]
  cases references : proof.referencedProofs.isEmpty <;> cases vocabularies : proof.vocabularies.isEmpty <;>
    simp [proofRecord, proofRecordFields]

/-- The parts of a parsed proof as they stand in the map. -/
structure ProofEntries (limits : Limits) (entries : Entries) (proof : Proof) : Prop where
  closed : ∀ entry ∈ entries, ∃ key ∈ proofFields, entry.1 = .text key
  version : findField entries "v" = some (.uint 1)
  proofId : findField entries "proof_id" = some (.text proof.proofId)
  createdAt : findField entries "created_at" = some (.uint proof.createdAt)
  proposition : ∃ value, findField entries "proposition" = some value ∧
    cborToProposition limits value = .ok proof.proposition
  events : ∃ items, findField entries "events" = some (.array items) ∧
    items.mapM (cborToEvent limits) = .ok proof.events
  attestations : ∃ items, findField entries "attestations" = some (.array items) ∧
    items.mapM (cborToAttestationEntry limits) = .ok proof.attestations
  evidence : ∃ items, findField entries "evidence" = some (.array items) ∧
    items.mapM (cborToEvidence limits) = .ok proof.evidence
  relationships : ∃ items, findField entries "relationships" = some (.array items) ∧
    items.mapM (cborToRelationship limits) = .ok proof.relationships
  references : cborToReferencedProofs limits entries = .ok proof.referencedProofs
  vocabularies : cborToVocabularies limits entries = .ok proof.vocabularies

theorem cborToProof_entries {value : CborValue} {proof : Proof} (done : cborToProof limits value = .ok proof) :
    proof.v = 1 ∧ ∃ entries, value = .map entries ∧ ProofEntries limits entries proof := by
  cases value with
  | map entries =>
    simp only [cborToProof, bind_eq_ok, checkClosed_eq_ok, checkVersion_eq_ok, textField_eq_ok] at done
    obtain ⟨_, closed, _, version, proofId, ⟨idFound, _⟩, done⟩ := done
    split at done
    · contradiction
    · simp only [bind_eq_ok, requireField_eq_ok, uintField_eq_ok, cborArray_eq_ok] at done
      obtain ⟨proposition, propositionFound, _, propositionDone, _, createdFound, events, eventsFound, _,
        eventsDone, attestations, attestationsFound, _, attestationsDone, evidence, evidenceFound, _,
        evidenceDone, relationships, relationshipsFound, _, relationshipsDone, _, referencesDone, done⟩ := done
      split at done
      · contradiction
      · split at done
        · contradiction
        · simp only [bind_eq_ok] at done
          obtain ⟨_, vocabulariesDone, done⟩ := done
          cases done
          exact ⟨rfl, entries, rfl, closed, version, idFound, createdFound,
            ⟨proposition, propositionFound, propositionDone⟩, ⟨events, eventsFound, eventsDone⟩,
            ⟨attestations, attestationsFound, attestationsDone⟩, ⟨evidence, evidenceFound, evidenceDone⟩,
            ⟨relationships, relationshipsFound, relationshipsDone⟩, referencesDone, vocabulariesDone⟩
  | _ => contradiction

/-- A map with the parts of a proof that keeps to the limits is parsed as it. -/
theorem cborToProof_of_entries {entries : Entries} {proof : Proof} (version : proof.v = 1)
    (parts : ProofEntries limits entries proof) (idBounded : BoundedText proof.proofId)
    (idLead : startsWith proof.proofId "prf:v1:" = true)
    (fewEdges : proof.relationships.length ≤ limits.maxEdges.toNat)
    (fewMembers : proof.events.length + proof.attestations.length + proof.evidence.length ≤ limits.maxNodes.toNat) :
    cborToProof limits (.map entries) = .ok proof := by
  obtain ⟨proposition, propositionFound, propositionDone⟩ := parts.proposition
  obtain ⟨events, eventsFound, eventsDone⟩ := parts.events
  obtain ⟨attestations, attestationsFound, attestationsDone⟩ := parts.attestations
  obtain ⟨evidence, evidenceFound, evidenceDone⟩ := parts.evidence
  obtain ⟨relationships, relationshipsFound, relationshipsDone⟩ := parts.relationships
  have known : checkClosed proofFields "Proof" entries = .ok () := checkClosed_eq_ok.mpr parts.closed
  have current : checkVersion entries = .ok () := checkVersion_eq_ok.mpr parts.version
  rw [cborToProof, known, ok_bind, current, ok_bind, textField_eq_ok.mpr ⟨parts.proofId, idBounded⟩, ok_bind, idLead,
    if_neg (by decide), requireField_eq_ok.mpr propositionFound, ok_bind, propositionDone, ok_bind,
    uintField_eq_ok.mpr parts.createdAt, ok_bind, cborArray_eq_ok.mpr eventsFound, ok_bind, eventsDone, ok_bind,
    cborArray_eq_ok.mpr attestationsFound, ok_bind, attestationsDone, ok_bind, cborArray_eq_ok.mpr evidenceFound,
    ok_bind, evidenceDone, ok_bind, cborArray_eq_ok.mpr relationshipsFound, ok_bind, relationshipsDone, ok_bind,
    parts.references, ok_bind, if_neg (not_lt.mpr fewEdges), if_neg (not_lt.mpr fewMembers), parts.vocabularies,
    ok_bind]
  cases proof
  cases version
  rfl

theorem cborToProof_versions {value : CborValue} {proof : Proof} (done : cborToProof limits value = .ok proof) :
    ∀ event ∈ proof.events, event.v = 1 := by
  obtain ⟨_, entries, _, parts⟩ := cborToProof_entries done
  obtain ⟨items, _, eventsDone⟩ := parts.events
  intro event member
  obtain ⟨item, _, parsed⟩ := exists_of_mem_mapM eventsDone member
  exact (cborToEvent_bounded parsed).version

/-- A canonical proof map is the record of the parsed proof with the optional lists it carries. -/
theorem cborToProof_canonical {entries : Entries} {proof : Proof}
    (canonical : Canonical limits (.map entries)) (parts : ProofEntries limits entries proof) :
    (proofRecord proof (findField entries "referenced_proofs").isSome
      (findField entries "vocabularies").isSome).sortMaps = .map entries := by
  obtain ⟨proposition, propositionFound, propositionDone⟩ := parts.proposition
  obtain ⟨events, eventsFound, eventsDone⟩ := parts.events
  obtain ⟨attestations, attestationsFound, attestationsDone⟩ := parts.attestations
  obtain ⟨evidence, evidenceFound, evidenceDone⟩ := parts.evidence
  obtain ⟨relationships, relationshipsFound, relationshipsDone⟩ := parts.relationships
  have eventsSame := mapM_canonical (canonical.findField eventsFound)
    (fun _ _ canonical => cborToEvent_canonical canonical) eventsDone
  have attestationsSame := mapM_canonical (canonical.findField attestationsFound)
    (fun _ _ canonical => cborToAttestationEntry_canonical canonical) attestationsDone
  have evidenceSame := mapM_canonical (canonical.findField evidenceFound)
    (fun _ _ canonical => cborToEvidence_canonical canonical) evidenceDone
  have relationshipsSame := mapM_canonical (canonical.findField relationshipsFound)
    (fun _ _ canonical => cborToRelationship_canonical canonical) relationshipsDone
  have propositionSame := cborToProposition_canonical (canonical.findField propositionFound) propositionDone
  refine sortMaps_record_of_fields (proofNames _ _) canonical.ascending (proofNames_eq _ _ _)
    (proofNames_nodup _ _) (closed_proofNames parts.closed) ?_
  rw [proofRecordFields, List.forall_mem_append, List.forall_mem_append]
  refine ⟨⟨?_, ?_⟩, ?_⟩
  · simp only [List.forall_mem_cons, List.not_mem_nil, false_implies, implies_true, and_true,
      eventsSame, attestationsSame, evidenceSame, relationshipsSame, propositionSame]
    exact ⟨attestationsFound, parts.createdAt, eventsFound, evidenceFound, parts.proofId,
      propositionFound, relationshipsFound, parts.version⟩
  · rcases cborToReferencedProofs_eq_ok canonical parts.references with ⟨absent, _⟩ | present
    · simp [absent]
    · simp [present]
  · rcases cborToVocabularies_eq_ok canonical parts.vocabularies with ⟨absent, _⟩ | present
    · simp [absent]
    · simp [present]

end

/-! ## When the bytes come back -/

/-- The map has an entry `key` whose value is the empty array. -/
def CarriesEmptyList (value : CborValue) (key : String) : Prop :=
  ∃ entries, value = .map entries ∧ findField entries key = some (.array [])

instance (value : CborValue) (key : String) : Decidable (CarriesEmptyList value key) :=
  match value with
  | .map entries => decidable_of_iff (findField entries key = some (.array [])) (by simp [CarriesEmptyList])
  | .uint _ | .nint _ | .bytes _ | .text _ | .array _ | .bool _ | .null => .isFalse (by simp [CarriesEmptyList])

theorem encodeCanonical_proofRecord_length {proof : Proof} {references vocabularies : Bool}
    {otherReferences otherVocabularies : Bool}
    (same : encodeCanonical (proofRecord proof references vocabularies) =
      encodeCanonical (proofRecord proof otherReferences otherVocabularies)) :
    references.toNat + vocabularies.toNat = otherReferences.toNat + otherVocabularies.toNat := by
  simp only [encodeCanonical, proofRecord, record] at same
  rw [encodeValue_map, encodeValue_map] at same
  -- the head of a map spells the number of its entries
  have counts := (encodeHead_append_inj (by decide) same).1
  rw [List.length_map, List.length_map, length_proofRecordFields, length_proofRecordFields] at counts
  have small : ∀ flag : Bool, flag.toNat ≤ 1 := Bool.toNat_le
  have := ofNat_extent_inj (by have := small references; have := small vocabularies; omega)
    (by have := small otherReferences; have := small otherVocabularies; omega) counts
  omega

/-- A non-empty optional list is written; the flags differ only for one written empty. -/
theorem optionalList_flags {α : Type} {items : List α} {encode : α → CborValue} {found : Option CborValue}
    (parsed : (found = none ∧ items = []) ∨ found = some (array (items.map encode)).sortMaps) :
    ((!items.isEmpty) = true → found.isSome = true) ∧
      ((!items.isEmpty) = found.isSome ↔ found ≠ some (.array [])) := by
  rcases parsed with ⟨rfl, rfl⟩ | rfl
  · simp
  · cases items with
    | nil => simp
    | cons item items => simp

theorem bool_eq_of_toNat_add_eq {first second otherFirst otherSecond : Bool}
    (firstLe : first = true → otherFirst = true) (secondLe : second = true → otherSecond = true)
    (sums : first.toNat + second.toNat = otherFirst.toNat + otherSecond.toNat) :
    first = otherFirst ∧ second = otherSecond := by
  revert firstLe secondLe sums
  cases first <;> cases second <;> cases otherFirst <;> cases otherSecond <;> decide

/-- Accepted proof bytes are re-encoded to themselves exactly when no optional list is written empty. -/
theorem proofBytes_reencode {bytes : Bytes} {limits : Limits} {value : CborValue} {proof : Proof}
    (decoded : decodeStrict bytes limits = .ok value) (parsed : cborToProof limits value = .ok proof) :
    (∃ encoded, proofToCbor proof = .ok encoded ∧ encodeCanonical encoded = bytes) ↔
      ¬ CarriesEmptyList value "referenced_proofs" ∧ ¬ CarriesEmptyList value "vocabularies" := by
  obtain ⟨whole, canonical⟩ := decodeStrict_sound decoded
  obtain ⟨_, entries, rfl, parts⟩ := cborToProof_entries parsed
  have restored := cborToProof_canonical canonical parts
  have encoded := proofToCbor_eq_record (cborToProof_versions parsed)
  -- the bytes spell the record with exactly the optional lists that were there
  have bytesAre : bytes = encodeCanonical (proofRecord proof
      (findField entries "referenced_proofs").isSome (findField entries "vocabularies").isSome) := by
    rw [whole, ← restored]
    exact encodeValue_sortMaps _
  have references := optionalList_flags (cborToReferencedProofs_eq_ok canonical parts.references)
  have vocabularies := optionalList_flags (cborToVocabularies_eq_ok canonical parts.vocabularies)
  have reencodes : (∃ encoded, proofToCbor proof = .ok encoded ∧ encodeCanonical encoded = bytes) ↔
      (!proof.referencedProofs.isEmpty) = (findField entries "referenced_proofs").isSome ∧
        (!proof.vocabularies.isEmpty) = (findField entries "vocabularies").isSome := by
    rw [encoded, bytesAre]
    constructor
    · rintro ⟨_, here, same⟩
      cases here
      -- two flags that can only be dropped, with one sum: both are kept
      have lengths := encodeCanonical_proofRecord_length same
      exact bool_eq_of_toNat_add_eq references.1 vocabularies.1 lengths
    · rintro ⟨sameReferences, sameVocabularies⟩
      exact ⟨_, rfl, by rw [sameReferences, sameVocabularies]⟩
  rw [reencodes, references.2, vocabularies.2]
  simp [CarriesEmptyList]

/-- Proof bytes come back from the parsed proof exactly when no optional list is written empty, and
    among such byte strings a proof has only one. -/
theorem proofBytes_nonmalleable_iff {bytes : Bytes} {limits : Limits} {value : CborValue} {proof : Proof}
    (decoded : decodeStrict bytes limits = .ok value) (parsed : cborToProof limits value = .ok proof) :
    ((∃ encoded, proofToCbor proof = .ok encoded ∧ encodeCanonical encoded = bytes) ↔
      ¬ CarriesEmptyList value "referenced_proofs" ∧ ¬ CarriesEmptyList value "vocabularies") ∧
    ∀ otherBytes otherLimits otherValue, decodeStrict otherBytes otherLimits = .ok otherValue →
      cborToProof otherLimits otherValue = .ok proof →
      ¬ CarriesEmptyList value "referenced_proofs" ∧ ¬ CarriesEmptyList value "vocabularies" →
      ¬ CarriesEmptyList otherValue "referenced_proofs" ∧ ¬ CarriesEmptyList otherValue "vocabularies" →
      otherBytes = bytes := by
  refine ⟨proofBytes_reencode decoded parsed, ?_⟩
  intro otherBytes otherLimits otherValue otherDecoded otherParsed omits otherOmits
  -- both byte strings are the encoding of the one proof
  obtain ⟨encoded, here, same⟩ := (proofBytes_reencode decoded parsed).mpr omits
  obtain ⟨otherEncoded, there, otherSame⟩ := (proofBytes_reencode otherDecoded otherParsed).mpr otherOmits
  rw [here] at there
  cases there
  exact otherSame.symm.trans same

/-- A proof without members, with `extra` entries in its map. -/
def bareProofMap (extra : List (String × CborValue)) : CborValue :=
  record ([("attestations", .array []), ("created_at", .uint 1700000000), ("events", .array []),
    ("evidence", .array []), ("proof_id", .text "prf:v1:x"),
    ("proposition", record [("at_time", .null), ("context", .map []), ("kind", .text "payment"),
      ("object", .null), ("predicate", .text "settled"), ("subject", .text "acct:1"), ("v", .uint 1)]),
    ("relationships", .array []), ("v", .uint 1)] ++ extra)

def bareProof : Proof where
  v := 1
  proofId := "prf:v1:x"
  proposition := { v := 1, kind := "payment", subject := "acct:1", predicate := "settled", object := none,
                   atTime := none, context := [] }
  events := []
  attestations := []
  evidence := []
  relationships := []
  referencedProofs := []
  vocabularies := []
  createdAt := 1700000000

/-- Evidence, a relationship and two references, and the map that spells them. -/
def citingProof : Proof :=
  { bareProof with
    evidence := [{ v := 1, kind := "ledger", digest := { v := 1, alg := .sha256, digest := List.replicate 32 0xab },
                   attestationRef := none, hint := some "ledger.csv" }]
    relationships := [{ v := 1, source := "acct:1", relType := RelType.equivalent, target := "acct:2",
                        evidenceRef := none, attestationRef := none }]
    referencedProofs :=
      ["prf:v1:1ZT0-YxD4AGKKxHJYqaN2ZLarVSWCohK_DgghpLkbZM", "prf:v1:eCfwxXSQgLKxtW-DQ3sdrKzl76CmAVlyV8XypRxCl7I"] }

def citingProofMap : CborValue :=
  record
    [("attestations", .array []), ("created_at", .uint 1700000000), ("events", .array []),
     ("evidence", .array [record
       [("attestation_ref", .null),
        ("digest", record [("alg", .uint 0), ("digest", .bytes (List.replicate 32 0xab)), ("v", .uint 1)]),
        ("hint", .text "ledger.csv"), ("kind", .text "ledger"), ("v", .uint 1)]]),
     ("proof_id", .text "prf:v1:x"),
     ("proposition", record [("at_time", .null), ("context", .map []), ("kind", .text "payment"),
       ("object", .null), ("predicate", .text "settled"), ("subject", .text "acct:1"), ("v", .uint 1)]),
     ("referenced_proofs", .array [.text "prf:v1:1ZT0-YxD4AGKKxHJYqaN2ZLarVSWCohK_DgghpLkbZM",
       .text "prf:v1:eCfwxXSQgLKxtW-DQ3sdrKzl76CmAVlyV8XypRxCl7I"]),
     ("relationships", .array [record
       [("attestation_ref", .null), ("evidence_ref", .null), ("from", .text "acct:1"), ("to", .text "acct:2"),
        ("type", .text "EQUIVALENT"), ("v", .uint 1)]]),
     ("v", .uint 1)]

theorem citingProof_bytes_kept :
    ∃ encoded, proofToCbor citingProof = .ok encoded ∧ encodeCanonical encoded = encodeCanonical citingProofMap := by
  have decoded : decodeStrict (encodeCanonical citingProofMap) Limits.default = .ok citingProofMap.sortMaps := by
    decide +kernel
  have parsed : cborToProof Limits.default citingProofMap.sortMaps = .ok citingProof := by decide +kernel
  exact (proofBytes_nonmalleable_iff decoded parsed).1.mpr ⟨by decide +kernel, by decide +kernel⟩
/-- An explicit empty `vocabularies` is accepted, parses to the same proof and is not written back. -/
theorem emptyVocabularies_malleable :
    encodeCanonical (bareProofMap [("vocabularies", .array [])]) ≠ encodeCanonical (bareProofMap []) ∧
    decodeStrict (encodeCanonical (bareProofMap [])) Limits.default = .ok (bareProofMap []).sortMaps ∧
    cborToProof Limits.default (bareProofMap []).sortMaps = .ok bareProof ∧
    decodeStrict (encodeCanonical (bareProofMap [("vocabularies", .array [])])) Limits.default =
      .ok (bareProofMap [("vocabularies", .array [])]).sortMaps ∧
    cborToProof Limits.default (bareProofMap [("vocabularies", .array [])]).sortMaps = .ok bareProof ∧
    ¬ ∃ encoded, proofToCbor bareProof = .ok encoded ∧
      encodeCanonical encoded = encodeCanonical (bareProofMap [("vocabularies", .array [])]) := by
  refine ⟨by decide +kernel, by decide +kernel, by decide +kernel, by decide +kernel, by decide +kernel, ?_⟩
  rintro ⟨encoded, here, same⟩
  have written : proofToCbor bareProof = .ok (bareProofMap []) := by decide +kernel
  rw [written] at here
  cases here
  exact absurd same (by decide +kernel)

end ProofEngine
