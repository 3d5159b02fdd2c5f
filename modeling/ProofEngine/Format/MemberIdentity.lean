import ProofEngine.Format.ProofBytes

/-! # What an encoding determines

Equal canonical encodings come from records with the same fields, and records with the same fields
from members that agree up to the order in which free-form entries are stored.  Members parsed from
strictly decoded bytes store them in encoded-key order, so these agree exactly. -/

namespace ProofEngine

open StableSort Text CborValue

/-! ## Values whose encoding determines them -/

/-- The encoding determines the value up to the stored order of map entries. -/
def Sized (value : CborValue) : Prop :=
  value.Everywhere fun part => part.NegativeNint ∧ part.Addressable

theorem Sized.sortMaps_eq {value other : CborValue} (sized : Sized value) (otherSized : Sized other)
    (same : encodeCanonical value = encodeCanonical other) : value.sortMaps = other.sortMaps :=
  (encodeCanonical_delimited (fun part inside => (sized part inside).2)
    (fun part inside => (otherSized part inside).2) (fun part inside => (sized part inside).1)
    (fun part inside => (otherSized part inside).1) (congrArg (· ++ []) same)).1

theorem sized_uint (n : UInt64) : Sized (.uint n) := by
  simp only [Sized, everywhere_uint]
  exact ⟨trivial, by simp [Addressable, extent]⟩

theorem sized_bool (b : Bool) : Sized (.bool b) := by
  simp only [Sized, everywhere_bool]
  exact ⟨trivial, by simp [Addressable, extent]⟩

theorem sized_null : Sized .null := by
  simp only [Sized, everywhere_null]
  exact ⟨trivial, by simp [Addressable, extent]⟩

theorem sized_text {s : String} (small : len s < 2 ^ 64) : Sized (.text s) := by
  simp only [Sized, everywhere_text]
  exact ⟨trivial, small⟩

theorem sized_bytes {b : Bytes} (small : b.length < 2 ^ 64) : Sized (.bytes b) := by
  simp only [Sized, everywhere_bytes]
  exact ⟨trivial, small⟩

theorem sized_array {items : List CborValue} (small : items.length < 2 ^ 64)
    (each : ∀ item ∈ items, Sized item) : Sized (.array items) :=
  everywhere_array.mpr ⟨⟨trivial, small⟩, each⟩

theorem sized_record {fields : List (String × CborValue)} (small : fields.length < 2 ^ 64)
    (names : ∀ field ∈ fields, len field.1 < 2 ^ 64) (each : ∀ field ∈ fields, Sized field.2) :
    Sized (record fields) := by
  refine everywhere_map.mpr ⟨⟨trivial, ?_⟩, ?_⟩
  · simpa [Addressable, extent] using small
  · intro pair member
    obtain ⟨field, fieldMember, rfl⟩ := List.mem_map.mp member
    exact ⟨sized_text (names field fieldMember), each field fieldMember⟩

/-- A record with short fixed names is sized when its fields are. -/
theorem sized_record_of_names {fields : List (String × CborValue)} (names : List String)
    (keys : fields.map Prod.fst = names) (short : names.length < 2 ^ 64 ∧ ∀ name ∈ names, len name < 2 ^ 64)
    (each : ∀ field ∈ fields, Sized field.2) : Sized (record fields) := by
  subst keys
  refine sized_record (by simpa using short.1) (fun field member => ?_) each
  exact short.2 field.1 (List.mem_map_of_mem member)

theorem BoundedText.sized {s : String} (bounded : BoundedText s) : Sized (.text s) :=
  sized_text (lt_of_le_of_lt bounded.2 (by decide))

theorem sized_textOrNil {optional : Option String} (bounded : ∀ s ∈ optional, BoundedText s) :
    Sized (textOrNil optional) := by
  cases optional with
  | none => exact sized_null
  | some s => exact (bounded s rfl).sized

theorem sized_uintOrNil (optional : Option UInt64) : Sized (uintOrNil optional) := by
  cases optional with
  | none => exact sized_null
  | some n => exact sized_uint n

theorem sized_metaValueToCbor {value : MetaValue} (bounded : value.Bounded) :
    Sized (metaValueToCbor value) := by
  cases value with
  | text s => exact sized_text (lt_of_le_of_lt bounded (by decide))
  | uint n => exact sized_uint n
  | bool b => exact sized_bool b

theorem sized_metaToFields {entries : List (String × MetaValue)}
    (bounded : ∀ entry ∈ entries, entry.2.Bounded) : ∀ field ∈ metaToFields entries, Sized field.2 := by
  intro field member
  obtain ⟨entry, entryMember, rfl⟩ := List.mem_map.mp member
  exact sized_metaValueToCbor (bounded entry entryMember)

theorem BoundedMeta.sized {entries : List (String × MetaValue)} (bounded : BoundedMeta entries) :
    Sized (record (metaToFields entries)) := by
  refine sized_record ?_ (fun field member => ?_)
    (sized_metaToFields fun entry member => (bounded.each entry member).2)
  · have := bounded.count
    simp only [metaToFields, List.length_map]
    omega
  · obtain ⟨entry, entryMember, rfl⟩ := List.mem_map.mp member
    exact lt_of_le_of_lt (bounded.each entry entryMember).1 (by decide)

theorem HashRef.Bounded.sized {hash : HashRef} (bounded : hash.Bounded) : Sized (hashrefToCbor hash) := by
  have small : hash.digest.length < 2 ^ 64 := by
    rw [bounded.length]
    cases hash.alg <;> decide
  refine sized_record_of_names ["alg", "digest", "v"] rfl (fieldNames_fit ["alg", "digest", "v"] (by simp)).2 ?_
  simp only [List.forall_mem_cons, List.not_mem_nil, false_implies, implies_true, and_true]
  exact ⟨sized_uint _, sized_bytes small, sized_uint _⟩

/-- The keys of claim fields are texts of the input, so they are addressable. -/
def Claim.KeysSmall (claim : Claim) : Prop := ∀ field ∈ claim.fields, len field.1 < 2 ^ 64

theorem Claim.Bounded.sized {claim : Claim} (bounded : claim.Bounded) (small : claim.KeysSmall) :
    Sized (claimToCbor claim) := by
  obtain ⟨_, _, typeSmall⟩ := fieldNames_fit ["type"] (by simp)
  refine sized_record ?_ ?_ ?_
  · have := bounded.count
    simp only [metaToFields, List.length_cons, List.length_map]
    omega
  · refine List.forall_mem_cons.mpr ⟨typeSmall _ (.head _), fun field member => ?_⟩
    obtain ⟨entry, entryMember, rfl⟩ := List.mem_map.mp member
    exact small entry entryMember
  · refine List.forall_mem_cons.mpr ⟨sized_text (lt_of_le_of_lt bounded.typeText.2 (by decide)), ?_⟩
    exact sized_metaToFields fun field member => (bounded.each field member).2

theorem EventContent.Bounded.sized {event : EventContent} (bounded : event.Bounded) :
    Sized (eventRecord event) := by
  refine sized_record_of_names eventFields rfl (fieldNames_fit eventFields (by simp)).2 ?_
  simp only [List.forall_mem_cons, List.not_mem_nil, false_implies, implies_true, and_true]
  exact ⟨sized_uint _, bounded.metadata.sized, bounded.payloadRef.sized, bounded.subject.sized,
    bounded.eventType.sized, sized_uint _⟩

theorem AttestationContent.Bounded.sized {content : AttestationContent} (bounded : content.Bounded)
    (small : content.claim.KeysSmall) : Sized (attestationToCbor content) := by
  refine sized_record_of_names attestationFields rfl (fieldNames_fit attestationFields (by simp)).2 ?_
  simp only [List.forall_mem_cons, List.not_mem_nil, false_implies, implies_true, and_true]
  exact ⟨bounded.claim.sized small, sized_textOrNil fun s member => (bounded.evidenceRef s member).1,
    sized_uintOrNil _, sized_uint _, bounded.issuer.sized, bounded.subject.sized, sized_uint _⟩

theorem Evidence.Bounded.sized {evidence : Evidence} (bounded : evidence.Bounded) :
    Sized (evidenceToCbor evidence) := by
  refine sized_record_of_names evidenceFields rfl (fieldNames_fit evidenceFields (by simp)).2 ?_
  simp only [List.forall_mem_cons, List.not_mem_nil, false_implies, implies_true, and_true]
  exact ⟨sized_textOrNil fun s member => (bounded.attestationRef s member).1, bounded.digest.sized,
    sized_textOrNil fun s member => (bounded.hint s member).1, bounded.kind.sized, sized_uint _⟩

theorem Relationship.Bounded.sized {relationship : Relationship} (bounded : relationship.Bounded) :
    Sized (relationshipToCbor relationship) := by
  refine sized_record_of_names relationshipFields rfl (fieldNames_fit relationshipFields (by simp)).2 ?_
  simp only [List.forall_mem_cons, List.not_mem_nil, false_implies, implies_true, and_true]
  exact ⟨sized_textOrNil fun s member => (bounded.attestationRef s member).1,
    sized_textOrNil fun s member => (bounded.evidenceRef s member).1, bounded.source.sized,
    bounded.target.sized, bounded.relType.sized, sized_uint _⟩

theorem Proposition.Bounded.sized {proposition : Proposition} (bounded : proposition.Bounded) :
    Sized (propositionToCbor proposition) := by
  refine sized_record_of_names propositionFields rfl (fieldNames_fit propositionFields (by simp)).2 ?_
  simp only [List.forall_mem_cons, List.not_mem_nil, false_implies, implies_true, and_true]
  exact ⟨sized_uintOrNil _, bounded.context.sized, bounded.kind.sized, sized_textOrNil bounded.object,
    bounded.predicate.sized, bounded.subject.sized, sized_uint _⟩

/-! ## Entry order -/

/-- Free-form entries in the order of their encoded keys. -/
def entriesInKeyOrder (entries : List (String × MetaValue)) : List (String × MetaValue) :=
  sortOn (fun entry => encodeCanonical (.text entry.1)) entries

def EventContent.inKeyOrder (event : EventContent) : EventContent :=
  { event with metadata := entriesInKeyOrder event.metadata }

def Claim.inKeyOrder (claim : Claim) : Claim :=
  { claim with fields := entriesInKeyOrder claim.fields }

def AttestationContent.inKeyOrder (content : AttestationContent) : AttestationContent :=
  { content with claim := content.claim.inKeyOrder }

def Proposition.inKeyOrder (proposition : Proposition) : Proposition :=
  { proposition with context := entriesInKeyOrder proposition.context }

theorem metaValueToCbor_injective : Function.Injective metaValueToCbor := by
  intro left right same
  cases left <;> cases right <;> simp_all [metaValueToCbor]

theorem metaEntries_injective : Function.Injective metaEntries := by
  refine List.map_injective_iff.mpr fun left right same => ?_
  simp only [Prod.mk.injEq, CborValue.text.injEq] at same
  exact Prod.ext same.1 (metaValueToCbor_injective same.2)

theorem sortOn_metaEntries (entries : List (String × MetaValue)) :
    sortOn (fun entry => encodeCanonical entry.1) (metaEntries entries) =
      metaEntries (entriesInKeyOrder entries) :=
  sortOn_map _ _ entries

theorem sortMaps_metaRecord (entries : List (String × MetaValue)) :
    (record (metaToFields entries)).sortMaps = .map (metaEntries (entriesInKeyOrder entries)) := by
  rw [sortMaps_record, map_sortMaps_metaToFields, sortOn_metaEntries]

theorem sortMaps_metaRecord_inj {entries others : List (String × MetaValue)}
    (same : (record (metaToFields entries)).sortMaps = (record (metaToFields others)).sortMaps) :
    entriesInKeyOrder entries = entriesInKeyOrder others := by
  rw [sortMaps_metaRecord, sortMaps_metaRecord, CborValue.map.injEq] at same
  exact metaEntries_injective same

/-- Sorted records with the same field names agree field by field. -/
theorem sortMaps_record_inj {fields others : List (String × CborValue)} (names : List String)
    (keys : fields.map Prod.fst = names) (otherKeys : others.map Prod.fst = names) (distinct : names.Nodup)
    (same : (record fields).sortMaps = (record others).sortMaps) :
    fields.map (fun field => field.2.sortMaps) = others.map fun field => field.2.sortMaps := by
  -- look the names up in the sorted map: the values found do not depend on the order
  have values : ∀ {fields : List (String × CborValue)} {entries : Entries},
      (record fields).sortMaps = .map entries → fields.map Prod.fst = names →
        fields.map (fun field => some field.2.sortMaps) = names.map (findField entries) := by
    intro fields entries sorted keys
    rw [← keys, List.map_map]
    refine List.map_congr_left fun field member => ?_
    exact (findField_sortMaps_record names sorted keys distinct field member).symm
  have here := values (sortMaps_record fields) keys
  have there := values (same.symm.trans (sortMaps_record fields)) otherKeys
  refine List.map_injective_iff.mpr (Option.some_injective CborValue) ?_
  simpa [List.map_map, Function.comp_def] using here.trans there.symm

theorem textOrNil_injective : Function.Injective textOrNil := by
  intro left right same
  cases left <;> cases right <;> simp_all [textOrNil]

theorem uintOrNil_injective : Function.Injective uintOrNil := by
  intro left right same
  cases left <;> cases right <;> simp_all [uintOrNil]

theorem cborEnum_injective : Function.Injective HashAlgorithm.cborEnum := by
  intro left right same
  cases left <;> cases right <;> first | rfl | exact absurd same (by decide)

theorem toUInt64_injective : Function.Injective UInt8.toUInt64 := by
  intro left right same
  exact UInt8.toUInt64_inj.mp same

theorem sortMaps_hashrefToCbor_inj {hash other : HashRef}
    (same : (hashrefToCbor hash).sortMaps = (hashrefToCbor other).sortMaps) : hash = other := by
  have fields := sortMaps_record_inj ["alg", "digest", "v"] rfl rfl (by decide) same
  simp only [List.map_cons, List.map_nil, CborValue.sortMaps, List.cons.injEq, CborValue.uint.injEq,
    CborValue.bytes.injEq, and_true] at fields
  obtain ⟨alg, digest, version⟩ := fields
  cases hash
  cases other
  simp only [HashRef.mk.injEq]
  exact ⟨toUInt64_injective version, cborEnum_injective alg, digest⟩

theorem sortMaps_claimToCbor (claim : Claim) :
    (claimToCbor claim).sortMaps = .map (sortOn (fun entry => encodeCanonical entry.1)
      ((.text "type", .text claim.claimType) :: metaEntries claim.fields)) := by
  rw [claimToCbor, sortMaps_record, sortMaps_claimFields]

theorem Claim.Bounded.type_not_mem {claim : Claim} (bounded : claim.Bounded) (value : CborValue) :
    (CborValue.text "type", value) ∉ metaEntries claim.fields := by
  intro member
  obtain ⟨field, fieldMember, same⟩ := List.mem_map.mp member
  simp only [Prod.mk.injEq, CborValue.text.injEq] at same
  exact (bounded.each field fieldMember).1 same.1

theorem sortMaps_claimToCbor_inj {claim other : Claim} (bounded : claim.Bounded) (otherBounded : other.Bounded)
    (same : (claimToCbor claim).sortMaps = (claimToCbor other).sortMaps) :
    claim.inKeyOrder = other.inKeyOrder := by
  rw [sortMaps_claimToCbor, sortMaps_claimToCbor, CborValue.map.injEq] at same
  have types : claim.claimType = other.claimType := by
    have member : (CborValue.text "type", CborValue.text claim.claimType) ∈
        (CborValue.text "type", CborValue.text other.claimType) :: metaEntries other.fields :=
      mem_sortOn.mp (same ▸ mem_sortOn.mpr List.mem_cons_self)
    rcases List.mem_cons.mp member with here | there
    · simpa using here
    · exact absurd there (otherBounded.type_not_mem _)
  rw [← types] at same
  -- the entry of the claim type is the same on both sides, the other fields are left
  have fields := sortOn_cons_cancel (bounded.type_not_mem _) (otherBounded.type_not_mem _) same
  rw [sortOn_metaEntries, sortOn_metaEntries] at fields
  simp only [Claim.inKeyOrder, types, metaEntries_injective fields]

/-! ## Members -/

theorem sortMaps_eventRecord_inj {event other : EventContent} (versions : event.v = other.v)
    (same : (eventRecord event).sortMaps = (eventRecord other).sortMaps) :
    event.inKeyOrder = other.inKeyOrder := by
  have fields := sortMaps_record_inj eventFields rfl rfl (by decide) same
  simp only [List.map_cons, List.map_nil, CborValue.sortMaps, List.cons.injEq, CborValue.uint.injEq,
    CborValue.text.injEq, and_true] at fields
  obtain ⟨effectiveAt, metadata, payloadRef, subject, eventType⟩ := fields
  simp only [EventContent.inKeyOrder, EventContent.mk.injEq]
  exact ⟨versions, eventType, subject, effectiveAt, sortMaps_hashrefToCbor_inj payloadRef,
    sortMaps_metaRecord_inj metadata⟩

theorem sortMaps_attestationToCbor_inj {content other : AttestationContent} (bounded : content.Bounded)
    (otherBounded : other.Bounded)
    (same : (attestationToCbor content).sortMaps = (attestationToCbor other).sortMaps) :
    content.inKeyOrder = other.inKeyOrder := by
  have fields := sortMaps_record_inj attestationFields rfl rfl (by decide) same
  simp only [List.map_cons, List.map_nil, sortMaps_textOrNil, sortMaps_uintOrNil, CborValue.sortMaps,
    List.cons.injEq, CborValue.uint.injEq, CborValue.text.injEq, and_true] at fields
  obtain ⟨claim, evidenceRef, expiresAt, issuedAt, issuer, subject, version⟩ := fields
  simp only [AttestationContent.inKeyOrder, AttestationContent.mk.injEq]
  exact ⟨toUInt64_injective version, issuer, subject,
    sortMaps_claimToCbor_inj bounded.claim otherBounded.claim claim, issuedAt,
    uintOrNil_injective expiresAt, textOrNil_injective evidenceRef⟩

theorem sortMaps_evidenceToCbor_inj {evidence other : Evidence}
    (same : (evidenceToCbor evidence).sortMaps = (evidenceToCbor other).sortMaps) : evidence = other := by
  have fields := sortMaps_record_inj evidenceFields rfl rfl (by decide) same
  simp only [List.map_cons, List.map_nil, sortMaps_textOrNil, CborValue.sortMaps,
    List.cons.injEq, CborValue.uint.injEq, CborValue.text.injEq, and_true] at fields
  obtain ⟨attestationRef, digest, hint, kind, version⟩ := fields
  cases evidence
  cases other
  simp only [Evidence.mk.injEq]
  exact ⟨toUInt64_injective version, kind, sortMaps_hashrefToCbor_inj digest,
    textOrNil_injective attestationRef, textOrNil_injective hint⟩

theorem sortMaps_relationshipToCbor_inj {relationship other : Relationship}
    (same : (relationshipToCbor relationship).sortMaps = (relationshipToCbor other).sortMaps) :
    relationship = other := by
  have fields := sortMaps_record_inj relationshipFields rfl rfl (by decide) same
  simp only [List.map_cons, List.map_nil, sortMaps_textOrNil, CborValue.sortMaps,
    List.cons.injEq, CborValue.uint.injEq, CborValue.text.injEq, and_true] at fields
  obtain ⟨attestationRef, evidenceRef, source, target, relType, version⟩ := fields
  cases relationship
  cases other
  simp only [Relationship.mk.injEq]
  exact ⟨toUInt64_injective version, source, relType, target, textOrNil_injective evidenceRef,
    textOrNil_injective attestationRef⟩

theorem sortMaps_propositionToCbor_inj {proposition other : Proposition}
    (same : (propositionToCbor proposition).sortMaps = (propositionToCbor other).sortMaps) :
    proposition.inKeyOrder = other.inKeyOrder := by
  have fields := sortMaps_record_inj propositionFields rfl rfl (by decide) same
  simp only [List.map_cons, List.map_nil, sortMaps_textOrNil, sortMaps_uintOrNil, CborValue.sortMaps,
    List.cons.injEq, CborValue.uint.injEq, CborValue.text.injEq, and_true] at fields
  obtain ⟨atTime, context, kind, object, predicate, subject, version⟩ := fields
  simp only [Proposition.inKeyOrder, Proposition.mk.injEq]
  exact ⟨toUInt64_injective version, kind, subject, predicate, textOrNil_injective object,
    uintOrNil_injective atTime, sortMaps_metaRecord_inj context⟩

theorem sortMaps_vocabularyToCbor_injective :
    Function.Injective fun declared => (vocabularyToCbor declared).sortMaps := by
  intro declared other same
  have fields := sortMaps_record_inj ["ns", "version"] rfl rfl (by decide) same
  simp only [List.map_cons, List.map_nil, CborValue.sortMaps, List.cons.injEq, CborValue.uint.injEq,
    CborValue.text.injEq, and_true] at fields
  obtain ⟨ns, version⟩ := fields
  cases declared
  cases other
  simp only [VocabularyDecl.mk.injEq]
  exact ⟨ns, version⟩

/-! ## Members parsed from canonical bytes -/

section
variable {limits : Limits} {value : CborValue}

theorem inKeyOrder_of_sortMaps {entries : List (String × MetaValue)}
    (sorted : (record (metaToFields entries)).sortMaps = record (metaToFields entries)) :
    entriesInKeyOrder entries = entries := by
  rw [sortMaps_metaRecord, record_metaToFields, CborValue.map.injEq] at sorted
  exact metaEntries_injective sorted

theorem cborToEvent_inKeyOrder {event : EventContent} (canonical : Canonical limits value)
    (done : cborToEvent limits value = .ok event) : event.inKeyOrder = event := by
  obtain ⟨entries, rfl, _, _, _, _, _, _, _, metaFound, _⟩ := cborToEvent_eq_ok.mp done
  rw [EventContent.inKeyOrder, inKeyOrder_of_sortMaps (canonical.findField metaFound).sortMaps_eq]

theorem cborToProposition_inKeyOrder {proposition : Proposition} (canonical : Canonical limits value)
    (done : cborToProposition limits value = .ok proposition) : proposition.inKeyOrder = proposition := by
  obtain ⟨entries, rfl, _, _, _, _, _, _, _, _, metaFound, _⟩ := cborToProposition_eq_ok.mp done
  rw [Proposition.inKeyOrder, inKeyOrder_of_sortMaps (canonical.findField metaFound).sortMaps_eq]

/-- Claim fields are read in the order in which they stand in the map. -/
theorem claimFromEntries_sublist {seen : List String} {claimType found : Option String}
    {entries : Entries} {fields : List (String × MetaValue)}
    (done : claimFromEntries seen claimType entries = .ok (found, fields)) :
    (metaEntries fields).Sublist entries := by
  -- the loop only drops entries, it never reorders them
  induction entries generalizing seen claimType found fields with
  | nil =>
    cases done
    exact .slnil
  | cons entry entries inductionHypothesis =>
    obtain ⟨entryKey, value⟩ := entry
    cases entryKey with
    | text key =>
      rw [claimFromEntries] at done
      split at done
      · cases done
      · split at done
        · simp only [bind_eq_ok] at done
          obtain ⟨_, _, done⟩ := done
          exact (inductionHypothesis done).cons _
        · simp only [bind_eq_ok, metaValueFromCbor_eq_ok] at done
          obtain ⟨first, ⟨rfl, _⟩, ⟨later, others⟩, othersDone, done⟩ := done
          cases done
          exact (inductionHypothesis othersDone).cons_cons _
    | _ => cases done

theorem cborToClaim_sublist {claim : Claim} (done : cborToClaim value = .ok claim) :
    ∃ entries, value = .map entries ∧ (metaEntries claim.fields).Sublist entries := by
  cases value with
  | map entries =>
    simp only [cborToClaim] at done
    split at done
    · cases done
    · simp only [bind_eq_ok] at done
      obtain ⟨⟨found, fields⟩, entriesDone, done⟩ := done
      cases found with
      | none => cases done
      | some claimType =>
        cases done
        exact ⟨entries, rfl, claimFromEntries_sublist entriesDone⟩
  | _ => cases done

theorem cborToAttestation_ordered {content : AttestationContent} (canonical : Canonical limits value)
    (done : cborToAttestation limits value = .ok content) : OrderedMeta content.claim.fields := by
  obtain ⟨entries, rfl, _, _, _, _, _, _, _, _, ⟨claim, claimFound, claimDone⟩, _⟩ :=
    cborToAttestation_eq_ok.mp done
  obtain ⟨claimEntries, rfl, sublist⟩ := cborToClaim_sublist claimDone
  have ascending := (canonical.findField claimFound).ascending.sublist sublist
  simpa [OrderedMeta, Ascending, metaEntries, List.pairwise_map] using ascending

theorem cborToAttestation_inKeyOrder {content : AttestationContent} (canonical : Canonical limits value)
    (done : cborToAttestation limits value = .ok content) : content.inKeyOrder = content := by
  have fieldsSorted : entriesInKeyOrder content.claim.fields = content.claim.fields :=
    sortOn_of_strict (cborToAttestation_ordered canonical done)
  rw [AttestationContent.inKeyOrder, Claim.inKeyOrder, fieldsSorted]

/-- Claim keys of an attestation in memory are addressable. -/
theorem cborToAttestation_keysSmall {content : AttestationContent} (addressable : value.Everywhere Addressable)
    (done : cborToAttestation limits value = .ok content) : content.claim.KeysSmall := by
  obtain ⟨entries, rfl, _, _, _, _, _, _, _, _, ⟨claim, claimFound, claimDone⟩, _⟩ :=
    cborToAttestation_eq_ok.mp done
  obtain ⟨claimEntries, rfl, sublist⟩ := cborToClaim_sublist claimDone
  have claimAddressable := ((everywhere_map.mp addressable).2 _ (mem_of_findField claimFound)).2
  intro field member
  -- the fields of a claim are entries of its map
  have inClaim := sublist.subset (List.mem_map_of_mem member)
  exact ((everywhere_map.mp claimAddressable).2 _ inClaim).1.self

end

end ProofEngine
