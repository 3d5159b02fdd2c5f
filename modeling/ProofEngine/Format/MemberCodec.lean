import ProofEngine.Format.CborInjective
import ProofEngine.Format.MemberRoundTrip

/-! # Member codecs

A codec pairs an encoder with its parser.  It re-encodes what it accepts, byte for byte, and
recovers every admissible member from its canonical bytes. -/

namespace ProofEngine

open StableSort Text CborValue

/-! ## Records have distinct keys and no negative numbers -/

/-- The head of a text is delimited, so equal encodings hold equal texts. -/
theorem encodeText_inj {left right : String}
    (same : encodeCanonical (.text left) = encodeCanonical (.text right)) : left = right := by
  simp only [encodeCanonical, encodeValue] at same
  exact utf8_injective (encodeHead_append_inj (by decide) same).2

/-- What the decoder requires of a value besides its limits and the order of its entries. -/
def Regular (value : CborValue) : Prop :=
  value.Everywhere fun part => part.DistinctEntries ∧ part.NegativeNint

theorem regular_record {fields : List (String × CborValue)} (names : List String)
    (keys : fields.map Prod.fst = names) (distinct : names.Nodup) (each : ∀ field ∈ fields, Regular field.2) :
    Regular (record fields) := by
  subst keys
  refine everywhere_map.mpr ⟨⟨?_, trivial⟩, ?_⟩
  · have separated := List.pairwise_map.mp distinct
    simp only [DistinctEntries, List.map_map, Function.comp_def]
    exact List.pairwise_map.mpr (separated.imp fun different same => different (encodeText_inj same))
  · intro pair member
    obtain ⟨field, fieldMember, rfl⟩ := List.mem_map.mp member
    refine ⟨?_, each field fieldMember⟩
    simp only [everywhere_text]
    exact ⟨trivial, trivial⟩

theorem regular_text (s : String) : Regular (.text s) := by
  simp only [Regular, everywhere_text]
  exact ⟨trivial, trivial⟩

theorem regular_uint (n : UInt64) : Regular (.uint n) := by
  simp only [Regular, everywhere_uint]
  exact ⟨trivial, trivial⟩

theorem regular_bytes (b : Bytes) : Regular (.bytes b) := by
  simp only [Regular, everywhere_bytes]
  exact ⟨trivial, trivial⟩

theorem regular_textOrNil (optional : Option String) : Regular (textOrNil optional) := by
  cases optional with
  | none =>
    simp only [Regular, textOrNil, everywhere_null]
    exact ⟨trivial, trivial⟩
  | some s => exact regular_text s

theorem regular_uintOrNil (optional : Option UInt64) : Regular (uintOrNil optional) := by
  cases optional with
  | none =>
    simp only [Regular, uintOrNil, everywhere_null]
    exact ⟨trivial, trivial⟩
  | some n => exact regular_uint n

theorem regular_metaValueToCbor (value : MetaValue) : Regular (metaValueToCbor value) := by
  cases value with
  | text s => exact regular_text s
  | uint n => exact regular_uint n
  | bool b =>
    simp only [Regular, metaValueToCbor, everywhere_bool]
    exact ⟨trivial, trivial⟩

theorem regular_metaToFields {entries : List (String × MetaValue)} :
    ∀ field ∈ metaToFields entries, Regular field.2 := by
  intro field member
  obtain ⟨entry, _, rfl⟩ := List.mem_map.mp member
  exact regular_metaValueToCbor entry.2

theorem metaToFields_keys (entries : List (String × MetaValue)) :
    (metaToFields entries).map Prod.fst = entries.map Prod.fst := by
  simp [metaToFields]

theorem regular_boundedMeta {entries : List (String × MetaValue)} (bounded : BoundedMeta entries) :
    Regular (record (metaToFields entries)) :=
  regular_record _ (metaToFields_keys entries) bounded.distinct regular_metaToFields

/-- The field names of the fixed records are distinct and their lengths fit a head. -/
theorem fieldNames_fit :
    ∀ names ∈ [["alg", "digest", "v"], ["type"], ["ns", "version"], eventFields, attestationFields,
        evidenceFields, relationshipFields, propositionFields],
      names.Nodup ∧ names.length < 2 ^ 64 ∧ ∀ name ∈ names, len name < 2 ^ 64 := by
  decide +kernel

theorem regular_hashrefToCbor (hash : HashRef) : Regular (hashrefToCbor hash) := by
  refine regular_record ["alg", "digest", "v"] rfl (fieldNames_fit ["alg", "digest", "v"] (by simp)).1 ?_
  simp only [List.forall_mem_cons, List.not_mem_nil, false_implies, implies_true, and_true]
  exact ⟨regular_uint _, regular_bytes _, regular_uint _⟩

theorem regular_claimToCbor {claim : Claim} (bounded : claim.Bounded) : Regular (claimToCbor claim) := by
  refine regular_record ("type" :: claim.fields.map Prod.fst) (by simp [metaToFields_keys]) ?_ ?_
  · refine List.nodup_cons.mpr ⟨fun repeated => ?_, bounded.distinct⟩
    obtain ⟨field, member, isType⟩ := List.mem_map.mp repeated
    exact (bounded.each field member).1 isType
  · exact List.forall_mem_cons.mpr ⟨regular_text _, regular_metaToFields⟩

theorem regular_eventRecord {event : EventContent} (bounded : event.Bounded) :
    Regular (eventRecord event) := by
  refine regular_record eventFields rfl (fieldNames_fit eventFields (by simp)).1 ?_
  simp only [List.forall_mem_cons, List.not_mem_nil, false_implies, implies_true, and_true]
  exact ⟨regular_uint _, regular_boundedMeta bounded.metadata, regular_hashrefToCbor _,
    regular_text _, regular_text _, regular_uint _⟩

theorem regular_attestationToCbor {content : AttestationContent} (bounded : content.Bounded) :
    Regular (attestationToCbor content) := by
  refine regular_record attestationFields rfl (fieldNames_fit attestationFields (by simp)).1 ?_
  simp only [List.forall_mem_cons, List.not_mem_nil, false_implies, implies_true, and_true]
  exact ⟨regular_claimToCbor bounded.claim, regular_textOrNil _, regular_uintOrNil _,
    regular_uint _, regular_text _, regular_text _, regular_uint _⟩

theorem regular_evidenceToCbor (evidence : Evidence) : Regular (evidenceToCbor evidence) := by
  refine regular_record evidenceFields rfl (fieldNames_fit evidenceFields (by simp)).1 ?_
  simp only [List.forall_mem_cons, List.not_mem_nil, false_implies, implies_true, and_true]
  exact ⟨regular_textOrNil _, regular_hashrefToCbor _, regular_textOrNil _, regular_text _,
    regular_uint _⟩

theorem regular_relationshipToCbor (relationship : Relationship) :
    Regular (relationshipToCbor relationship) := by
  refine regular_record relationshipFields rfl (fieldNames_fit relationshipFields (by simp)).1 ?_
  simp only [List.forall_mem_cons, List.not_mem_nil, false_implies, implies_true, and_true]
  exact ⟨regular_textOrNil _, regular_textOrNil _, regular_text _, regular_text _, regular_text _,
    regular_uint _⟩

theorem regular_propositionToCbor {proposition : Proposition} (bounded : proposition.Bounded) :
    Regular (propositionToCbor proposition) := by
  refine regular_record propositionFields rfl (fieldNames_fit propositionFields (by simp)).1 ?_
  simp only [List.forall_mem_cons, List.not_mem_nil, false_implies, implies_true, and_true]
  exact ⟨regular_uintOrNil _, regular_boundedMeta bounded.context, regular_text _,
    regular_textOrNil _, regular_text _, regular_text _, regular_uint _⟩

/-! ## Codecs -/

structure MemberCodec (α : Type) where
  toCbor : α → Result CborValue
  fromCbor : Limits → CborValue → Result α
  /-- The bounds the parser checks, with free-form entries in encoded-key order. -/
  Admissible : α → Prop

namespace MemberCodec

variable {α : Type}

/-- Accepted bytes are the canonical encoding of the parsed member. -/
def Reencodes (codec : MemberCodec α) : Prop :=
  ∀ bytes limits value member, decodeStrict bytes limits = .ok value →
    codec.fromCbor limits value = .ok member →
      ∃ encoded, codec.toCbor member = .ok encoded ∧ encodeCanonical encoded = bytes

/-- Admissible members are parsed back from their canonical bytes, at any limits that admit them. -/
def Recovers (codec : MemberCodec α) : Prop :=
  ∀ member, codec.Admissible member → ∃ encoded, codec.toCbor member = .ok encoded ∧
    ∀ limits, WithinLimits limits encoded → ∃ value,
      decodeStrict (encodeCanonical encoded) limits = .ok value ∧
        codec.fromCbor limits value = .ok member

variable {codec : MemberCodec α} {encode : α → CborValue}

theorem reencodes_of_canonical
    (encodes : ∀ limits value member, codec.fromCbor limits value = .ok member →
      codec.toCbor member = .ok (encode member))
    (canonicalParse : ∀ limits value member, Canonical limits value →
      codec.fromCbor limits value = .ok member → (encode member).sortMaps = value) :
    codec.Reencodes := by
  intro bytes limits value member decoded parsed
  obtain ⟨whole, canonical⟩ := decodeStrict_sound decoded
  refine ⟨encode member, encodes limits value member parsed, ?_⟩
  rw [whole, ← canonicalParse limits value member canonical parsed]
  exact (encodeValue_sortMaps (encode member)).symm

theorem recovers_of_regular
    (encodes : ∀ member, codec.Admissible member → codec.toCbor member = .ok (encode member))
    (regular : ∀ limits member, codec.Admissible member → WithinLimits limits (encode member) →
      Regular (encode member))
    (sortedParse : ∀ limits member, codec.Admissible member → WithinLimits limits (encode member) →
      codec.fromCbor limits (encode member).sortMaps = .ok member) :
    codec.Recovers := by
  intro member admissible
  refine ⟨encode member, encodes member admissible, fun limits within => ⟨(encode member).sortMaps, ?_,
    sortedParse limits member admissible within⟩⟩
  have regularHere := regular limits member admissible within
  exact decodeStrict_encodeCanonical_sortMaps (fun part inside => (regularHere part inside).1)
    (fun part inside => (regularHere part inside).2) within

end MemberCodec

/-- The entry count of a record within the limits. -/
theorem WithinLimits.record_length {limits : Limits} {fields : List (String × CborValue)}
    (within : WithinLimits limits (record fields)) : fields.length ≤ limits.maxMapEntries.toNat := by
  have admitted := within.extents.self
  simpa [Limits.Admits, record, extent, Limits.extentOf] using admitted

def eventCodec : MemberCodec EventContent where
  toCbor := eventToCbor
  fromCbor := cborToEvent
  Admissible event := event.Bounded ∧ OrderedMeta event.metadata

def attestationCodec : MemberCodec AttestationContent where
  toCbor content := .ok (attestationToCbor content)
  fromCbor := cborToAttestation
  Admissible content := content.Bounded ∧ OrderedMeta content.claim.fields

def evidenceCodec : MemberCodec Evidence where
  toCbor evidence := .ok (evidenceToCbor evidence)
  fromCbor := cborToEvidence
  Admissible evidence := evidence.Bounded

def relationshipCodec : MemberCodec Relationship where
  toCbor relationship := .ok (relationshipToCbor relationship)
  fromCbor := cborToRelationship
  Admissible relationship := relationship.Bounded

def propositionCodec : MemberCodec Proposition where
  toCbor proposition := .ok (propositionToCbor proposition)
  fromCbor := cborToProposition
  Admissible proposition := proposition.Bounded ∧ OrderedMeta proposition.context

theorem eventCodec_reencodes : eventCodec.Reencodes :=
  MemberCodec.reencodes_of_canonical
    (fun _ _ _ parsed => eventToCbor_of_version (cborToEvent_bounded parsed).version)
    (fun _ _ _ canonical parsed => cborToEvent_canonical canonical parsed)

theorem attestationCodec_reencodes : attestationCodec.Reencodes :=
  MemberCodec.reencodes_of_canonical (fun _ _ _ _ => rfl)
    (fun _ _ _ canonical parsed => cborToAttestation_canonical canonical parsed)

theorem evidenceCodec_reencodes : evidenceCodec.Reencodes :=
  MemberCodec.reencodes_of_canonical (fun _ _ _ _ => rfl)
    (fun _ _ _ canonical parsed => cborToEvidence_canonical canonical parsed)

theorem relationshipCodec_reencodes : relationshipCodec.Reencodes :=
  MemberCodec.reencodes_of_canonical (fun _ _ _ _ => rfl)
    (fun _ _ _ canonical parsed => cborToRelationship_canonical canonical parsed)

theorem propositionCodec_reencodes : propositionCodec.Reencodes :=
  MemberCodec.reencodes_of_canonical (fun _ _ _ _ => rfl)
    (fun _ _ _ canonical parsed => cborToProposition_canonical canonical parsed)

theorem eventCodec_recovers : eventCodec.Recovers :=
  MemberCodec.recovers_of_regular
    (fun _ admissible => eventToCbor_of_version admissible.1.version)
    (fun _ _ admissible _ => regular_eventRecord admissible.1)
    (fun _ _ admissible within => cborToEvent_sortMaps admissible.1 admissible.2 within.record_length)

theorem attestationCodec_recovers : attestationCodec.Recovers :=
  MemberCodec.recovers_of_regular (fun _ _ => rfl)
    (fun _ _ admissible _ => regular_attestationToCbor admissible.1)
    (fun _ _ admissible within => cborToAttestation_sortMaps admissible.1 admissible.2 within.record_length)

theorem evidenceCodec_recovers : evidenceCodec.Recovers :=
  MemberCodec.recovers_of_regular (fun _ _ => rfl) (fun _ evidence _ _ => regular_evidenceToCbor evidence)
    (fun _ _ admissible within => cborToEvidence_sortMaps admissible within.record_length)

theorem relationshipCodec_recovers : relationshipCodec.Recovers :=
  MemberCodec.recovers_of_regular (fun _ _ => rfl)
    (fun _ relationship _ _ => regular_relationshipToCbor relationship)
    (fun _ _ admissible within => cborToRelationship_sortMaps admissible within.record_length)

theorem propositionCodec_recovers : propositionCodec.Recovers :=
  MemberCodec.recovers_of_regular (fun _ _ => rfl)
    (fun _ _ admissible _ => regular_propositionToCbor admissible.1)
    (fun _ _ admissible within => cborToProposition_sortMaps admissible.1 admissible.2 within.record_length)

end ProofEngine
