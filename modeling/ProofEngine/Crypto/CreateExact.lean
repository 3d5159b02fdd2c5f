import ProofEngine.Crypto.Create
import ProofEngine.Format.CborExact

/-! # Which events and attestations can be created

A member with free-form fields is created exactly when its fields are within their bounds, the free-form ones are in
key order and its record fits the limits.  Two such events with one id are one event. -/

namespace ProofEngine

open StableSort CborValue

/-- An event that survives being written and read back. -/
structure EventContent.Storable (limits : Limits) (content : EventContent) : Prop where
  bounded : content.Bounded
  ordered : OrderedMeta content.metadata
  within : WithinLimits limits (eventRecord content).sortMaps

def createdEvent (primitives : Primitives) (content : EventContent) : CreatedEvent where
  content := content
  canonical := encodeCanonical (eventRecord content)
  id := eventId primitives (encodeCanonical (eventRecord content))

section
variable {primitives : Primitives} {limits : Limits} {content other : EventContent}

theorem encodeCanonical_sortMaps (value : CborValue) : encodeCanonical value.sortMaps = encodeCanonical value :=
  encodeValue_sortMaps value

theorem StrictlyEncodes.within {value : CborValue} {bytes : Bytes} (written : StrictlyEncodes limits value bytes) :
    WithinLimits limits value where
  extents := fun part member => (written.canonical part member).admitted
  depth := written.depth
  size := by rw [← written.encoded]; exact written.size

/-- A regular value that fits in canonical order is read back in that order. -/
theorem decodeStrict_of_sortMaps_within {value : CborValue} (regular : Regular value)
    (within : WithinLimits limits value.sortMaps) :
    decodeStrict (encodeCanonical value) limits = .ok value.sortMaps := by
  have distinct : value.sortMaps.Everywhere DistinctEntries :=
    everywhere_sortMaps distinctEntries_sortMaps fun part inside => (regular part inside).1
  have negative : value.sortMaps.Everywhere NegativeNint :=
    everywhere_sortMaps negativeNint_sortMaps fun part inside => (regular part inside).2
  have decoded := decodeStrict_encodeCanonical_sortMaps distinct negative within
  rwa [encodeCanonical_sortMaps, sortMaps_eq_self (orderedEntries_sortMaps value)] at decoded

theorem orderedMeta_of_canonical {entries : List (String × MetaValue)}
    (canonical : Canonical limits (record (metaToFields entries))) : OrderedMeta entries := by
  rw [record_metaToFields] at canonical
  have ascending := canonical.ascending
  rwa [Ascending, metaEntries, List.pairwise_map] at ascending

theorem storable_of_read {value : CborValue}
    (written : StrictlyEncodes limits value (encodeCanonical (eventRecord content)))
    (parsed : cborToEvent limits value = .ok content) : content.Storable limits where
  bounded := cborToEvent_bounded parsed
  ordered := by
    obtain ⟨entries, rfl, _, _, _, _, _, _, _, metaFound, _⟩ := cborToEvent_eq_ok.mp parsed
    exact orderedMeta_of_canonical (written.canonical.findField metaFound)
  within := by
    rw [cborToEvent_canonical written.canonical parsed]
    exact written.within

theorem EventContent.Storable.read (storable : content.Storable limits) :
    (decodeStrict (encodeCanonical (eventRecord content)) limits >>= cborToEvent limits) = .ok content := by
  rw [decodeStrict_of_sortMaps_within (regular_eventRecord storable.bounded) storable.within, ok_bind]
  -- the record has as many entries as an event has fields
  obtain ⟨entries, sorted, length, _⟩ : ∃ entries, (eventRecord content).sortMaps = .map entries ∧ _ :=
    sortMaps_record_entries eventFields rfl (by decide)
  have admitted := (sorted ▸ storable.within).extents.self
  have size : eventFields.length ≤ limits.maxMapEntries.toNat := by
    rw [← length]
    exact admitted
  exact cborToEvent_sortMaps storable.bounded storable.ordered size

theorem createEvent_eq_ok {created : CreatedEvent} :
    createEvent primitives content limits = .ok created ↔
      content.Storable limits ∧ created = createdEvent primitives content := by
  constructor
  · intro done
    rw [createEvent] at done
    split at done
    · cases done
    · rename_i version
      simp only [eventToCbor_of_version (not_not.mp version), ok_bind, bind_eq_ok] at done
      obtain ⟨canonical, written, done⟩ := done
      cases done
      obtain ⟨rfl, read⟩ := createMember_eq_ok written
      obtain ⟨value, decoded, parsed⟩ := bind_eq_ok.mp read
      exact ⟨storable_of_read (decodeStrict_eq_ok.mp decoded) parsed, rfl⟩
  · rintro ⟨storable, rfl⟩
    obtain ⟨value, decoded, parsed⟩ := bind_eq_ok.mp storable.read
    rw [createEvent, if_neg (not_not.mpr storable.bounded.version),
      eventToCbor_of_version storable.bounded.version, ok_bind, createMember, decodeAndCheckCanonical_eq, decoded,
      ok_bind, parsed, ok_bind, if_neg (not_not.mpr rfl)]
    rfl

/-- Without collisions the id of a storable event names it. -/
theorem EventContent.Storable.eq_of_id (storable : content.Storable limits) (otherStorable : other.Storable limits)
    (collisionFree : CollisionFree primitives
      [encodeCanonical (eventRecord content), encodeCanonical (eventRecord other)])
    (same : (createdEvent primitives content).id = (createdEvent primitives other).id) : content = other := by
  have encodings : encodeCanonical (eventRecord content) = encodeCanonical (eventRecord other) :=
    collisionFree _ (by simp) _ (by simp) (idWith_inj same)
  have sorted := storable.bounded.sized.sortMaps_eq otherStorable.bounded.sized encodings
  have versions : content.v = other.v := storable.bounded.version.trans otherStorable.bounded.version.symm
  have ordered := sortMaps_eventRecord_inj versions sorted
  -- both already stand in key order
  rwa [EventContent.inKeyOrder, EventContent.inKeyOrder, entriesInKeyOrder, entriesInKeyOrder,
    sortOn_of_strict storable.ordered, sortOn_of_strict otherStorable.ordered] at ordered

/-! ## Attestations -/

/-- An attestation that survives being written and read back. -/
structure AttestationContent.Storable (limits : Limits) (content : AttestationContent) : Prop where
  bounded : content.Bounded
  ordered : OrderedMeta content.claim.fields
  within : WithinLimits limits (attestationToCbor content).sortMaps

def createdAttestation (primitives : Primitives) (content : AttestationContent) (key : Ed25519Key) :
    CreatedAttestation where
  content := content
  canonical := encodeCanonical (attestationToCbor content)
  id := attestationMemberId primitives content
  sign1 := signEd25519 (encodeCanonical (attestationToCbor content)) key

variable {attested : AttestationContent} {key : Ed25519Key}

theorem AttestationContent.Storable.read (storable : attested.Storable limits) :
    (decodeStrict (encodeCanonical (attestationToCbor attested)) limits >>= cborToAttestation limits) =
      .ok attested := by
  rw [decodeStrict_of_sortMaps_within (regular_attestationToCbor storable.bounded) storable.within, ok_bind]
  obtain ⟨entries, sorted, length, _⟩ : ∃ entries, (attestationToCbor attested).sortMaps = .map entries ∧ _ :=
    sortMaps_record_entries attestationFields rfl (by decide)
  have admitted := (sorted ▸ storable.within).extents.self
  have size : attestationFields.length ≤ limits.maxMapEntries.toNat := by
    rw [← length]
    exact admitted
  exact cborToAttestation_sortMaps storable.bounded storable.ordered size

theorem storable_of_readAttestation {value : CborValue}
    (written : StrictlyEncodes limits value (encodeCanonical (attestationToCbor attested)))
    (parsed : cborToAttestation limits value = .ok attested) : attested.Storable limits where
  bounded := cborToAttestation_bounded parsed
  ordered := cborToAttestation_ordered written.canonical parsed
  within := by
    rw [cborToAttestation_canonical written.canonical parsed]
    exact written.within

theorem attest_exact {created : CreatedAttestation} :
    attest primitives attested key limits = .ok created ↔
      attested.issuer = key.keyRef ∧ attested.Storable limits ∧
        created = createdAttestation primitives attested key := by
  constructor
  · intro done
    rw [attest] at done
    split at done
    · cases done
    · split at done
      · cases done
      · rename_i issuer
        obtain ⟨canonical, written, done⟩ := bind_eq_ok.mp done
        cases done
        obtain ⟨rfl, read⟩ := createMember_eq_ok written
        obtain ⟨value, decoded, parsed⟩ := bind_eq_ok.mp read
        exact ⟨not_not.mp issuer, storable_of_readAttestation (decodeStrict_eq_ok.mp decoded) parsed, rfl⟩
  · rintro ⟨issuer, storable, rfl⟩
    obtain ⟨value, decoded, parsed⟩ := bind_eq_ok.mp storable.read
    rw [attest, if_neg (not_not.mpr storable.bounded.version), if_neg (not_not.mpr issuer), createMember,
      decodeAndCheckCanonical_eq, decoded, ok_bind, parsed, ok_bind, if_neg (not_not.mpr rfl)]
    rfl

end

end ProofEngine
