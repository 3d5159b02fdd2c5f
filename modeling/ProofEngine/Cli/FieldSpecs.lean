import ProofEngine.Cli.Ingest

/-! # Field specs in any order

The command line puts typed fields in the order of their encoded keys.  That is the order in which the encoder writes
the entries of a map, for the claim with its `type` entry somewhere between them, and so the order in which the strict
decoder returns the fields.  Neither whether a member can be created nor its id depends on how its spec was ordered. -/

namespace ProofEngine

open StableSort CborValue Text

/-! ## One order for all -/

section
variable {entries others : List (String × MetaValue)}

theorem nodup_encodedKeys (distinct : (entries.map Prod.fst).Nodup) :
    (entries.map fun entry => encodeCanonical (.text entry.1)).Nodup := by
  have injective : Function.Injective fun key : String => encodeCanonical (.text key) := fun _ _ => encodeText_inj
  simpa only [List.map_map, Function.comp_def] using distinct.map injective

/-- Fields with different keys have one order, whichever they are given in. -/
theorem entriesInKeyOrder_of_perm (distinct : (others.map Prod.fst).Nodup) (permuted : entries.Perm others) :
    entriesInKeyOrder entries = entriesInKeyOrder others :=
  sortOn_eq_of_perm_nodup (nodup_encodedKeys distinct) permuted

theorem entriesInKeyOrder_perm (entries : List (String × MetaValue)) : (entriesInKeyOrder entries).Perm entries :=
  sortOn_perm _ entries

theorem orderedMeta_entriesInKeyOrder (distinct : (entries.map Prod.fst).Nodup) :
    OrderedMeta (entriesInKeyOrder entries) :=
  sortOn_strict (nodup_encodedKeys distinct)

theorem entriesInKeyOrder_of_ordered (ordered : OrderedMeta others) (permuted : entries.Perm others) :
    entriesInKeyOrder entries = entriesInKeyOrder others :=
  (sortOn_eq_of_strict ordered permuted).trans (sortOn_of_strict ordered).symm

theorem BoundedMeta.perm (bounded : BoundedMeta entries) (permuted : entries.Perm others) : BoundedMeta others where
  count := permuted.length_eq ▸ bounded.count
  each := fun entry member => bounded.each entry (permuted.mem_iff.mpr member)
  distinct := (permuted.map Prod.fst).nodup_iff.mp bounded.distinct

end

/-! ## Members under two orders of their fields -/

def EventContent.withMetadata (event : EventContent) (metadata : List (String × MetaValue)) : EventContent :=
  { event with metadata := metadata }

def AttestationContent.withFields (content : AttestationContent) (fields : List (String × MetaValue)) :
    AttestationContent :=
  { content with claim := { content.claim with fields := fields } }

/-- The bounds and the limits an event has to keep to, whatever the order of its metadata. -/
structure EventContent.Fits (limits : Limits) (event : EventContent) : Prop where
  bounded : event.Bounded
  within : WithinLimits limits (eventRecord event).sortMaps

/-- The bounds and the limits an attestation has to keep to, whatever the order of its claim fields. -/
structure AttestationContent.Fits (limits : Limits) (content : AttestationContent) : Prop where
  bounded : content.Bounded
  within : WithinLimits limits (attestationToCbor content).sortMaps

section
variable {limits : Limits} {given fields : List (String × MetaValue)}

theorem sortMaps_withMetadata (event : EventContent) (same : entriesInKeyOrder given = entriesInKeyOrder fields) :
    (eventRecord (event.withMetadata given)).sortMaps = (eventRecord (event.withMetadata fields)).sortMaps := by
  have metaSame : (record (metaToFields given)).sortMaps = (record (metaToFields fields)).sortMaps := by
    rw [sortMaps_metaRecord, sortMaps_metaRecord, same]
  rw [eventRecord, eventRecord, sortMaps_record, sortMaps_record]
  simp only [EventContent.withMetadata, List.map_cons, metaSame]

theorem sortMaps_withFields (content : AttestationContent) (same : entriesInKeyOrder given = entriesInKeyOrder fields) :
    (attestationToCbor (content.withFields given)).sortMaps =
      (attestationToCbor (content.withFields fields)).sortMaps := by
  have claimSame : (claimToCbor { content.claim with fields := given }).sortMaps =
      (claimToCbor { content.claim with fields := fields }).sortMaps := by
    -- the type is inserted into the sorted fields
    rw [sortMaps_claimToCbor, sortMaps_claimToCbor, sortOn_cons, sortOn_cons, sortOn_metaEntries, sortOn_metaEntries,
      same]
  rw [attestationToCbor, attestationToCbor, sortMaps_record, sortMaps_record]
  simp only [AttestationContent.withFields, List.map_cons, claimSame]

theorem EventContent.Fits.perm {event : EventContent} (fits : (event.withMetadata given).Fits limits)
    (permuted : given.Perm fields) : (event.withMetadata fields).Fits limits where
  bounded :=
    { fits.bounded with metadata := fits.bounded.metadata.perm permuted }
  within := by
    rw [← sortMaps_withMetadata event
      (entriesInKeyOrder_of_perm (fits.bounded.metadata.perm permuted).distinct permuted)]
    exact fits.within

theorem Claim.Bounded.perm {claim other : Claim} (bounded : claim.Bounded) (types : claim.claimType = other.claimType)
    (permuted : claim.fields.Perm other.fields) : other.Bounded where
  typeText := types ▸ bounded.typeText
  count := permuted.length_eq ▸ bounded.count
  each := fun field member => bounded.each field (permuted.mem_iff.mpr member)
  distinct := (permuted.map Prod.fst).nodup_iff.mp bounded.distinct

theorem AttestationContent.Fits.perm {content : AttestationContent} (fits : (content.withFields given).Fits limits)
    (permuted : given.Perm fields) : (content.withFields fields).Fits limits where
  bounded := { fits.bounded with claim := fits.bounded.claim.perm rfl permuted }
  within := by
    have distinct : (fields.map Prod.fst).Nodup :=
      (permuted.map Prod.fst).nodup_iff.mp fits.bounded.claim.distinct
    rw [← sortMaps_withFields content (entriesInKeyOrder_of_perm distinct permuted)]
    exact fits.within

end

/-! ## Specs -/

/-- A key and a value that can stand in a spec. -/
structure Fieldable (pair : String × String) : Prop where
  keyText : pair.1.isEmpty = false ∧ '=' ∉ pair.1.toList ∧ ',' ∉ pair.1.toList
  valueText : pair.2.isEmpty = false ∧ ',' ∉ pair.2.toList

def pairText (pair : String × String) : String := String.ofList (pair.1.toList ++ '=' :: pair.2.toList)

/-- The spec that lists these pairs. -/
def specText (pairs : List (String × String)) : String :=
  String.ofList ([','].intercalate (pairs.map fun pair => (pairText pair).toList))

theorem fieldPair_pairText {pair : String × String} (fieldable : Fieldable pair) :
    fieldPair (pairText pair) = .ok pair := by
  have split : cut (pairText pair) "=" = some pair := by
    have chars : cutChars ['='] (pairText pair).toList = some (pair.1.toList, pair.2.toList) := by
      rw [pairText, String.toList_ofList, cutChars_append fieldable.keyText.2.1]
    have sign : "=".toList = ['='] := rfl
    rw [cut, sign, chars]
    simp
  rw [fieldPair, split]
  simp [fieldable.keyText.1, fieldable.valueText.1]

/-- Every list of pairs is what some spec says. -/
theorem fieldPairs_specText {pairs : List (String × String)} (each : ∀ pair ∈ pairs, Fieldable pair)
    (filled : pairs ≠ []) : fieldPairs (specText pairs) = .ok pairs := by
  have plain : ∀ piece ∈ pairs.map (fun pair => (pairText pair).toList), ',' ∉ piece := by
    simp only [List.forall_mem_map, pairText, String.toList_ofList, List.mem_append, List.mem_cons, not_or]
    intro pair member
    exact ⟨(each pair member).keyText.2.2, by decide, (each pair member).valueText.2⟩
  rw [fieldPairs, Text.splitAt, specText, String.toList_ofList,
    List.splitOn_intercalate ',' plain (by simpa using filled), List.map_map]
  have pieces : pairs.map (String.ofList ∘ fun pair => (pairText pair).toList) = pairs.map pairText := by simp
  rw [pieces]
  refine mapM_eq_ok.mpr (List.forall₂_map_left_iff.mpr (List.forall₂_same.mpr ?_))
  exact fun pair member => fieldPair_pairText (each pair member)

/-- What the pairs of a spec mean, in the order of the spec. -/
def typedPairs (pairs : List (String × String)) : List (String × MetaValue) :=
  pairs.map fun pair => (pair.1, typedValue pair.2)

theorem typedPairs_keys (pairs : List (String × String)) : (typedPairs pairs).map Prod.fst = pairs.map Prod.fst := by
  simp [typedPairs]

theorem typedFields_eq (pairs : List (String × String)) : typedFields pairs = entriesInKeyOrder (typedPairs pairs) :=
  rfl

/-- An event can be given its metadata in any order: the decoder returns the ordered fields, the ordered fields are
    accepted exactly if the given ones keep to bounds and limits, and the id is that of the given ones. -/
structure EventOrderless (primitives : Primitives) (limits : Limits) (event : EventContent)
    (given fields : List (String × MetaValue)) : Prop where
  decoded : (event.withMetadata given).Fits limits →
    (decodeStrict (encodeCanonical (eventRecord (event.withMetadata given))) limits >>= cborToEvent limits) =
      .ok (event.withMetadata fields)
  accepted : ∀ created, createEvent primitives (event.withMetadata fields) limits = .ok created ↔
    (event.withMetadata given).Fits limits ∧ created = createdEvent primitives (event.withMetadata fields)
  id : (createdEvent primitives (event.withMetadata fields)).id =
    eventId primitives (encodeCanonical (eventRecord (event.withMetadata given)))

/-- The same of the claim fields of an attestation. -/
structure AttestationOrderless (primitives : Primitives) (limits : Limits) (content : AttestationContent)
    (key : Ed25519Key) (given fields : List (String × MetaValue)) : Prop where
  decoded : (content.withFields given).Fits limits →
    (decodeStrict (encodeCanonical (attestationToCbor (content.withFields given))) limits >>=
      cborToAttestation limits) = .ok (content.withFields fields)
  accepted : ∀ created, attest primitives (content.withFields fields) key limits = .ok created ↔
    content.issuer = key.keyRef ∧ (content.withFields given).Fits limits ∧
      created = createdAttestation primitives (content.withFields fields) key
  id : (createdAttestation primitives (content.withFields fields) key).id =
    attestationId primitives (encodeCanonical (attestationToCbor (content.withFields given)))

section
variable {primitives : Primitives} {limits : Limits} {given fields : List (String × MetaValue)}

theorem eventOrderless (event : EventContent) (permuted : given.Perm fields) (ordered : OrderedMeta fields) :
    EventOrderless primitives limits event given fields := by
  have sorted : entriesInKeyOrder given = entriesInKeyOrder fields := entriesInKeyOrder_of_ordered ordered permuted
  have encoded : encodeCanonical (eventRecord (event.withMetadata given)) =
      encodeCanonical (eventRecord (event.withMetadata fields)) := by
    rw [← encodeCanonical_sortMaps, sortMaps_withMetadata event sorted, encodeCanonical_sortMaps]
  have storable (fits : (event.withMetadata given).Fits limits) : (event.withMetadata fields).Storable limits :=
    ⟨(fits.perm permuted).bounded, ordered, (fits.perm permuted).within⟩
  constructor
  case decoded =>
    intro fits
    rw [encoded]
    exact (storable fits).read
  case accepted =>
    intro created
    rw [createEvent_eq_ok]
    refine and_congr_left' ⟨fun stored => ?_, storable⟩
    have fits : (event.withMetadata fields).Fits limits := ⟨stored.bounded, stored.within⟩
    exact fits.perm permuted.symm
  case id =>
    rw [encoded]
    rfl

theorem attestationOrderless (content : AttestationContent) (key : Ed25519Key) (permuted : given.Perm fields)
    (ordered : OrderedMeta fields) : AttestationOrderless primitives limits content key given fields := by
  have sorted : entriesInKeyOrder given = entriesInKeyOrder fields := entriesInKeyOrder_of_ordered ordered permuted
  have encoded : encodeCanonical (attestationToCbor (content.withFields given)) =
      encodeCanonical (attestationToCbor (content.withFields fields)) := by
    rw [← encodeCanonical_sortMaps, sortMaps_withFields content sorted, encodeCanonical_sortMaps]
  have storable (fits : (content.withFields given).Fits limits) : (content.withFields fields).Storable limits :=
    ⟨(fits.perm permuted).bounded, ordered, (fits.perm permuted).within⟩
  constructor
  case decoded =>
    intro fits
    rw [encoded]
    exact (storable fits).read
  case accepted =>
    intro created
    rw [attest_exact]
    refine and_congr_right' (and_congr_left' ⟨fun stored => ?_, storable⟩)
    have fits : (content.withFields fields).Fits limits := ⟨stored.bounded, stored.within⟩
    exact fits.perm permuted.symm
  case id =>
    rw [encoded]
    rfl

end

/-- A spec with different keys may list them in any order: it is parsed to one list, the one the strict decoder
    returns, and events and attestations are created with one id or refused alike.  Every list of pairs that can stand
    in a spec has one for each of its orders. -/
theorem fieldSpecs_orderless (primitives : Primitives) (limits : Limits) {pairs : List (String × String)}
    (distinct : (pairs.map Prod.fst).Nodup) :
    ∃ fields, OrderedMeta fields ∧
      ((∀ pair ∈ pairs, Fieldable pair) → pairs ≠ [] → ∀ others : List (String × String), others.Perm pairs →
        parseFields (some (specText others)) = .ok fields) ∧
      (∀ spec others, fieldPairs spec = .ok others → others.Perm pairs → parseFields (some spec) = .ok fields) ∧
      ∀ given, given.Perm (typedPairs pairs) →
        (∀ event, EventOrderless primitives limits event given fields) ∧
        ∀ content key, AttestationOrderless primitives limits content key given fields := by
  have typedDistinct : ((typedPairs pairs).map Prod.fst).Nodup := (typedPairs_keys pairs).symm ▸ distinct
  have ordered := orderedMeta_entriesInKeyOrder typedDistinct
  have parses : ∀ spec others, fieldPairs spec = .ok others → others.Perm pairs →
      parseFields (some spec) = .ok (entriesInKeyOrder (typedPairs pairs)) := by
    intro spec others parsed permuted
    have typed : (typedPairs others).Perm (typedPairs pairs) := permuted.map _
    rw [parseFields, parsed, Except.map, typedFields_eq, entriesInKeyOrder_of_perm typedDistinct typed]
  refine ⟨entriesInKeyOrder (typedPairs pairs), ordered, ?_, parses, ?_⟩
  · intro each filled others permuted
    refine parses _ others (fieldPairs_specText ?_ ?_) permuted
    · exact fun pair member => each pair (permuted.mem_iff.mp member)
    · rintro rfl
      exact filled permuted.nil_eq.symm
  · intro given permuted
    have reordered := permuted.trans (entriesInKeyOrder_perm (typedPairs pairs)).symm
    exact ⟨fun event => eventOrderless event reordered ordered,
      fun content key => attestationOrderless content key reordered ordered⟩

/-- Two orders of three fields: the list starts with the shorter keys. -/
theorem payment_orderless :
    parseFields (some (specText [("currency", "EUR"), ("amount", "5"), ("paid", "true")])) =
      parseFields (some (specText [("paid", "true"), ("amount", "5"), ("currency", "EUR")])) := by
  have plain : ∀ pair ∈ [("currency", "EUR"), ("amount", "5"), ("paid", "true")],
      pair.1.isEmpty = false ∧ '=' ∉ pair.1.toList ∧ ',' ∉ pair.1.toList ∧ pair.2.isEmpty = false ∧
        ',' ∉ pair.2.toList := by decide +kernel
  have each : ∀ pair ∈ [("currency", "EUR"), ("amount", "5"), ("paid", "true")], Fieldable pair := by
    intro pair member
    obtain ⟨key, split, separate, value, whole⟩ := plain pair member
    exact ⟨⟨key, split, separate⟩, value, whole⟩
  obtain ⟨fields, _, parsed, _⟩ := fieldSpecs_orderless (Primitives.ofTable [] []) Limits.default
    (show ([("currency", "EUR"), ("amount", "5"), ("paid", "true")].map Prod.fst).Nodup by decide)
  have reversed : [("paid", "true"), ("amount", "5"), ("currency", "EUR")].Perm
      [("currency", "EUR"), ("amount", "5"), ("paid", "true")] := by decide
  rw [parsed each (by simp) _ (.refl _), parsed each (by simp) _ reversed]

end ProofEngine
