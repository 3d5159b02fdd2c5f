import ProofEngine.Interop.Readable

/-! # Members in both verifiers

For every member schema: what the second verifier has checked when it accepts (`Checked`), what the engine
requires besides (`Stated`), and that the engine parses a checked member exactly when it is stated. -/

namespace ProofEngine.Interop

open StableSort Text CborValue

/-! ## Free-form entries -/

theorem checkEntry_eq_ok {what : String} {entry : CborValue × CborValue} {nothing : Unit}
    (negative : entry.2.NegativeNint)
    (done : checkEntry what (toPython entry.1, toPython entry.2) = .ok nothing) :
    ∃ key value, entry = (.text key, metaValueToCbor value) ∧ len key ≤ 64 ∧ value.Bounded := by
  obtain ⟨entryKey, entryValue⟩ := entry
  simp only [checkEntry, bind_eq_ok, asStr_eq_ok, toPython_eq_str, ensure_eq_ok] at done
  obtain ⟨key, rfl, _, ⟨_, short⟩, done⟩ := done
  cases entryValue with
  | uint n => exact ⟨key, .uint n, rfl, short, trivial⟩
  | bool b => exact ⟨key, .bool b, rfl, short, trivial⟩
  | text s => exact ⟨key, .text s, rfl, short, by simpa [toPython, MetaValue.Bounded] using done⟩
  | nint n =>
    -- a negative integer is none of the three kinds
    have below : n.toInt < 0 := negative
    simp only [toPython, ensure_eq_ok] at done
    omega
  | _ => cases done

theorem checkEntries_eq_ok {what : String} {entries : Entries} {nothing : Unit}
    (negative : ∀ entry ∈ entries, entry.2.NegativeNint)
    (done : checkEntries what (toPythonPairs entries) = .ok nothing) :
    ∃ parsed, entries = metaEntries parsed ∧ ∀ entry ∈ parsed, len entry.1 ≤ 64 ∧ entry.2.Bounded := by
  induction entries with
  | nil => exact ⟨[], rfl, by simp⟩
  | cons entry entries inductionHypothesis =>
    obtain ⟨entryNegative, restNegative⟩ := List.forall_mem_cons.mp negative
    simp only [toPythonPairs, checkEntries, bind_eq_ok] at done
    obtain ⟨_, here, rest⟩ := done
    obtain ⟨key, value, rfl, short, bounded⟩ := checkEntry_eq_ok entryNegative here
    obtain ⟨parsed, rfl, each⟩ := inductionHypothesis restNegative rest
    exact ⟨(key, value) :: parsed, rfl, List.forall_mem_cons.mpr ⟨⟨short, bounded⟩, each⟩⟩

theorem Readable.negative {entries : Entries} (readable : Readable (.map entries)) :
    ∀ entry ∈ entries, entry.2.NegativeNint :=
  fun _ member => (readable.value member).canonical.self.negative

theorem nodup_of_uniqueKeys {parsed : List (String × MetaValue)} (unique : UniqueKeys (metaEntries parsed)) :
    (parsed.map Prod.fst).Nodup := by
  have separated := List.pairwise_map.mp unique
  exact List.pairwise_map.mpr (separated.imp fun different same => different (by rw [same]))

section
variable {entries : Entries} {nothing : Unit}

theorem checkMetadata_get (readable : Readable (.map entries))
    (done : checkMetadata (get (toPythonPairs entries) "metadata") = .ok nothing) {pairs : Entries}
    (found : findField entries "metadata" = some (.map pairs)) :
    ∃ parsed, CborValue.map pairs = record (metaToFields parsed) ∧ BoundedMeta parsed := by
  have inner := readable.field found
  rw [get_toPythonPairs readable.ascending.uniqueKeys, found] at done
  simp only [Option.map_some, Option.getD_some, toPython, checkMetadata, bind_eq_ok, ensure_eq_ok,
    length_toPythonPairs] at done
  obtain ⟨_, count, entriesDone⟩ := done
  obtain ⟨parsed, rfl, each⟩ := checkEntries_eq_ok inner.negative entriesDone
  refine ⟨parsed, (record_metaToFields parsed).symm, ?_, each, nodup_of_uniqueKeys inner.ascending.uniqueKeys⟩
  simpa [metaEntries] using count

/-! ## Claims -/

theorem filter_toPythonPairs (pairs : Entries) :
    (toPythonPairs pairs).filter (fun entry => !isStr "type" entry.1) =
      toPythonPairs (pairs.filter fun entry => !isKey "type" entry.1) := by
  simp only [toPythonPairs_eq, List.filter_map, Function.comp_def, isStr_toPython]

/-- A map of distinct keys is the entry found under a key and the entries under other keys. -/
theorem perm_cons_filter {pairs : Entries} (unique : UniqueKeys pairs) {key : String} {value : CborValue}
    (found : findField pairs key = some value) :
    pairs.Perm ((.text key, value) :: pairs.filter fun entry => !isKey key entry.1) := by
  obtain ⟨before, after, rfl⟩ := List.append_of_mem (mem_of_findField found)
  obtain ⟨_, afterUnique, separated⟩ := List.pairwise_append.mp unique
  have others : ∀ entry ∈ before ++ after, (!isKey key entry.1) = true := by
    intro entry member
    rw [Bool.not_eq_true', Bool.eq_false_iff, ne_eq, isKey_iff]
    rcases List.mem_append.mp member with inBefore | inAfter
    · exact separated entry inBefore _ List.mem_cons_self
    · exact (List.rel_of_pairwise_cons afterUnique inAfter).symm
  have kept : (before ++ (CborValue.text key, value) :: after).filter (fun entry => !isKey key entry.1) =
      before ++ after := by
    obtain ⟨beforeKept, afterKept⟩ := List.forall_mem_append.mp others
    have itself : (!isKey key (CborValue.text key, value).1) = false := by simp [isKey]
    rw [List.filter_append, List.filter_cons_of_neg (by simp [itself]), List.filter_eq_self.mpr beforeKept,
      List.filter_eq_self.mpr afterKept]
  rw [kept]
  exact List.perm_middle

/-- A claim the second verifier takes is one the engine parses. -/
theorem checkClaim_get (readable : Readable (.map entries))
    (done : checkClaim (get (toPythonPairs entries) "claim") = .ok nothing) :
    ∃ value claim, findField entries "claim" = some value ∧ cborToClaim value = .ok claim := by
  obtain ⟨_, absent⟩ | ⟨value, found, present⟩ := get_cases readable.ascending.uniqueKeys "claim"
  · rw [absent] at done
    cases done
  rw [present] at done
  have inner := readable.field found
  cases value with
  | map pairs =>
    have unique := inner.ascending.uniqueKeys
    simp only [toPython, checkClaim, bind_eq_ok, ensure_eq_ok, filter_toPythonPairs, length_toPythonPairs] at done
    obtain ⟨_, count, _, typeDone, entriesDone⟩ := done
    obtain ⟨s, typeFound, typeBounded⟩ := checkText_get unique typeDone
    obtain ⟨fields, others, each⟩ := checkEntries_eq_ok
      (fun entry member => inner.negative entry (List.mem_of_mem_filter member)) entriesDone
    have perm := perm_cons_filter unique typeFound
    rw [others] at perm
    -- what is left of the map after the type is filtered out keeps its order
    have ordered : OrderedMeta fields := by
      have sublist := List.Pairwise.sublist (List.filter_sublist (p := fun entry => !isKey "type" entry.1))
        inner.ascending
      rw [others] at sublist
      simpa only [OrderedMeta, metaEntries, List.pairwise_map] using sublist
    have notType : ∀ field ∈ fields, field.1 ≠ "type" := by
      intro field member same
      have inFilter : (CborValue.text field.1, metaValueToCbor field.2) ∈
          pairs.filter fun entry => !isKey "type" entry.1 := by
        rw [others]
        exact List.mem_map_of_mem member
      simpa [isKey, same] using (List.mem_filter.mp inFilter).2
    have fieldsUnique : UniqueKeys (metaEntries fields) := by
      rw [← others]
      exact unique.sublist List.filter_sublist
    have sorted : (claimToCbor ⟨s, fields⟩).sortMaps = .map pairs := by
      rw [claimToCbor, sortMaps_record, sortMaps_claimFields, sortOn_eq_of_strict inner.ascending perm.symm]
    have size := perm.length_eq
    simp only [List.length_cons, metaEntries, List.length_map] at size
    have bounded : Claim.Bounded ⟨s, fields⟩ := by
      refine ⟨typeBounded, ?_, fun field member => ⟨notType field member, (each field member).2⟩,
        nodup_of_uniqueKeys fieldsUnique⟩
      simp only
      omega
    refine ⟨_, ⟨s, fields⟩, found, ?_⟩
    rw [← sorted]
    exact cborToClaim_sortMaps bounded ordered
  | _ => cases done

end

/-! ## Fields one side leaves open -/

/-- A hash reference in the engine's form. -/
def HashStated (entries : Entries) (key : String) : Prop :=
  ∃ hash : HashRef, hash.Bounded ∧ findField entries key = some (hashrefToCbor hash).sortMaps

/-- A text within the bounds. -/
def TextStated (entries : Entries) (key : String) : Prop :=
  ∃ s, findField entries key = some (.text s) ∧ BoundedText s

section
variable {limits : Limits} {entries : Entries} {runtime : Runtime} {value : CborValue} {id : String}

theorem hashrefFromCbor_iff (canonical : Canonical limits (.map entries)) {key : String} :
    (∃ value hash, findField entries key = some value ∧ hashrefFromCbor value = .ok hash) ↔ HashStated entries key := by
  constructor
  · rintro ⟨value, hash, found, done⟩
    refine ⟨hash, hashrefFromCbor_bounded done, ?_⟩
    rw [found, hashrefFromCbor_canonical (canonical.findField found) done]
  · rintro ⟨hash, bounded, found⟩
    exact ⟨_, hash, found, hashrefFromCbor_sortMaps bounded⟩

theorem mapEntries_le (canonical : Canonical limits (.map entries)) : entries.length ≤ limits.maxMapEntries.toNat :=
  canonical.self.admitted

/-- Known names of one list are known names of a list with the same members. -/
theorem closed_of_subset {names others : List String} (subset : ∀ name ∈ names, name ∈ others)
    (closed : ∀ entry ∈ entries, ∃ name ∈ names, entry.1 = .text name) :
    ∀ entry ∈ entries, ∃ name ∈ others, entry.1 = .text name := by
  intro entry member
  obtain ⟨name, known, same⟩ := closed entry member
  exact ⟨name, subset name known, same⟩

/-! ## Events -/

structure EventChecked (entries : Entries) : Prop where
  closed : ∀ entry ∈ entries, ∃ key ∈ ProofEngine.eventFields, entry.1 = .text key
  eventType : TextStated entries "type"
  subject : TextStated entries "subject"
  metadata : ∀ pairs, findField entries "metadata" = some (.map pairs) →
    ∃ parsed, CborValue.map pairs = record (metaToFields parsed) ∧ BoundedMeta parsed

theorem verifyEvent_eq_ok (readable : Readable value) (done : verifyEvent runtime (toPython value) = .ok id) :
    ∃ entries, value = .map entries ∧ EventChecked entries ∧ id = objId runtime "evt" (encodeCanonical value) := by
  simp only [verifyEvent, bind_eq_ok, closed_eq_ok, readable.encAny] at done
  obtain ⟨_, ⟨entries, rfl, rfl, closed⟩, _, typeDone, _, subjectDone, _, metaDone, _, written, done⟩ := done
  cases written
  cases done
  have unique := readable.ascending.uniqueKeys
  exact ⟨entries, rfl, ⟨closed_of_subset (by decide) closed, checkText_get unique typeDone,
    checkText_get unique subjectDone, fun _ found => checkMetadata_get readable metaDone found⟩, rfl⟩

structure EventStated (entries : Entries) : Prop where
  version : findField entries "v" = some (.uint 1)
  effectiveAt : ∃ n, findField entries "effective_at" = some (.uint n)
  payloadRef : HashStated entries "payload_ref"
  metadata : ∃ pairs, findField entries "metadata" = some (.map pairs)

theorem cborToEvent_iff (checked : EventChecked entries) (canonical : Canonical limits (.map entries)) :
    (∃ event, cborToEvent limits (.map entries) = .ok event) ↔ EventStated entries := by
  constructor
  · rintro ⟨event, done⟩
    obtain ⟨_, same, _, _, version, _, _, effectiveFound, ⟨hash, hashFound, hashDone⟩, metaFound, _⟩ :=
      cborToEvent_eq_ok.mp done
    cases same
    rw [record_metaToFields] at metaFound
    exact ⟨version, ⟨_, effectiveFound⟩, (hashrefFromCbor_iff canonical).mp ⟨hash, _, hashFound, hashDone⟩,
      ⟨_, metaFound⟩⟩
  · rintro ⟨version, ⟨effectiveAt, effectiveFound⟩, payloadRef, ⟨pairs, metaFound⟩⟩
    obtain ⟨eventType, typeFound, typeBounded⟩ := checked.eventType
    obtain ⟨subject, subjectFound, subjectBounded⟩ := checked.subject
    obtain ⟨metadata, written, metaBounded⟩ := checked.metadata pairs metaFound
    obtain ⟨hash, payloadRef, hashFound, hashDone⟩ := (hashrefFromCbor_iff canonical).mpr payloadRef
    rw [written] at metaFound
    exact ⟨{ v := 1, eventType, subject, effectiveAt, payloadRef, metadata }, cborToEvent_eq_ok.mpr
      ⟨entries, rfl, mapEntries_le canonical, checked.closed, version, typeFound, subjectFound, effectiveFound,
        ⟨hash, hashFound, hashDone⟩, metaFound, rfl, typeBounded, subjectBounded, metaBounded⟩⟩

/-! ## Evidence -/

structure EvidenceChecked (entries : Entries) : Prop where
  closed : ∀ entry ∈ entries, ∃ key ∈ ProofEngine.evidenceFields, entry.1 = .text key
  kind : TextStated entries "kind"
  hint : ∀ value, findField entries "hint" = some value →
    ∃ optional, value = textOrNil optional ∧ ∀ s ∈ optional, len s ≤ 256
  attestationRef : ∀ value, findField entries "attestation_ref" = some value →
    ∃ optional, value = textOrNil optional ∧ BoundedRef "att:v1:" optional

theorem checkHint_get (unique : UniqueKeys entries) {nothing : Unit}
    (done : checkHint (get (toPythonPairs entries) "hint") = .ok nothing) {value : CborValue}
    (found : findField entries "hint" = some value) :
    ∃ optional, value = textOrNil optional ∧ ∀ s ∈ optional, len s ≤ 256 := by
  rw [get_toPythonPairs unique, found] at done
  cases value with
  | text s => exact ⟨some s, rfl, by simpa [toPython, checkHint] using done⟩
  | null => exact ⟨none, rfl, by simp⟩
  | _ => cases done

theorem verifyEvidence_eq_ok (readable : Readable value) (done : verifyEvidence runtime (toPython value) = .ok id) :
    ∃ entries, value = .map entries ∧ EvidenceChecked entries ∧ id = objId runtime "evd" (encodeCanonical value) := by
  simp only [verifyEvidence, bind_eq_ok, closed_eq_ok, readable.encAny] at done
  obtain ⟨_, ⟨entries, rfl, rfl, closed⟩, _, kindDone, _, hintDone, _, refDone, _, written, done⟩ := done
  cases written
  cases done
  have unique := readable.ascending.uniqueKeys
  exact ⟨entries, rfl, ⟨closed_of_subset (by decide) closed, checkText_get unique kindDone,
    fun _ => checkHint_get unique hintDone, fun _ => checkOptRef_get unique refDone⟩, rfl⟩

structure EvidenceStated (entries : Entries) : Prop where
  version : findField entries "v" = some (.uint 1)
  digest : HashStated entries "digest"
  hint : ∃ value, findField entries "hint" = some value ∧ value ≠ .text ""
  attestationRef : ∃ value, findField entries "attestation_ref" = some value

theorem cborToEvidence_iff (checked : EvidenceChecked entries) (canonical : Canonical limits (.map entries)) :
    (∃ evidence, cborToEvidence limits (.map entries) = .ok evidence) ↔ EvidenceStated entries := by
  constructor
  · rintro ⟨evidence, done⟩
    obtain ⟨_, same, _, _, version, _, ⟨hash, hashFound, hashDone⟩, refFound, hintFound, _, _, _, hintBounded⟩ :=
      cborToEvidence_eq_ok.mp done
    cases same
    refine ⟨version, (hashrefFromCbor_iff canonical).mp ⟨hash, _, hashFound, hashDone⟩, ⟨_, hintFound, ?_⟩,
      ⟨_, refFound⟩⟩
    cases hint : evidence.hint with
    | none => simp [textOrNil]
    | some s =>
      -- the engine does not take an empty hint
      have nonempty := (hintBounded s hint).1.1
      rintro empty
      cases empty
      cases nonempty
  · rintro ⟨version, digest, ⟨hintValue, hintFound, notEmpty⟩, ⟨refValue, refFound⟩⟩
    obtain ⟨kind, kindFound, kindBounded⟩ := checked.kind
    obtain ⟨hash, digest, hashFound, hashDone⟩ := (hashrefFromCbor_iff canonical).mpr digest
    obtain ⟨hint, rfl, hintShort⟩ := checked.hint hintValue hintFound
    obtain ⟨attestationRef, rfl, refBounded⟩ := checked.attestationRef refValue refFound
    refine ⟨{ v := 1, kind, digest, attestationRef, hint }, cborToEvidence_eq_ok.mpr
      ⟨entries, rfl, mapEntries_le canonical, checked.closed, version, kindFound, ⟨hash, hashFound, hashDone⟩,
        refFound, hintFound, rfl, kindBounded, refBounded, fun s member => ?_⟩⟩
    have short := hintShort s member
    cases member
    refine ⟨⟨?_, by omega⟩, short⟩
    rw [Bool.eq_false_iff]
    intro empty
    exact notEmpty (by rw [String.isEmpty_iff.mp empty]; rfl)

/-! ## Relationships -/

structure RelationshipChecked (entries : Entries) : Prop where
  closed : ∀ entry ∈ entries, ∃ key ∈ relationshipFields, entry.1 = .text key
  source : TextStated entries "from"
  target : TextStated entries "to"
  relType : TextStated entries "type"
  evidenceRef : ∀ value, findField entries "evidence_ref" = some value →
    ∃ optional, value = textOrNil optional ∧ BoundedRef "evd:v1:" optional
  attestationRef : ∀ value, findField entries "attestation_ref" = some value →
    ∃ optional, value = textOrNil optional ∧ BoundedRef "att:v1:" optional

theorem verifyRelationship_eq_ok (readable : Readable value)
    (done : verifyRelationship runtime (toPython value) = .ok id) :
    ∃ entries, value = .map entries ∧ RelationshipChecked entries ∧
      id = objId runtime "rel" (encodeCanonical value) := by
  simp only [verifyRelationship, bind_eq_ok, closed_eq_ok, readable.encAny] at done
  obtain ⟨_, ⟨entries, rfl, rfl, closed⟩, _, sourceDone, _, targetDone, _, typeDone, _, evidenceDone, _,
    attestationDone, _, written, done⟩ := done
  cases written
  cases done
  have unique := readable.ascending.uniqueKeys
  exact ⟨entries, rfl, ⟨closed_of_subset (by decide) closed, checkText_get unique sourceDone,
    checkText_get unique targetDone, checkText_get unique typeDone, fun _ => checkOptRef_get unique evidenceDone,
    fun _ => checkOptRef_get unique attestationDone⟩, rfl⟩

structure RelationshipStated (entries : Entries) : Prop where
  version : findField entries "v" = some (.uint 1)
  proper : findField entries "from" ≠ findField entries "to"
  evidenceRef : ∃ value, findField entries "evidence_ref" = some value
  attestationRef : ∃ value, findField entries "attestation_ref" = some value

theorem cborToRelationship_iff (checked : RelationshipChecked entries) (canonical : Canonical limits (.map entries)) :
    (∃ relationship, cborToRelationship limits (.map entries) = .ok relationship) ↔ RelationshipStated entries := by
  constructor
  · rintro ⟨relationship, done⟩
    obtain ⟨_, same, _, _, version, sourceFound, targetFound, _, evidenceFound, attestationFound, bounded⟩ :=
      cborToRelationship_eq_ok.mp done
    cases same
    refine ⟨version, ?_, ⟨_, evidenceFound⟩, ⟨_, attestationFound⟩⟩
    rw [sourceFound, targetFound]
    intro same
    exact bounded.proper (CborValue.text.inj (Option.some.inj same))
  · rintro ⟨version, proper, ⟨evidenceValue, evidenceFound⟩, ⟨attestationValue, attestationFound⟩⟩
    obtain ⟨source, sourceFound, sourceBounded⟩ := checked.source
    obtain ⟨target, targetFound, targetBounded⟩ := checked.target
    obtain ⟨relType, typeFound, typeBounded⟩ := checked.relType
    obtain ⟨evidenceRef, rfl, evidenceBounded⟩ := checked.evidenceRef evidenceValue evidenceFound
    obtain ⟨attestationRef, rfl, attestationBounded⟩ := checked.attestationRef attestationValue attestationFound
    have different : source ≠ target := by
      rintro rfl
      exact proper (sourceFound.trans targetFound.symm)
    exact ⟨{ v := 1, source, relType, target, evidenceRef, attestationRef }, cborToRelationship_eq_ok.mpr
      ⟨entries, rfl, mapEntries_le canonical, checked.closed, version, sourceFound, targetFound, typeFound,
        evidenceFound, attestationFound,
        ⟨rfl, sourceBounded, targetBounded, different, typeBounded, evidenceBounded, attestationBounded⟩⟩⟩

/-! ## Propositions -/

/-- Of a proposition the second verifier checks the names of its fields and nothing else. -/
structure PropositionStated (entries : Entries) : Prop where
  version : findField entries "v" = some (.uint 1)
  kind : TextStated entries "kind"
  subject : TextStated entries "subject"
  predicate : TextStated entries "predicate"
  object : ∃ optional, findField entries "object" = some (textOrNil optional) ∧ ∀ s ∈ optional, BoundedText s
  atTime : ∃ optional, findField entries "at_time" = some (uintOrNil optional)
  context : ∃ parsed, findField entries "context" = some (record (metaToFields parsed)) ∧ BoundedMeta parsed

theorem cborToProposition_iff (closed : ∀ entry ∈ entries, ∃ key ∈ propositionFields, entry.1 = .text key)
    (canonical : Canonical limits (.map entries)) :
    (∃ proposition, cborToProposition limits (.map entries) = .ok proposition) ↔ PropositionStated entries := by
  constructor
  · rintro ⟨proposition, done⟩
    obtain ⟨_, same, _, _, version, kindFound, subjectFound, predicateFound, objectFound, timeFound, contextFound,
      bounded⟩ := cborToProposition_eq_ok.mp done
    cases same
    exact ⟨version, ⟨_, kindFound, bounded.kind⟩, ⟨_, subjectFound, bounded.subject⟩,
      ⟨_, predicateFound, bounded.predicate⟩, ⟨_, objectFound, bounded.object⟩, ⟨_, timeFound⟩,
      ⟨_, contextFound, bounded.context⟩⟩
  · rintro ⟨version, ⟨kind, kindFound, kindBounded⟩, ⟨subject, subjectFound, subjectBounded⟩,
      ⟨predicate, predicateFound, predicateBounded⟩, ⟨object, objectFound, objectBounded⟩, ⟨atTime, timeFound⟩,
      ⟨context, contextFound, contextBounded⟩⟩
    exact ⟨{ v := 1, kind, subject, predicate, object, atTime, context }, cborToProposition_eq_ok.mpr
      ⟨entries, rfl, mapEntries_le canonical, closed, version, kindFound, subjectFound, predicateFound, objectFound,
        timeFound, contextFound,
        ⟨rfl, kindBounded, subjectBounded, predicateBounded, objectBounded, contextBounded⟩⟩⟩

/-! ## Contents of attestations -/

structure ContentChecked (entries : Entries) : Prop where
  closed : ∀ entry ∈ entries, ∃ key ∈ ProofEngine.attestationFields, entry.1 = .text key
  issuer : TextStated entries "issuer"
  claim : ∃ value claim, findField entries "claim" = some value ∧ cborToClaim value = .ok claim
  evidenceRef : ∀ value, findField entries "evidence_ref" = some value →
    ∃ optional, value = textOrNil optional ∧ BoundedRef "evd:v1:" optional

structure ContentStated (entries : Entries) : Prop where
  version : findField entries "v" = some (.uint 1)
  subject : TextStated entries "subject"
  times : ∃ issuedAt expiresAt, findField entries "issued_at" = some (.uint issuedAt) ∧
    findField entries "expires_at" = some (uintOrNil expiresAt) ∧ ∀ expiry ∈ expiresAt, issuedAt ≤ expiry
  evidenceRef : ∃ value, findField entries "evidence_ref" = some value

theorem cborToAttestation_iff (checked : ContentChecked entries) (canonical : Canonical limits (.map entries)) :
    (∃ content, cborToAttestation limits (.map entries) = .ok content) ↔ ContentStated entries := by
  constructor
  · rintro ⟨content, done⟩
    obtain ⟨_, same, _, _, version, _, subjectFound, issuedFound, expiresFound, refFound, _, _, _, subjectBounded, _,
      times⟩ := cborToAttestation_eq_ok.mp done
    cases same
    exact ⟨version, ⟨_, subjectFound, subjectBounded⟩, ⟨_, _, issuedFound, expiresFound, times⟩, ⟨_, refFound⟩⟩
  · rintro ⟨version, ⟨subject, subjectFound, subjectBounded⟩, ⟨issuedAt, expiresAt, issuedFound, expiresFound, times⟩,
      ⟨refValue, refFound⟩⟩
    obtain ⟨issuer, issuerFound, issuerBounded⟩ := checked.issuer
    obtain ⟨claimValue, claim, claimFound, claimDone⟩ := checked.claim
    obtain ⟨evidenceRef, rfl, refBounded⟩ := checked.evidenceRef refValue refFound
    exact ⟨{ v := 1, issuer, subject, claim, issuedAt, expiresAt, evidenceRef }, cborToAttestation_eq_ok.mpr
      ⟨entries, rfl, mapEntries_le canonical, checked.closed, version, issuerFound, subjectFound, issuedFound,
        expiresFound, refFound, ⟨claimValue, claimFound, claimDone⟩, rfl, issuerBounded, subjectBounded, refBounded,
        times⟩⟩

end

end ProofEngine.Interop
