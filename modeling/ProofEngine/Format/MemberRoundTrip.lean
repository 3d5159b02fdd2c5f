import ProofEngine.Format.Member

/-! # Member round trips

Each parser is read backwards once, as what it found in the map and which bounds it
checked; the three facts about it follow from that. -/

namespace ProofEngine

open StableSort Text CborValue

section
variable {limits : Limits} {value : CborValue}

/-! ## Events -/

structure EventContent.Bounded (event : EventContent) : Prop where
  version : event.v = 1
  eventType : BoundedText event.eventType
  subject : BoundedText event.subject
  payloadRef : event.payloadRef.Bounded
  metadata : BoundedMeta event.metadata

/-- The map `event_to_cbor` builds for a version 1 event. -/
def eventRecord (event : EventContent) : CborValue :=
  record
    [("effective_at", .uint event.effectiveAt),
     ("metadata", record (metaToFields event.metadata)),
     ("payload_ref", hashrefToCbor event.payloadRef),
     ("subject", .text event.subject),
     ("type", .text event.eventType),
     ("v", .uint 1)]

theorem eventToCbor_of_version {event : EventContent} (version : event.v = 1) :
    eventToCbor event = .ok (eventRecord event) := by
  simp [eventToCbor, version, eventRecord]

theorem cborToEvent_eq_ok {event : EventContent} :
    cborToEvent limits value = .ok event ↔ ∃ entries, value = .map entries ∧
      entries.length ≤ limits.maxMapEntries.toNat ∧
      (∀ entry ∈ entries, ∃ key ∈ eventFields, entry.1 = .text key) ∧
      findField entries "v" = some (.uint 1) ∧
      findField entries "type" = some (.text event.eventType) ∧
      findField entries "subject" = some (.text event.subject) ∧
      findField entries "effective_at" = some (.uint event.effectiveAt) ∧
      (∃ hash, findField entries "payload_ref" = some hash ∧
        hashrefFromCbor hash = .ok event.payloadRef) ∧
      findField entries "metadata" = some (record (metaToFields event.metadata)) ∧
      event.v = 1 ∧ BoundedText event.eventType ∧ BoundedText event.subject ∧
      BoundedMeta event.metadata := by
  simp only [cborToEvent, bind_eq_ok, memberMap_eq_ok, checkClosed_eq_ok, checkVersion_eq_ok,
    textField_eq_ok, uintField_eq_ok, requireField_eq_ok, metaField_eq_ok]
  constructor
  · rintro ⟨entries, ⟨rfl, size⟩, _, closed, _, version, _, ⟨typeFound, typeBounded⟩, _,
      ⟨subjectFound, subjectBounded⟩, _, effectiveFound, hash, hashFound, _, hashDone, _,
      ⟨metaFound, metaBounded⟩, done⟩
    cases done
    exact ⟨entries, rfl, size, closed, version, typeFound, subjectFound, effectiveFound,
      ⟨hash, hashFound, hashDone⟩, metaFound, rfl, typeBounded, subjectBounded, metaBounded⟩
  · rintro ⟨entries, rfl, size, closed, version, typeFound, subjectFound, effectiveFound,
      ⟨hash, hashFound, hashDone⟩, metaFound, one, typeBounded, subjectBounded, metaBounded⟩
    refine ⟨entries, ⟨rfl, size⟩, (), closed, (), version, _, ⟨typeFound, typeBounded⟩, _,
      ⟨subjectFound, subjectBounded⟩, _, effectiveFound, hash, hashFound, _, hashDone, _,
      ⟨metaFound, metaBounded⟩, ?_⟩
    cases event
    cases one
    rfl

theorem cborToEvent_bounded {event : EventContent} (done : cborToEvent limits value = .ok event) :
    event.Bounded := by
  obtain ⟨_, _, _, _, _, _, _, _, ⟨_, _, hashDone⟩, _, version, typeBounded, subjectBounded,
    metaBounded⟩ := cborToEvent_eq_ok.mp done
  exact ⟨version, typeBounded, subjectBounded, hashrefFromCbor_bounded hashDone, metaBounded⟩

theorem cborToEvent_canonical {event : EventContent} (canonical : Canonical limits value)
    (done : cborToEvent limits value = .ok event) : (eventRecord event).sortMaps = value := by
  obtain ⟨entries, rfl, _, closed, version, typeFound, subjectFound, effectiveFound,
    ⟨hash, hashFound, hashDone⟩, metaFound, _⟩ := cborToEvent_eq_ok.mp done
  refine sortMaps_record_of_fields eventFields canonical.ascending rfl (by decide) closed ?_
  simp only [List.forall_mem_cons, List.not_mem_nil, false_implies, implies_true, and_true]
  refine ⟨effectiveFound, canonical.findField_sortMaps metaFound, ?_, subjectFound, typeFound, version⟩
  rw [hashFound, hashrefFromCbor_canonical (canonical.findField hashFound) hashDone]

theorem cborToEvent_sortMaps {event : EventContent} (bounded : event.Bounded)
    (ordered : OrderedMeta event.metadata) (size : eventFields.length ≤ limits.maxMapEntries.toNat) :
    cborToEvent limits (eventRecord event).sortMaps = .ok event := by
  obtain ⟨entries, sorted, length, _, closed, found⟩ : ∃ entries,
      (eventRecord event).sortMaps = .map entries ∧ _ := sortMaps_record_entries eventFields rfl (by decide)
  simp only [List.forall_mem_cons, List.not_mem_nil, false_implies, implies_true, and_true,
    sortMaps_metaToFields ordered] at found
  obtain ⟨effectiveFound, metaFound, hashFound, subjectFound, typeFound, version⟩ := found
  exact cborToEvent_eq_ok.mpr ⟨entries, sorted, length.trans_le size, closed,
    version, typeFound, subjectFound, effectiveFound,
    ⟨_, hashFound, hashrefFromCbor_sortMaps bounded.payloadRef⟩, metaFound, bounded.version,
    bounded.eventType, bounded.subject, bounded.metadata⟩

/-! ## Attestations -/

structure AttestationContent.Bounded (content : AttestationContent) : Prop where
  version : content.v = 1
  issuer : BoundedText content.issuer
  subject : BoundedText content.subject
  claim : content.claim.Bounded
  evidenceRef : BoundedRef "evd:v1:" content.evidenceRef
  times : ∀ expiry ∈ content.expiresAt, content.issuedAt ≤ expiry

theorem not_expiresBefore {issuedAt : UInt64} {expiresAt : Option UInt64} :
    ¬ expiresAt.any (· < issuedAt) = true ↔ ∀ expiry ∈ expiresAt, issuedAt ≤ expiry := by
  cases expiresAt <;> simp [UInt64.not_lt]

theorem cborToAttestation_eq_ok {content : AttestationContent} :
    cborToAttestation limits value = .ok content ↔ ∃ entries, value = .map entries ∧
      entries.length ≤ limits.maxMapEntries.toNat ∧
      (∀ entry ∈ entries, ∃ key ∈ attestationFields, entry.1 = .text key) ∧
      findField entries "v" = some (.uint 1) ∧
      findField entries "issuer" = some (.text content.issuer) ∧
      findField entries "subject" = some (.text content.subject) ∧
      findField entries "issued_at" = some (.uint content.issuedAt) ∧
      findField entries "expires_at" = some (uintOrNil content.expiresAt) ∧
      findField entries "evidence_ref" = some (textOrNil content.evidenceRef) ∧
      (∃ claim, findField entries "claim" = some claim ∧ cborToClaim claim = .ok content.claim) ∧
      content.v = 1 ∧ BoundedText content.issuer ∧ BoundedText content.subject ∧
      BoundedRef "evd:v1:" content.evidenceRef ∧
      ∀ expiry ∈ content.expiresAt, content.issuedAt ≤ expiry := by
  simp only [cborToAttestation, bind_eq_ok, memberMap_eq_ok, checkClosed_eq_ok, checkVersion_eq_ok,
    textField_eq_ok, uintField_eq_ok, optUintOrNil_eq_ok, optRefOrNil_eq_ok]
  constructor
  · rintro ⟨entries, ⟨rfl, size⟩, _, closed, _, version, _, ⟨issuerFound, issuerBounded⟩, _,
      ⟨subjectFound, subjectBounded⟩, _, issuedFound, _, expiresFound, _,
      ⟨refFound, refBounded⟩, done⟩
    split at done
    · contradiction
    · rename_i times
      simp only [bind_eq_ok, requireField_eq_ok] at done
      obtain ⟨claim, claimFound, _, claimDone, done⟩ := done
      cases done
      exact ⟨entries, rfl, size, closed, version, issuerFound, subjectFound, issuedFound, expiresFound,
        refFound, ⟨claim, claimFound, claimDone⟩, rfl, issuerBounded, subjectBounded, refBounded,
        not_expiresBefore.mp times⟩
  · rintro ⟨entries, rfl, size, closed, version, issuerFound, subjectFound, issuedFound, expiresFound,
      refFound, ⟨claim, claimFound, claimDone⟩, one, issuerBounded, subjectBounded, refBounded, times⟩
    refine ⟨entries, ⟨rfl, size⟩, (), closed, (), version, _, ⟨issuerFound, issuerBounded⟩, _,
      ⟨subjectFound, subjectBounded⟩, _, issuedFound, _, expiresFound, _, ⟨refFound, refBounded⟩, ?_⟩
    rw [if_neg (not_expiresBefore.mpr times)]
    simp only [bind_eq_ok, requireField_eq_ok]
    refine ⟨claim, claimFound, _, claimDone, ?_⟩
    cases content
    cases one
    rfl

theorem cborToAttestation_bounded {content : AttestationContent}
    (done : cborToAttestation limits value = .ok content) : content.Bounded := by
  obtain ⟨_, _, _, _, _, _, _, _, _, _, ⟨_, _, claimDone⟩, version, issuerBounded, subjectBounded,
    refBounded, times⟩ := cborToAttestation_eq_ok.mp done
  exact ⟨version, issuerBounded, subjectBounded, (cborToClaim_sound claimDone).1, refBounded, times⟩

theorem cborToAttestation_canonical {content : AttestationContent} (canonical : Canonical limits value)
    (done : cborToAttestation limits value = .ok content) : (attestationToCbor content).sortMaps = value := by
  obtain ⟨entries, rfl, _, closed, version, issuerFound, subjectFound, issuedFound, expiresFound,
    refFound, ⟨claim, claimFound, claimDone⟩, one, _⟩ := cborToAttestation_eq_ok.mp done
  refine sortMaps_record_of_fields attestationFields canonical.ascending rfl (by decide) closed ?_
  simp only [List.forall_mem_cons, List.not_mem_nil, false_implies, implies_true, and_true, one]
  refine ⟨?_, canonical.findField_sortMaps refFound, canonical.findField_sortMaps expiresFound,
    issuedFound, issuerFound, subjectFound, version⟩
  rw [claimFound, cborToClaim_canonical (canonical.findField claimFound) claimDone]

theorem sortMaps_textOrNil (optional : Option String) : (textOrNil optional).sortMaps = textOrNil optional := by
  cases optional <;> rfl

theorem sortMaps_uintOrNil (optional : Option UInt64) : (uintOrNil optional).sortMaps = uintOrNil optional := by
  cases optional <;> rfl

theorem cborToAttestation_sortMaps {content : AttestationContent} (bounded : content.Bounded)
    (ordered : OrderedMeta content.claim.fields)
    (size : attestationFields.length ≤ limits.maxMapEntries.toNat) :
    cborToAttestation limits (attestationToCbor content).sortMaps = .ok content := by
  obtain ⟨entries, sorted, length, _, closed, found⟩ : ∃ entries,
      (attestationToCbor content).sortMaps = .map entries ∧ _ :=
    sortMaps_record_entries attestationFields rfl (by decide)
  simp only [List.forall_mem_cons, List.not_mem_nil, false_implies, implies_true, and_true,
    sortMaps_textOrNil, sortMaps_uintOrNil, bounded.version] at found
  obtain ⟨claimFound, refFound, expiresFound, issuedFound, issuerFound, subjectFound, version⟩ := found
  exact cborToAttestation_eq_ok.mpr ⟨entries, sorted, length.trans_le size, closed, version,
    issuerFound, subjectFound, issuedFound, expiresFound, refFound,
    ⟨_, claimFound, cborToClaim_sortMaps bounded.claim ordered⟩, bounded.version, bounded.issuer,
    bounded.subject, bounded.evidenceRef, bounded.times⟩

/-! ## Evidence -/

structure Evidence.Bounded (evidence : Evidence) : Prop where
  version : evidence.v = 1
  kind : BoundedText evidence.kind
  digest : evidence.digest.Bounded
  attestationRef : BoundedRef "att:v1:" evidence.attestationRef
  hint : ∀ s ∈ evidence.hint, BoundedText s ∧ len s ≤ 256

theorem cborToEvidence_eq_ok {evidence : Evidence} :
    cborToEvidence limits value = .ok evidence ↔ ∃ entries, value = .map entries ∧
      entries.length ≤ limits.maxMapEntries.toNat ∧
      (∀ entry ∈ entries, ∃ key ∈ evidenceFields, entry.1 = .text key) ∧
      findField entries "v" = some (.uint 1) ∧
      findField entries "kind" = some (.text evidence.kind) ∧
      (∃ hash, findField entries "digest" = some hash ∧ hashrefFromCbor hash = .ok evidence.digest) ∧
      findField entries "attestation_ref" = some (textOrNil evidence.attestationRef) ∧
      findField entries "hint" = some (textOrNil evidence.hint) ∧
      evidence.v = 1 ∧ BoundedText evidence.kind ∧ BoundedRef "att:v1:" evidence.attestationRef ∧
      ∀ s ∈ evidence.hint, BoundedText s ∧ len s ≤ 256 := by
  simp only [cborToEvidence, bind_eq_ok, memberMap_eq_ok, checkClosed_eq_ok, checkVersion_eq_ok,
    textField_eq_ok, requireField_eq_ok, optRefOrNil_eq_ok, optTextOrNil_eq_ok]
  constructor
  · rintro ⟨entries, ⟨rfl, size⟩, _, closed, _, version, _, ⟨kindFound, kindBounded⟩, hash, hashFound, _,
      hashDone, _, ⟨refFound, refBounded⟩, hint, ⟨hintFound, hintBounded⟩, done⟩
    split at done
    · contradiction
    · rename_i short
      cases done
      refine ⟨entries, rfl, size, closed, version, kindFound, ⟨hash, hashFound, hashDone⟩, refFound,
        hintFound, rfl, kindBounded, refBounded, fun s member => ⟨hintBounded s member, ?_⟩⟩
      cases member
      simpa using short
  · rintro ⟨entries, rfl, size, closed, version, kindFound, ⟨hash, hashFound, hashDone⟩, refFound,
      hintFound, one, kindBounded, refBounded, hintBounded⟩
    refine ⟨entries, ⟨rfl, size⟩, (), closed, (), version, _, ⟨kindFound, kindBounded⟩, hash, hashFound, _,
      hashDone, _, ⟨refFound, refBounded⟩, _, ⟨hintFound, fun s member => (hintBounded s member).1⟩, ?_⟩
    have short : ¬ evidence.hint.any (256 < len ·) = true := by
      cases hint : evidence.hint with
      | none => simp
      | some s => simpa using (hintBounded s hint).2
    rw [if_neg short]
    cases evidence
    cases one
    rfl

theorem cborToEvidence_bounded {evidence : Evidence} (done : cborToEvidence limits value = .ok evidence) :
    evidence.Bounded := by
  obtain ⟨_, _, _, _, _, _, ⟨_, _, hashDone⟩, _, _, version, kindBounded, refBounded, hintBounded⟩ :=
    cborToEvidence_eq_ok.mp done
  exact ⟨version, kindBounded, hashrefFromCbor_bounded hashDone, refBounded, hintBounded⟩

theorem cborToEvidence_canonical {evidence : Evidence} (canonical : Canonical limits value)
    (done : cborToEvidence limits value = .ok evidence) : (evidenceToCbor evidence).sortMaps = value := by
  obtain ⟨entries, rfl, _, closed, version, kindFound, ⟨hash, hashFound, hashDone⟩, refFound,
    hintFound, one, _⟩ := cborToEvidence_eq_ok.mp done
  refine sortMaps_record_of_fields evidenceFields canonical.ascending rfl (by decide) closed ?_
  simp only [List.forall_mem_cons, List.not_mem_nil, false_implies, implies_true, and_true, one]
  refine ⟨canonical.findField_sortMaps refFound, ?_, canonical.findField_sortMaps hintFound, kindFound,
    version⟩
  rw [hashFound, hashrefFromCbor_canonical (canonical.findField hashFound) hashDone]

theorem cborToEvidence_sortMaps {evidence : Evidence} (bounded : evidence.Bounded)
    (size : evidenceFields.length ≤ limits.maxMapEntries.toNat) :
    cborToEvidence limits (evidenceToCbor evidence).sortMaps = .ok evidence := by
  obtain ⟨entries, sorted, length, _, closed, found⟩ : ∃ entries,
      (evidenceToCbor evidence).sortMaps = .map entries ∧ _ :=
    sortMaps_record_entries evidenceFields rfl (by decide)
  simp only [List.forall_mem_cons, List.not_mem_nil, false_implies, implies_true, and_true,
    sortMaps_textOrNil, bounded.version] at found
  obtain ⟨refFound, hashFound, hintFound, kindFound, version⟩ := found
  exact cborToEvidence_eq_ok.mpr ⟨entries, sorted, length.trans_le size, closed, version, kindFound,
    ⟨_, hashFound, hashrefFromCbor_sortMaps bounded.digest⟩, refFound, hintFound, bounded.version,
    bounded.kind, bounded.attestationRef, bounded.hint⟩

/-! ## Relationships -/

structure Relationship.Bounded (relationship : Relationship) : Prop where
  version : relationship.v = 1
  source : BoundedText relationship.source
  target : BoundedText relationship.target
  proper : relationship.source ≠ relationship.target
  relType : BoundedText relationship.relType
  evidenceRef : BoundedRef "evd:v1:" relationship.evidenceRef
  attestationRef : BoundedRef "att:v1:" relationship.attestationRef

theorem cborToRelationship_eq_ok {relationship : Relationship} :
    cborToRelationship limits value = .ok relationship ↔ ∃ entries, value = .map entries ∧
      entries.length ≤ limits.maxMapEntries.toNat ∧
      (∀ entry ∈ entries, ∃ key ∈ relationshipFields, entry.1 = .text key) ∧
      findField entries "v" = some (.uint 1) ∧
      findField entries "from" = some (.text relationship.source) ∧
      findField entries "to" = some (.text relationship.target) ∧
      findField entries "type" = some (.text relationship.relType) ∧
      findField entries "evidence_ref" = some (textOrNil relationship.evidenceRef) ∧
      findField entries "attestation_ref" = some (textOrNil relationship.attestationRef) ∧
      relationship.Bounded := by
  simp only [cborToRelationship, bind_eq_ok, memberMap_eq_ok, checkClosed_eq_ok, checkVersion_eq_ok,
    textField_eq_ok]
  constructor
  · rintro ⟨entries, ⟨rfl, size⟩, _, closed, _, version, _, ⟨sourceFound, sourceBounded⟩, _,
      ⟨targetFound, targetBounded⟩, done⟩
    split at done
    · contradiction
    · rename_i proper
      simp only [bind_eq_ok, textField_eq_ok, optRefOrNil_eq_ok] at done
      obtain ⟨_, ⟨typeFound, typeBounded⟩, _, ⟨evidenceFound, evidenceBounded⟩, _,
        ⟨attestationFound, attestationBounded⟩, done⟩ := done
      cases done
      exact ⟨entries, rfl, size, closed, version, sourceFound, targetFound, typeFound, evidenceFound,
        attestationFound, rfl, sourceBounded, targetBounded, proper, typeBounded, evidenceBounded,
        attestationBounded⟩
  · rintro ⟨entries, rfl, size, closed, version, sourceFound, targetFound, typeFound, evidenceFound,
      attestationFound, bounded⟩
    refine ⟨entries, ⟨rfl, size⟩, (), closed, (), version, _, ⟨sourceFound, bounded.source⟩, _,
      ⟨targetFound, bounded.target⟩, ?_⟩
    rw [if_neg bounded.proper]
    simp only [bind_eq_ok, textField_eq_ok, optRefOrNil_eq_ok]
    refine ⟨_, ⟨typeFound, bounded.relType⟩, _, ⟨evidenceFound, bounded.evidenceRef⟩, _,
      ⟨attestationFound, bounded.attestationRef⟩, ?_⟩
    have one := bounded.version
    cases relationship
    cases one
    rfl

theorem cborToRelationship_bounded {relationship : Relationship}
    (done : cborToRelationship limits value = .ok relationship) : relationship.Bounded := by
  obtain ⟨_, _, _, _, _, _, _, _, _, _, bounded⟩ := cborToRelationship_eq_ok.mp done
  exact bounded

theorem cborToRelationship_canonical {relationship : Relationship} (canonical : Canonical limits value)
    (done : cborToRelationship limits value = .ok relationship) :
    (relationshipToCbor relationship).sortMaps = value := by
  obtain ⟨entries, rfl, _, closed, version, sourceFound, targetFound, typeFound, evidenceFound,
    attestationFound, bounded⟩ := cborToRelationship_eq_ok.mp done
  refine sortMaps_record_of_fields relationshipFields canonical.ascending rfl (by decide) closed ?_
  simp only [List.forall_mem_cons, List.not_mem_nil, false_implies, implies_true, and_true,
    bounded.version]
  exact ⟨canonical.findField_sortMaps attestationFound, canonical.findField_sortMaps evidenceFound,
    sourceFound, targetFound, typeFound, version⟩

theorem cborToRelationship_sortMaps {relationship : Relationship} (bounded : relationship.Bounded)
    (size : relationshipFields.length ≤ limits.maxMapEntries.toNat) :
    cborToRelationship limits (relationshipToCbor relationship).sortMaps = .ok relationship := by
  obtain ⟨entries, sorted, length, _, closed, found⟩ : ∃ entries,
      (relationshipToCbor relationship).sortMaps = .map entries ∧ _ :=
    sortMaps_record_entries relationshipFields rfl (by decide)
  simp only [List.forall_mem_cons, List.not_mem_nil, false_implies, implies_true, and_true,
    sortMaps_textOrNil, bounded.version] at found
  obtain ⟨attestationFound, evidenceFound, sourceFound, targetFound, typeFound, version⟩ := found
  exact cborToRelationship_eq_ok.mpr ⟨entries, sorted, length.trans_le size, closed, version,
    sourceFound, targetFound, typeFound, evidenceFound, attestationFound, bounded⟩

/-! ## Propositions -/

structure Proposition.Bounded (proposition : Proposition) : Prop where
  version : proposition.v = 1
  kind : BoundedText proposition.kind
  subject : BoundedText proposition.subject
  predicate : BoundedText proposition.predicate
  object : ∀ s ∈ proposition.object, BoundedText s
  context : BoundedMeta proposition.context

theorem cborToProposition_eq_ok {proposition : Proposition} :
    cborToProposition limits value = .ok proposition ↔ ∃ entries, value = .map entries ∧
      entries.length ≤ limits.maxMapEntries.toNat ∧
      (∀ entry ∈ entries, ∃ key ∈ propositionFields, entry.1 = .text key) ∧
      findField entries "v" = some (.uint 1) ∧
      findField entries "kind" = some (.text proposition.kind) ∧
      findField entries "subject" = some (.text proposition.subject) ∧
      findField entries "predicate" = some (.text proposition.predicate) ∧
      findField entries "object" = some (textOrNil proposition.object) ∧
      findField entries "at_time" = some (uintOrNil proposition.atTime) ∧
      findField entries "context" = some (record (metaToFields proposition.context)) ∧
      proposition.Bounded := by
  simp only [cborToProposition, bind_eq_ok, memberMap_eq_ok, checkClosed_eq_ok, checkVersion_eq_ok,
    textField_eq_ok, optTextOrNil_eq_ok, optUintOrNil_eq_ok, metaField_eq_ok]
  constructor
  · rintro ⟨entries, ⟨rfl, size⟩, _, closed, _, version, _, ⟨kindFound, kindBounded⟩, _,
      ⟨subjectFound, subjectBounded⟩, _, ⟨predicateFound, predicateBounded⟩, _,
      ⟨objectFound, objectBounded⟩, _, timeFound, _, ⟨contextFound, contextBounded⟩, done⟩
    cases done
    exact ⟨entries, rfl, size, closed, version, kindFound, subjectFound, predicateFound, objectFound,
      timeFound, contextFound, rfl, kindBounded, subjectBounded, predicateBounded, objectBounded,
      contextBounded⟩
  · rintro ⟨entries, rfl, size, closed, version, kindFound, subjectFound, predicateFound, objectFound,
      timeFound, contextFound, bounded⟩
    refine ⟨entries, ⟨rfl, size⟩, (), closed, (), version, _, ⟨kindFound, bounded.kind⟩, _,
      ⟨subjectFound, bounded.subject⟩, _, ⟨predicateFound, bounded.predicate⟩, _,
      ⟨objectFound, bounded.object⟩, _, timeFound, _, ⟨contextFound, bounded.context⟩, ?_⟩
    have one := bounded.version
    cases proposition
    cases one
    rfl

theorem cborToProposition_bounded {proposition : Proposition}
    (done : cborToProposition limits value = .ok proposition) : proposition.Bounded := by
  obtain ⟨_, _, _, _, _, _, _, _, _, _, _, bounded⟩ := cborToProposition_eq_ok.mp done
  exact bounded

theorem cborToProposition_canonical {proposition : Proposition} (canonical : Canonical limits value)
    (done : cborToProposition limits value = .ok proposition) :
    (propositionToCbor proposition).sortMaps = value := by
  obtain ⟨entries, rfl, _, closed, version, kindFound, subjectFound, predicateFound, objectFound,
    timeFound, contextFound, bounded⟩ := cborToProposition_eq_ok.mp done
  refine sortMaps_record_of_fields propositionFields canonical.ascending rfl (by decide) closed ?_
  simp only [List.forall_mem_cons, List.not_mem_nil, false_implies, implies_true, and_true,
    bounded.version]
  exact ⟨canonical.findField_sortMaps timeFound, canonical.findField_sortMaps contextFound, kindFound,
    canonical.findField_sortMaps objectFound, predicateFound, subjectFound, version⟩

theorem cborToProposition_sortMaps {proposition : Proposition} (bounded : proposition.Bounded)
    (ordered : OrderedMeta proposition.context)
    (size : propositionFields.length ≤ limits.maxMapEntries.toNat) :
    cborToProposition limits (propositionToCbor proposition).sortMaps = .ok proposition := by
  obtain ⟨entries, sorted, length, _, closed, found⟩ : ∃ entries,
      (propositionToCbor proposition).sortMaps = .map entries ∧ _ :=
    sortMaps_record_entries propositionFields rfl (by decide)
  simp only [List.forall_mem_cons, List.not_mem_nil, false_implies, implies_true, and_true,
    sortMaps_textOrNil, sortMaps_uintOrNil, sortMaps_metaToFields ordered, bounded.version] at found
  obtain ⟨timeFound, contextFound, kindFound, objectFound, predicateFound, subjectFound, version⟩ := found
  exact cborToProposition_eq_ok.mpr ⟨entries, sorted, length.trans_le size, closed, version, kindFound,
    subjectFound, predicateFound, objectFound, timeFound, contextFound, bounded⟩

end

end ProofEngine
