import ProofEngine.Lib.Precedence
import ProofEngine.Verify.StatusInputs
import ProofEngine.Verify.Totality

/-! # Which status an evidence item has

The documented order of precedence puts a compromise, of the item or of the statement behind it, before
everything else.  The pipeline looks at the statement behind the item only when the item itself is neither
marked nor withdrawn. -/

namespace ProofEngine

open LastMap Precedence

def evidencePrecedence : List EvidenceStatus :=
  [.compromised, .withdrawn, .revoked, .superseded, .expired, .unknown, .available]

section
variable (primitives : Primitives) (ctx : VerifyCtx) (proof : Proof) (evidence : Evidence)

/-- The item refers to a verified statement with this lifecycle status. -/
def BackedBy (status : LifecycleStatus) : Prop :=
  ∃ backing content, evidence.attestationRef = some backing ∧
    (backing, content) ∈ statements (verifiedSet primitives ctx proof) ∧
    IsFirst precedence (StatusApplies primitives ctx proof backing content) status

/-- A compromise that counts marks the item itself. -/
def DirectlyMarked : Prop :=
  ∃ status atTime,
    Counts primitives ctx proof status .compromise (evidenceMemberId primitives evidence) (some atTime)

/-- A withdrawal that counts targets the item. -/
def IsWithdrawn : Prop :=
  ∃ status, Counts primitives ctx proof status .withdraw (evidenceMemberId primitives evidence) none

/-- When a status applies to the item, as documented. -/
def EvidenceApplies : EvidenceStatus → Prop
  | .compromised => DirectlyMarked primitives ctx proof evidence ∨ BackedBy primitives ctx proof evidence .compromised
  | .withdrawn => IsWithdrawn primitives ctx proof evidence
  | .revoked => BackedBy primitives ctx proof evidence .revoked
  | .superseded => BackedBy primitives ctx proof evidence .superseded
  | .expired => BackedBy primitives ctx proof evidence .expired
  | .unknown =>
    BackedBy primitives ctx proof evidence .unknown ∨
      ∃ backing, evidence.attestationRef = some backing ∧
        ∀ content, (backing, content) ∉ verifiedSet primitives ctx proof
  | .available => True
  | .unavailable => False

/-- The item is withdrawn and only the statement behind it is compromised. -/
def CompromiseOverlooked : Prop :=
  ¬ DirectlyMarked primitives ctx proof evidence ∧ IsWithdrawn primitives ctx proof evidence ∧
    ∃ backing content, evidence.attestationRef = some backing ∧
      (backing, content) ∈ statements (verifiedSet primitives ctx proof) ∧
      StatusApplies primitives ctx proof backing content .compromised

/-- The item refers to a verified status object, which has no lifecycle. -/
def StatusBacked : Prop :=
  ¬ DirectlyMarked primitives ctx proof evidence ∧ ¬ IsWithdrawn primitives ctx proof evidence ∧
    ∃ backing content, evidence.attestationRef = some backing ∧
      (backing, content) ∈ verifiedSet primitives ctx proof ∧ claimKind content ≠ .statement

end

/-! ## What the code reads -/

section
variable {primitives : Primitives} {ctx : VerifyCtx} {proof : Proof} {evidence : Evidence}

theorem directlyMarked_iff (functional : Functional (verifiedSet primitives ctx proof)) :
    ((compromises primitives ctx proof (verifiedSet primitives ctx proof)).any fun (target, _) =>
      target = evidenceMemberId primitives evidence) = true ↔ DirectlyMarked primitives ctx proof evidence := by
  rw [any_compromises_id, DirectlyMarked, exists_comm]
  simp only [TakesEffect, exists_counting_iff functional]

theorem isWithdrawn_iff (functional : Functional (verifiedSet primitives ctx proof)) :
    ((applies primitives ctx proof (verifiedSet primitives ctx proof)).any fun (target, kind) =>
      target = evidenceMemberId primitives evidence && kind = .withdraw) = true ↔
        IsWithdrawn primitives ctx proof evidence :=
  applies_iff functional (by decide)

/-- What the code knows of the attestation an item refers to. -/
def backingStatus (primitives : Primitives) (ctx : VerifyCtx) (proof : Proof) (evidence : Evidence) :
    Option LifecycleStatus :=
  evidence.attestationRef.bind
    (lifecycleByAtt (lifecycle primitives ctx proof (verifiedSet primitives ctx proof)))

theorem backedBy_iff (functional : Functional (verifiedSet primitives ctx proof)) {status : LifecycleStatus} :
    BackedBy primitives ctx proof evidence status ↔ backingStatus primitives ctx proof evidence = some status := by
  simp only [BackedBy, backingStatus, Option.bind_eq_some_iff, lifecycleByAtt_lifecycle, Option.map_eq_some_iff]
  constructor
  · rintro ⟨backing, content, named, member, first⟩
    refine ⟨backing, named, content, (lastValue_eq_some (functional.filter _)).mpr member, ?_⟩
    exact IsFirst.unique (lifecycleStatus_first functional member) first
  · rintro ⟨backing, named, content, found, rfl⟩
    have member := (lastValue_eq_some (functional.filter _)).mp found
    exact ⟨backing, content, named, member, lifecycleStatus_first functional member⟩

/-- A compromise is first whenever it applies. -/
theorem backedBy_compromised :
    BackedBy primitives ctx proof evidence .compromised ↔
      ∃ backing content, evidence.attestationRef = some backing ∧
        (backing, content) ∈ statements (verifiedSet primitives ctx proof) ∧
        StatusApplies primitives ctx proof backing content .compromised := by
  simp [BackedBy, precedence, isFirst_cons, not_isFirst_nil]

/-- Without a lifecycle for its reference an item refers to nothing, to an attestation that was not verified or
    to a status object. -/
theorem backingStatus_eq_none (functional : Functional (verifiedSet primitives ctx proof)) :
    backingStatus primitives ctx proof evidence = none ↔
      ∀ backing, evidence.attestationRef = some backing →
        (∀ content, (backing, content) ∉ verifiedSet primitives ctx proof) ∨
          ∃ content, (backing, content) ∈ verifiedSet primitives ctx proof ∧ claimKind content ≠ .statement := by
  have unlisted : ∀ backing, lastValue (statements (verifiedSet primitives ctx proof)) backing = none ↔
      (∀ content, (backing, content) ∉ verifiedSet primitives ctx proof) ∨
        ∃ content, (backing, content) ∈ verifiedSet primitives ctx proof ∧ claimKind content ≠ .statement := by
    intro backing
    simp only [lastValue_eq_none, statements, List.mem_filter, isStatement, decide_eq_true_eq, not_and]
    constructor
    · intro unbacked
      by_cases listed : ∃ content, (backing, content) ∈ verifiedSet primitives ctx proof
      · obtain ⟨content, member⟩ := listed
        exact .inr ⟨content, member, unbacked content member⟩
      · exact .inl fun content member => listed ⟨content, member⟩
    · rintro (absent | ⟨other, otherMember, status⟩) content member
      · exact absurd member (absent content)
      · rw [functional backing content other member otherMember]
        exact status
  simp only [backingStatus, Option.bind_eq_none_iff, lifecycleByAtt_lifecycle, Option.map_eq_none_iff, unlisted]

/-! ## Item by item -/

theorem evidenceOutcomeOf_status :
    (evidenceOutcomeOf primitives ctx proof (verifiedSet primitives ctx proof)
      (evidence, evidenceMemberId primitives evidence)).1 =
      (evidenceOutcome
        ((compromises primitives ctx proof (verifiedSet primitives ctx proof)).any fun (target, _) =>
          target = evidenceMemberId primitives evidence)
        ((applies primitives ctx proof (verifiedSet primitives ctx proof)).any fun (target, kind) =>
          target = evidenceMemberId primitives evidence && kind = .withdraw)
        evidence.attestationRef.isSome (backingStatus primitives ctx proof evidence)).1 := rfl

theorem first_of_marked (marked : DirectlyMarked primitives ctx proof evidence) :
    IsFirst evidencePrecedence (EvidenceApplies primitives ctx proof evidence) .compromised := by
  rw [evidencePrecedence, isFirst_cons]
  exact .inl ⟨rfl, .inl marked⟩

theorem first_withdrawn_iff (unmarked : ¬ DirectlyMarked primitives ctx proof evidence)
    (withdrawn : IsWithdrawn primitives ctx proof evidence) :
    IsFirst evidencePrecedence (EvidenceApplies primitives ctx proof evidence) .withdrawn ↔
      ¬ BackedBy primitives ctx proof evidence .compromised := by
  simp [evidencePrecedence, isFirst_cons, EvidenceApplies, unmarked, withdrawn]

/-- Of an item that is neither marked nor withdrawn the lifecycle behind it decides. -/
theorem first_of_backing (functional : Functional (verifiedSet primitives ctx proof))
    (unmarked : ¬ DirectlyMarked primitives ctx proof evidence)
    (notWithdrawn : ¬ IsWithdrawn primitives ctx proof evidence) {status : LifecycleStatus}
    (found : backingStatus primitives ctx proof evidence = some status) :
    IsFirst evidencePrecedence (EvidenceApplies primitives ctx proof evidence)
      (evidenceOutcome false false evidence.attestationRef.isSome (some status)).1 := by
  have backed : ∀ other, BackedBy primitives ctx proof evidence other ↔ status = other := by
    intro other
    rw [backedBy_iff functional, found, Option.some_inj]
  -- what has a lifecycle was verified
  have verified : ¬ ∃ backing, evidence.attestationRef = some backing ∧
      ∀ content, (backing, content) ∉ verifiedSet primitives ctx proof := by
    rintro ⟨backing, named, absent⟩
    have missing : backingStatus primitives ctx proof evidence = none := by
      refine (backingStatus_eq_none functional).mpr fun other namedToo => ?_
      rw [named, Option.some_inj] at namedToo
      exact .inl (namedToo ▸ absent)
    rw [found] at missing
    cases missing
  cases status <;>
    simp [evidencePrecedence, isFirst_cons, not_isFirst_nil, EvidenceApplies, evidenceOutcome, unmarked,
      notWithdrawn, backed, verified]

/-- Of an item without a lifecycle behind it the kind of its reference decides. -/
theorem first_without_backing_iff (functional : Functional (verifiedSet primitives ctx proof))
    (unmarked : ¬ DirectlyMarked primitives ctx proof evidence)
    (notWithdrawn : ¬ IsWithdrawn primitives ctx proof evidence)
    (absent : backingStatus primitives ctx proof evidence = none) :
    IsFirst evidencePrecedence (EvidenceApplies primitives ctx proof evidence)
        (evidenceOutcome false false evidence.attestationRef.isSome none).1 ↔
      ¬ StatusBacked primitives ctx proof evidence := by
  have backed : ∀ other, ¬ BackedBy primitives ctx proof evidence other := by
    intro other
    rw [backedBy_iff functional, absent]
    simp
  have kinds := (backingStatus_eq_none functional).mp absent
  cases named : evidence.attestationRef with
  | none =>
    simp [evidencePrecedence, isFirst_cons, not_isFirst_nil, EvidenceApplies, StatusBacked, evidenceOutcome,
      unmarked, notWithdrawn, backed, named]
  | some backing =>
    have either := kinds backing named
    have unknownFirst : IsFirst evidencePrecedence (EvidenceApplies primitives ctx proof evidence) .unknown ↔
        ∀ content, (backing, content) ∉ verifiedSet primitives ctx proof := by
      simp [evidencePrecedence, isFirst_cons, not_isFirst_nil, EvidenceApplies, unmarked, notWithdrawn, backed, named]
    have statusBacked : StatusBacked primitives ctx proof evidence ↔
        ∃ content, (backing, content) ∈ verifiedSet primitives ctx proof ∧ claimKind content ≠ .statement := by
      simp [StatusBacked, unmarked, notWithdrawn, named]
    rw [Option.isSome_some, statusBacked]
    refine unknownFirst.trans ⟨?_, either.resolve_right⟩
    rintro unbacked ⟨content, member, _⟩
    exact unbacked content member

theorem evidenceStatus_first_iff (functional : Functional (verifiedSet primitives ctx proof)) :
    IsFirst evidencePrecedence (EvidenceApplies primitives ctx proof evidence)
        (evidenceOutcomeOf primitives ctx proof (verifiedSet primitives ctx proof)
          (evidence, evidenceMemberId primitives evidence)).1 ↔
      ¬ CompromiseOverlooked primitives ctx proof evidence ∧ ¬ StatusBacked primitives ctx proof evidence := by
  rw [evidenceOutcomeOf_status, CompromiseOverlooked, ← backedBy_compromised]
  by_cases marked : DirectlyMarked primitives ctx proof evidence
  · rw [(directlyMarked_iff functional).mpr marked]
    refine iff_of_true (first_of_marked marked) ⟨fun overlooked => overlooked.1 marked, fun status => status.1 marked⟩
  rw [Bool.eq_false_iff.mpr (mt (directlyMarked_iff functional).mp marked)]
  by_cases withdrawn : IsWithdrawn primitives ctx proof evidence
  · rw [(isWithdrawn_iff functional).mpr withdrawn]
    have notStatus : ¬ StatusBacked primitives ctx proof evidence := fun status => status.2.1 withdrawn
    simp only [marked, withdrawn, notStatus, not_false_eq_true, true_and, and_true]
    exact first_withdrawn_iff marked withdrawn
  rw [Bool.eq_false_iff.mpr (mt (isWithdrawn_iff functional).mp withdrawn)]
  simp only [withdrawn, false_and, and_false, not_false_eq_true, true_and]
  cases found : backingStatus primitives ctx proof evidence with
  | none => exact first_without_backing_iff functional marked withdrawn found
  | some status =>
    refine iff_of_true (first_of_backing functional marked withdrawn found) ?_
    rintro ⟨_, _, backing, content, named, member, kind⟩
    have missing : backingStatus primitives ctx proof evidence = none := by
      refine (backingStatus_eq_none functional).mpr fun other namedToo => ?_
      rw [named, Option.some_inj] at namedToo
      exact .inr ⟨content, namedToo ▸ member, kind⟩
    rw [found] at missing
    cases missing

/-! ## Runs -/

theorem StagesRan.evidenceStatus_eq {order : HashOrder} {bytes : Bytes} {value : CborValue} {eventIds : List String}
    {recomputed : String} {graph : List CheckRecord} {report : VerifyReport}
    (stages : StagesRan primitives order ctx bytes value proof eventIds recomputed graph report) :
    report.evidenceStatus = proof.evidence.map fun evidence =>
      let (status, code, _, message) := evidenceOutcomeOf primitives ctx proof (verifiedSet primitives ctx proof)
        (evidence, evidenceMemberId primitives evidence)
      { object := "evd:" ++ evidenceMemberId primitives evidence, status, code, message } := by
  rw [stages.evidenceStatusRecords_eq, evidenceStatusRecords, proofEvidence, ← List.map_prod_left_eq_zip, List.map_map]
  rfl

theorem StagesRan.evidenceStatuses_eq {order : HashOrder} {bytes : Bytes} {value : CborValue} {eventIds : List String}
    {recomputed : String} {graph : List CheckRecord} {report : VerifyReport}
    (stages : StagesRan primitives order ctx bytes value proof eventIds recomputed graph report) :
    report.evidenceStatus.map EvidenceStatusRecord.status = proof.evidence.map fun evidence =>
      (evidenceOutcomeOf primitives ctx proof (verifiedSet primitives ctx proof)
        (evidence, evidenceMemberId primitives evidence)).1 := by
  rw [stages.evidenceStatus_eq, List.map_map]
  rfl

end

/-- Every item has one record, in order, and its status is the documented one unless a compromise behind a
    withdrawal was overlooked or the item refers to a status object. -/
theorem verifyProof_evidenceStatus (primitives : Primitives) (order : HashOrder) (ctx : VerifyCtx) (bytes : Bytes)
    (proof : Proof) (report : VerifyReport)
    (read : (decodeStrict bytes ctx.limits >>= cborToProof ctx.limits) = .ok proof)
    (collisionFree : CollisionFree primitives
      (proof.attestations.map fun stored => encodeCanonical (attestationToCbor stored.content)))
    (done : verifyProof primitives order ctx bytes = .ok report) :
    List.Forall₂ (fun evidence record => record.object = "evd:" ++ evidenceMemberId primitives evidence ∧
        (IsFirst evidencePrecedence (EvidenceApplies primitives ctx proof evidence) record.status ↔
          ¬ CompromiseOverlooked primitives ctx proof evidence ∧ ¬ StatusBacked primitives ctx proof evidence))
      proof.evidence report.evidenceStatus := by
  obtain ⟨value, eventIds, recomputed, graph, stages⟩ := stagesRan_of_read read done
  rw [stages.evidenceStatus_eq, List.forall₂_map_right_iff, List.forall₂_same]
  exact fun evidence _ => ⟨rfl, evidenceStatus_first_iff (verifiedSet_functional collisionFree)⟩

/-! ## Withdrawn evidence behind a compromised key -/

/-- Evidence on which the statement about `acct:2` is said to rest. -/
def ledgerEvidence : Evidence where
  v := 1
  kind := "ledger"
  digest := { v := 1, alg := .sha256, digest := List.replicate 32 0xab }
  attestationRef := some "att:v1:7kq1WwZiKHeuDdR2pU-vaEfo1FhZ-pU0OJo5jc8-9CA"
  hint := none

def ledgerEvidenceDigest : Bytes :=
  [0x03, 0x5a, 0x38, 0xd1, 0x4a, 0x90, 0xcc, 0x30, 0xa0, 0x19, 0x34, 0x2f, 0x0a, 0x34, 0x6d, 0xbd,
   0x42, 0xb7, 0xad, 0x25, 0x68, 0xfa, 0x94, 0x8a, 0x77, 0x92, 0x1e, 0x9f, 0x27, 0xb9, 0x21, 0xb9]

def ledgerEvidenceId : String := "evd:v1:A1o40UqQzDCgGTQvCjRtvUK3rSVo-pSKd5Ienye5Ibk"

/-- A second statement of the same type about `acct:2`, which denies the first and asserts the digest of the
    evidence. -/
def denyingStatement : AttestationContent :=
  { settledStatement "acct:2" with
    claim := {
      claimType := "settled"
      fields := [("denies", .text "att:v1:7kq1WwZiKHeuDdR2pU-vaEfo1FhZ-pU0OJo5jc8-9CA"),
        ("evidence_digest", .text "0xABABABABABABABABABABABABABABABABABABABABABABABABABABABABABABABAB")] }
    evidenceRef := some ledgerEvidenceId }

def denyingDigest : Bytes :=
  [0xc2, 0x19, 0x4e, 0x99, 0x49, 0x13, 0x39, 0x41, 0xed, 0xad, 0xe7, 0x3d, 0x37, 0xd8, 0xf6, 0x88,
   0xcf, 0xa5, 0x59, 0xdf, 0x64, 0xb6, 0x0a, 0x89, 0x26, 0x0f, 0xf6, 0x9b, 0xfe, 0xe6, 0x61, 0x69]

def denyingSignature : Bytes :=
  [0x2b, 0xbb, 0x10, 0xd7, 0xa8, 0x64, 0x48, 0x03, 0xa1, 0xbf, 0x93, 0xdf, 0x04, 0x2a, 0x44, 0x35,
   0x03, 0xd4, 0x89, 0x0a, 0x4d, 0x22, 0xa3, 0x7e, 0xa6, 0xf4, 0x60, 0x6f, 0x5a, 0x45, 0xb2, 0x95,
   0x8d, 0x42, 0x11, 0x34, 0x8d, 0x65, 0xbf, 0x96, 0x6e, 0x41, 0x97, 0x92, 0xbc, 0xbb, 0xe4, 0xea,
   0x74, 0x45, 0x73, 0x8c, 0x1c, 0x03, 0x8c, 0x62, 0x21, 0x13, 0x7a, 0xd3, 0x0e, 0xae, 0xaa, 0x0b]

/-- The test key withdraws the evidence. -/
def withdrawal : AttestationContent :=
  { settledStatement ledgerEvidenceId with
    claim := { claimType := "withdraw", fields := [("target", .text ledgerEvidenceId)] } }

def withdrawalDigest : Bytes :=
  [0xc6, 0x7d, 0x0f, 0x2d, 0x0d, 0x7b, 0x85, 0x2b, 0x95, 0x45, 0x0f, 0xc1, 0xed, 0xf1, 0xac, 0x0d,
   0x8c, 0xa2, 0x1d, 0xab, 0xa6, 0x9f, 0x98, 0x2d, 0x2c, 0xa0, 0x1a, 0xd3, 0xce, 0xf7, 0xfc, 0x8b]

def withdrawalSignature : Bytes :=
  [0x0b, 0x6b, 0x0f, 0x9f, 0xc9, 0x38, 0x66, 0x7b, 0x2a, 0x5c, 0x0f, 0xb2, 0x42, 0x7e, 0xa7, 0x1a,
   0x51, 0x49, 0xc6, 0x0e, 0x97, 0x78, 0x89, 0x36, 0x69, 0xe3, 0x21, 0x0e, 0x9d, 0x66, 0xa7, 0xa3,
   0x4e, 0xb7, 0xa5, 0xdd, 0xa2, 0x93, 0xa9, 0xd0, 0x2a, 0x38, 0x3c, 0xbd, 0xfe, 0xb0, 0xa3, 0x9b,
   0x96, 0xaa, 0x29, 0xdb, 0xca, 0x89, 0x74, 0xa8, 0x19, 0x8c, 0xdb, 0xf0, 0x91, 0xa7, 0xe3, 0x01]

/-- The test key reports itself compromised since the moment of its statements. -/
def selfReport : AttestationContent :=
  { settledStatement testIssuer with
    claim := { claimType := "compromise", fields := [("target", .text testIssuer), ("at_time", .uint 1700000000)] } }

def selfReportDigest : Bytes :=
  [0x5f, 0x2b, 0x84, 0xa7, 0x2e, 0x74, 0xb6, 0x7e, 0x76, 0x1e, 0x0f, 0x7a, 0x98, 0x0f, 0x01, 0x7f,
   0xe3, 0x42, 0x3b, 0xc6, 0xdb, 0x38, 0x17, 0xe2, 0x26, 0xe6, 0x69, 0x5c, 0xf6, 0x99, 0x39, 0xd3]

def selfReportSignature : Bytes :=
  [0x40, 0xdc, 0x92, 0x89, 0x65, 0x52, 0x3f, 0xf7, 0xab, 0xa9, 0x65, 0x37, 0x2c, 0xf4, 0xd1, 0xc2,
   0x6a, 0x04, 0xad, 0xac, 0x0b, 0x0d, 0xe4, 0xda, 0x18, 0x51, 0x52, 0xae, 0x31, 0x95, 0x62, 0x26,
   0x32, 0x12, 0xca, 0x87, 0x8c, 0x51, 0x13, 0x66, 0xae, 0x3a, 0xe6, 0x8d, 0xfd, 0xd5, 0x58, 0x9e,
   0x82, 0xcc, 0x30, 0x61, 0xf3, 0xc5, 0x85, 0xeb, 0x8e, 0xf3, 0xb6, 0x4d, 0x43, 0x7f, 0x16, 0x06]

def contradiction : Relationship where
  v := 1
  source := "att:v1:whlOmUkTOUHtrec9N9j2iM-lWd9ktgqJJg_2m_7mYWk"
  relType := RelType.contradicts
  target := "att:v1:7kq1WwZiKHeuDdR2pU-vaEfo1FhZ-pU0OJo5jc8-9CA"
  evidenceRef := some ledgerEvidenceId
  attestationRef := none

def contradictionDigest : Bytes :=
  [0x13, 0xff, 0xf3, 0x45, 0x28, 0x49, 0xcd, 0xf9, 0x8d, 0xfb, 0x1e, 0xf9, 0xe8, 0x2c, 0xea, 0xe5,
   0xcf, 0x86, 0x29, 0x33, 0x70, 0x65, 0xca, 0xd7, 0xe7, 0xa9, 0x92, 0x7f, 0xce, 0xa4, 0x36, 0x0e]

/-- Content signed by the test key. -/
def signedBytes (content : AttestationContent) (signature : Bytes) : Bytes :=
  sign1Bytes (protectedBytes coseEd25519 testKey) (encodeCanonical (attestationToCbor content)) signature

/-- Two opposed statements and their evidence. -/
def opposedProof : Proof :=
  { bareProof with
    proofId := "prf:v1:1ZT0-YxD4AGKKxHJYqaN2ZLarVSWCohK_DgghpLkbZM"
    attestations := [{ content := settledStatement "acct:2", sign1 := secondSign1 },
      { content := denyingStatement, sign1 := signedBytes denyingStatement denyingSignature }]
    evidence := [ledgerEvidence]
    relationships := [contradiction] }

def memberDigests : List (Bytes × Bytes) :=
  [(statementBytes "acct:2", secondDigest),
   (encodeCanonical (attestationToCbor denyingStatement), denyingDigest),
   (encodeCanonical (evidenceToCbor ledgerEvidence), ledgerEvidenceDigest),
   (encodeCanonical (relationshipToCbor contradiction), contradictionDigest),
   (encodeCanonical (attestationToCbor withdrawal), withdrawalDigest),
   (encodeCanonical (attestationToCbor selfReport), selfReportDigest)]

def opposedDigest : Bytes :=
  [0xd5, 0x94, 0xf4, 0xf9, 0x8c, 0x43, 0xe0, 0x01, 0x8a, 0x2b, 0x11, 0xc9, 0x62, 0xa6, 0x8d, 0xd9,
   0x92, 0xda, 0xad, 0x54, 0x96, 0x0a, 0x88, 0x4a, 0xfc, 0x38, 0x20, 0x86, 0x92, 0xe4, 0x6d, 0x93]

def testSignatures : List (Bytes × Bytes × Bytes) :=
  [(settledStatement "acct:2", secondSignature), (denyingStatement, denyingSignature),
   (withdrawal, withdrawalSignature), (selfReport, selfReportSignature)].map fun (content, signature) =>
    (testKey, sigStructure (protectedBytes coseEd25519 testKey) (encodeCanonical (attestationToCbor content)),
      signature)

def opposedPrimitives : Primitives :=
  Primitives.ofTable
    (memberDigests ++
      [(encodeCanonical (bindingOf (Primitives.ofTable memberDigests []) opposedProof), opposedDigest)])
    testSignatures

def opposedProofBytes : Bytes := ((proofToCbor opposedProof).toOption.map encodeCanonical).getD []

/-- The verifier was given both status objects. -/
def endedContext : VerifyCtx :=
  { signedContext.toVerifyCtx with
    statusObjects := [{ content := withdrawal, sign1 := signedBytes withdrawal withdrawalSignature },
      { content := selfReport, sign1 := signedBytes selfReport selfReportSignature }] }

theorem opposedProof_read :
    (decodeStrict opposedProofBytes Limits.default >>= cborToProof Limits.default) = .ok opposedProof := by
  decide +kernel

theorem opposedProof_collisionFree : CollisionFree opposedPrimitives
    (opposedProof.attestations.map fun stored => encodeCanonical (attestationToCbor stored.content)) := by
  have first : opposedPrimitives.sha256 (statementBytes "acct:2") = ⟨secondDigest, rfl⟩ := by decide +kernel
  have second : opposedPrimitives.sha256 (encodeCanonical (attestationToCbor denyingStatement)) =
      ⟨denyingDigest, rfl⟩ := by decide +kernel
  intro left leftIn right rightIn same
  simp only [opposedProof, List.map_cons, List.map_nil, List.mem_cons, List.not_mem_nil, or_false] at leftIn rightIn
  rcases leftIn with rfl | rfl <;> rcases rightIn with rfl | rfl
  · rfl
  · exact absurd ((first.symm.trans same).trans second) (by decide)
  · exact absurd ((second.symm.trans same).trans first) (by decide)
  · rfl

def opposedVerified : VerifiedSet :=
  [("att:v1:7kq1WwZiKHeuDdR2pU-vaEfo1FhZ-pU0OJo5jc8-9CA", settledStatement "acct:2"),
   ("att:v1:whlOmUkTOUHtrec9N9j2iM-lWd9ktgqJJg_2m_7mYWk", denyingStatement)]

theorem opposedProof_entries :
    verifyEntries opposedPrimitives endedContext (proofEntries opposedPrimitives opposedProof) =
      (opposedVerified.flatMap fun entry =>
        [.pass .signatures ("att:" ++ entry.1) (signatureMessage coseEd25519),
         .pass .keys ("att:" ++ entry.1) "kid well-formed, alg matches key shape, issuer bound to key"],
       opposedVerified) := by
  decide +kernel

theorem opposedProof_verified : verifiedSet opposedPrimitives endedContext opposedProof = opposedVerified := by
  rw [verifiedSet, opposedProof_entries]

theorem ledgerEvidence_id : evidenceMemberId opposedPrimitives ledgerEvidence = ledgerEvidenceId := by
  decide +kernel

/-- Both status objects take effect. -/
theorem endedContext_counting :
    counting opposedPrimitives endedContext opposedProof
        (verifiedSet opposedPrimitives endedContext opposedProof) =
      [{ target := ledgerEvidenceId, kind := .withdraw, issuer := testIssuer, issuedAt := 1700000000,
         object := "status:1", atTime := none },
       { target := testIssuer, kind := .compromise, issuer := testIssuer, issuedAt := 1700000000,
         object := "status:2", atTime := some 1700000000 }] := by
  have found : effects opposedPrimitives endedContext opposedVerified =
      [{ target := ledgerEvidenceId, kind := .withdraw, issuer := testIssuer, issuedAt := 1700000000,
         object := "status:1", atTime := none },
       { target := testIssuer, kind := .compromise, issuer := testIssuer, issuedAt := 1700000000,
         object := "status:2", atTime := some 1700000000 }] := by decide +kernel
  rw [opposedProof_verified, counting, found]
  decide +kernel

theorem ledgerEvidence_withdrawn :
    (evidenceOutcomeOf opposedPrimitives endedContext opposedProof
      (verifiedSet opposedPrimitives endedContext opposedProof)
      (ledgerEvidence, evidenceMemberId opposedPrimitives ledgerEvidence)).1 = .withdrawn := by
  have unmarked : ((compromises opposedPrimitives endedContext opposedProof
      (verifiedSet opposedPrimitives endedContext opposedProof)).any fun (target, _) =>
        target = evidenceMemberId opposedPrimitives ledgerEvidence) = false := by
    rw [compromises, endedContext_counting, ledgerEvidence_id]
    rfl
  have withdrawn : ((applies opposedPrimitives endedContext opposedProof
      (verifiedSet opposedPrimitives endedContext opposedProof)).any fun (target, kind) =>
        target = evidenceMemberId opposedPrimitives ledgerEvidence && kind = .withdraw) = true := by
    rw [applies, endedContext_counting, ledgerEvidence_id]
    rfl
  rw [evidenceOutcomeOf_status, unmarked, withdrawn]
  rfl

theorem ledgerEvidence_compromised :
    EvidenceApplies opposedPrimitives endedContext opposedProof ledgerEvidence .compromised := by
  refine .inr (backedBy_compromised.mpr ⟨_, settledStatement "acct:2", rfl, ?_, ?_⟩)
  · rw [opposedProof_verified]
    decide
  · rw [← compromised_iff (verifiedSet_functional opposedProof_collisionFree), compromises, endedContext_counting]
    rfl

/-- Both statements were issued by the marked key, at the instant from which it is marked. -/
theorem opposedProof_compromised {order : HashOrder} {report : VerifyReport}
    (done : verifyProof opposedPrimitives order endedContext opposedProofBytes = .ok report) :
    report.lifecycle.length = 2 ∧ ∀ record ∈ report.lifecycle, record.status = .compromised := by
  obtain ⟨_, _, _, _, stages⟩ := @stagesRan_of_read _ _ endedContext _ _ _ opposedProof_read done
  have marks : compromises opposedPrimitives endedContext opposedProof opposedVerified =
      [(testIssuer, 1700000000)] := by
    rw [← opposedProof_verified, compromises, endedContext_counting]
    rfl
  have all : statements opposedVerified = opposedVerified := by decide +kernel
  rw [stages.lifecycle_eq, lifecycle, opposedProof_verified, all, List.length_map, List.forall_mem_map]
  refine ⟨rfl, fun entry member => ?_⟩
  simp only [opposedVerified, List.mem_cons, List.not_mem_nil, or_false] at member
  rcases member with rfl | rfl <;> simp only [lifecycleRecord, lifecycleStatus, marks] <;> rfl

theorem opposedProof_reported :
    ∃ report, verifyProof opposedPrimitives .inserted endedContext opposedProofBytes = .ok report :=
  verifyProof_of_inputs _ _ _ rfl

/-- What the verdicts of a run with these limits and algorithms come down to. -/
theorem opposedProof_valid_of {ctx : VerifyCtx} (limits : ctx.limits = endedContext.limits)
    (algs : ctx.allowedAlgs = endedContext.allowedAlgs) (inputs : checkInputs ctx = .ok ())
    (clean : ∀ graph, graphChecks opposedPrimitives ctx .inserted opposedProof
        (memberNodes opposedPrimitives opposedProof []) = .ok graph →
      verifiedSet opposedPrimitives ctx opposedProof = opposedVerified →
      EvidenceClean opposedPrimitives ctx opposedProof (memberNodes opposedPrimitives opposedProof []) graph) :
    ∃ report, verifyProof opposedPrimitives .inserted ctx opposedProofBytes = .ok report ∧
      report.cryptographicValidity = .valid ∧ report.evidenceValidity = .valid := by
  have read : (decodeStrict opposedProofBytes ctx.limits >>= cborToProof ctx.limits) = .ok opposedProof := by
    rw [limits]
    exact opposedProof_read
  obtain ⟨report, done⟩ := verifyProof_of_inputs opposedPrimitives .inserted opposedProofBytes inputs
  obtain ⟨value, eventIds, recomputed, graph, stages⟩ := stagesRan_of_read read done
  have verified : verifiedSet opposedPrimitives ctx opposedProof = opposedVerified := by
    rw [verifiedSet_congr limits algs, opposedProof_verified]
  have eventless : eventIds = [] := (Except.ok.inj stages.events).symm
  subst eventless
  refine ⟨report, done, stages.cryptoValid_iff.mpr ⟨?_, ?_⟩,
    stages.evidenceValid_iff.mpr (clean graph stages.graphDone verified)⟩
  · have id : recomputedProofId opposedPrimitives opposedProof = .ok opposedProof.proofId := by decide +kernel
    exact Except.ok.inj (stages.named.symm.trans id)
  · rw [signatureChecks, verifyEntries_congr limits algs, opposedProof_entries]
    decide

theorem opposedProof_lifecycle :
    ∃ report, verifyProof opposedPrimitives .inserted endedContext opposedProofBytes = .ok report ∧
      report.lifecycle.length = 2 ∧ (∀ record ∈ report.lifecycle, record.status = .compromised) ∧
      List.Forall₂ (fun entry record => record.object = "att:" ++ entry.1 ∧
          FirstApplying (StatusApplies opposedPrimitives endedContext opposedProof entry.1 entry.2) record.status)
        (statements (verifiedSet opposedPrimitives endedContext opposedProof)) report.lifecycle := by
  obtain ⟨report, done⟩ := opposedProof_reported
  obtain ⟨two, compromised⟩ := opposedProof_compromised done
  exact ⟨report, done, two, compromised,
    (verifyProof_lifecycle _ _ endedContext _ _ _ opposedProof_read opposedProof_collisionFree done).2⟩

/-- Its evidence is withdrawn and the key behind it compromised: the report says withdrawn. -/
theorem opposedProof_overlooked :
    ∃ report, verifyProof opposedPrimitives .inserted endedContext opposedProofBytes = .ok report ∧
      report.evidenceStatus.map EvidenceStatusRecord.status = [.withdrawn] ∧
      EvidenceApplies opposedPrimitives endedContext opposedProof ledgerEvidence .compromised ∧
      ¬ IsFirst evidencePrecedence (EvidenceApplies opposedPrimitives endedContext opposedProof ledgerEvidence)
        .withdrawn := by
  obtain ⟨report, done⟩ := opposedProof_reported
  obtain ⟨_, _, _, _, stages⟩ := @stagesRan_of_read _ _ endedContext _ _ _ opposedProof_read done
  refine ⟨report, done, ?_, ledgerEvidence_compromised, ?_⟩
  · have one : opposedProof.evidence = [ledgerEvidence] := rfl
    rw [stages.evidenceStatuses_eq, one, List.map_singleton, ledgerEvidence_withdrawn]
  · rw [evidencePrecedence, isFirst_cons]
    rintro (⟨same, _⟩ | ⟨notHead, _⟩)
    · cases same
    · exact notHead ledgerEvidence_compromised

theorem opposedProof_evidenceStatus :
    ∃ report, verifyProof opposedPrimitives .inserted endedContext opposedProofBytes = .ok report ∧
      List.Forall₂ (fun evidence record => record.object = "evd:" ++ evidenceMemberId opposedPrimitives evidence ∧
          (IsFirst evidencePrecedence (EvidenceApplies opposedPrimitives endedContext opposedProof evidence)
              record.status ↔
            ¬ CompromiseOverlooked opposedPrimitives endedContext opposedProof evidence ∧
              ¬ StatusBacked opposedPrimitives endedContext opposedProof evidence))
        opposedProof.evidence report.evidenceStatus := by
  obtain ⟨report, done⟩ := opposedProof_reported
  exact ⟨report, done,
    verifyProof_evidenceStatus _ _ endedContext _ _ _ opposedProof_read opposedProof_collisionFree done⟩

end ProofEngine
