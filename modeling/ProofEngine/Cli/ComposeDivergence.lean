import ProofEngine.Cli.ComposeExact
import ProofEngine.Crypto.RaisedLimits
import ProofEngine.Verify.ConflictsExact
import ProofEngine.Verify.FeedGate

/-! # Divergence in compositions

A composition flags a topic when two of its attestations on it have different fields.  The verifier of the composite
records the same for statements only: every attestation of the composite verifies there, but those about the status of
something are no statements. -/

namespace ProofEngine

open Text StableSort FirstBy ResultOrder

/-! ## Flags -/

def DivergentPair.topic (pair : DivergentPair) : String × String := (pair.claimType, pair.subject)

/-- Two of the attestations are on the topic and have different fields. -/
def Differ (attestations : List AttestationContent) (topic : String × String) : Prop :=
  ∃ left ∈ attestations, ∃ right ∈ attestations,
    topicOf left = topic ∧ topicOf right = topic ∧ left.claim.fields ≠ right.claim.fields

theorem Differ.mono {attestations others : List AttestationContent} {topic : String × String}
    (within : attestations ⊆ others) (differ : Differ attestations topic) : Differ others topic := by
  obtain ⟨left, leftMember, right, rightMember, about⟩ := differ
  exact ⟨left, within leftMember, right, within rightMember, about⟩

section
variable {attestations : List CreatedAttestation} {group : (String × String) × List CreatedAttestation}

theorem topic_of_mem_groupPairs {pair : DivergentPair} (member : pair ∈ groupPairs group) : pair.topic = group.1 := by
  rw [groupPairs] at member
  split at member
  · cases member
  · obtain ⟨candidate, _, rfl⟩ := List.mem_map.mp member
    rfl

/-- Comparing with one member of a group is comparing all with each other. -/
theorem exists_groupPairs :
    (∃ pair, pair ∈ groupPairs group) ↔
      ∃ left ∈ group.2, ∃ right ∈ group.2, left.content.claim.fields ≠ right.content.claim.fields := by
  have sorted : ∀ created, created ∈ group.2 ↔ created ∈ sortOn (fun created => utf8 created.id) group.2 :=
    fun created => mem_sortOn.symm
  simp only [sorted, groupPairs]
  generalize sortOn (fun created => utf8 created.id) group.2 = members
  cases members with
  | nil => simp
  | cons base candidates =>
    simp only [List.mem_map, List.mem_filter, decide_eq_true_eq]
    constructor
    · rintro ⟨_, candidate, ⟨member, differ⟩, rfl⟩
      exact ⟨base, List.mem_cons_self, candidate, List.mem_cons_of_mem _ member, differ⟩
    · rintro ⟨left, leftMember, right, rightMember, differ⟩
      by_contra unflagged
      have agrees : ∀ created ∈ base :: candidates, base.content.claim.fields = created.content.claim.fields := by
        intro created member
        rcases List.mem_cons.mp member with rfl | member
        · rfl
        · by_contra other
          exact unflagged ⟨_, created, ⟨member, other⟩, rfl⟩
      exact differ ((agrees left leftMember).symm.trans (agrees right rightMember))

theorem mem_byClaim :
    group ∈ byClaim attestations ↔ (∃ created ∈ attestations, topicOf created.content = group.1) ∧
      group.2 = attestations.filter fun created => topicOf created.content = group.1 := by
  rw [byClaim, List.mem_map]
  constructor
  · rintro ⟨topic, member, rfl⟩
    exact ⟨List.mem_map.mp (List.mem_dedup.mp member), rfl⟩
  · rintro ⟨created, members⟩
    refine ⟨group.1, List.mem_dedup.mpr (List.mem_map.mpr created), ?_⟩
    exact Prod.ext rfl members.symm

/-- A topic is flagged when attestations on it differ, in whatever order maps are walked. -/
theorem flagged_iff {maps : MapOrder} {topic : String × String} :
    (∃ pair ∈ divergentPairs maps attestations, pair.topic = topic) ↔
      Differ (attestations.map CreatedAttestation.content) topic := by
  have walked := maps.perm .attestations attestations
  constructor
  · rintro ⟨pair, member, about⟩
    obtain ⟨group, visited, flagged⟩ := List.mem_flatMap.mp member
    obtain ⟨_, members⟩ := mem_byClaim.mp ((maps.perm _ _).subset visited)
    obtain ⟨left, leftMember, right, rightMember, differ⟩ := exists_groupPairs.mp ⟨pair, flagged⟩
    rw [members, List.mem_filter, decide_eq_true_eq, ← topic_of_mem_groupPairs flagged, about] at leftMember rightMember
    exact ⟨_, List.mem_map_of_mem (walked.subset leftMember.1), _, List.mem_map_of_mem (walked.subset rightMember.1),
      leftMember.2, rightMember.2, differ⟩
  · rintro ⟨_, leftMember, _, rightMember, leftAbout, rightAbout, differ⟩
    obtain ⟨left, leftHere, rfl⟩ := List.mem_map.mp leftMember
    obtain ⟨right, rightHere, rfl⟩ := List.mem_map.mp rightMember
    have leftVisited := walked.symm.subset leftHere
    have rightVisited := walked.symm.subset rightHere
    let group := (topic, (maps.visit .attestations attestations).filter fun created => topicOf created.content = topic)
    have grouped : group ∈ byClaim (maps.visit .attestations attestations) :=
      mem_byClaim.mpr ⟨⟨left, leftVisited, leftAbout⟩, rfl⟩
    have leftGrouped : left ∈ group.2 := List.mem_filter.mpr ⟨leftVisited, decide_eq_true leftAbout⟩
    have rightGrouped : right ∈ group.2 := List.mem_filter.mpr ⟨rightVisited, decide_eq_true rightAbout⟩
    obtain ⟨pair, flagged⟩ := exists_groupPairs.mpr ⟨left, leftGrouped, right, rightGrouped, differ⟩
    exact ⟨pair, List.mem_flatMap.mpr ⟨_, (maps.perm _ _).symm.subset grouped, flagged⟩,
      topic_of_mem_groupPairs flagged⟩

end

/-! ## Statements -/

/-- The claim types that say something about the status of another member. -/
def statusTypes : List String := [ClaimType.revoke, ClaimType.supersede, ClaimType.withdraw, ClaimType.compromise]

theorem isStatement_iff {content : AttestationContent} :
    isStatement content = true ↔ content.claim.claimType ∉ statusTypes := by
  have listed : content.claim.claimType ∉ statusTypes ↔ content.claim.claimType ≠ ClaimType.revoke ∧
      content.claim.claimType ≠ ClaimType.supersede ∧ content.claim.claimType ≠ ClaimType.withdraw ∧
      content.claim.claimType ≠ ClaimType.compromise := by simp [statusTypes]
  rw [isStatement, decide_eq_true_eq, listed, claimKind]
  split
  · simp [*]
  · split
    · simp [*]
    · split
      · simp [*]
      · split <;> simp [*]

/-- Records of divergent claims are about statements that differ. -/
theorem recorded_iff {verified : VerifiedSet} {proof : Proof} {topic : String × String} :
    (∃ record ∈ conflicts proof verified, record.kind = .divergentClaims ∧ record.topic = topic) ↔
      topic.1 ∉ statusTypes ∧ Differ (verified.map Prod.snd) topic := by
  rw [(conflicts_exact proof verified).divergent topic]
  have mem_topic : ∀ entry, entry ∈ topicMembers verified topic ↔
      entry ∈ verified ∧ entry.2.claim.claimType ∉ statusTypes ∧ topicOf entry.2 = topic := by
    intro entry
    rw [topicMembers, statements, List.mem_filter, List.mem_filter, isStatement_iff, decide_eq_true_eq, and_assoc]
  constructor
  · rintro ⟨left, leftMember, right, rightMember, differ⟩
    obtain ⟨leftHere, statement, leftAbout⟩ := (mem_topic left).mp leftMember
    obtain ⟨rightHere, _, rightAbout⟩ := (mem_topic right).mp rightMember
    have types : left.2.claim.claimType = right.2.claim.claimType :=
      congrArg Prod.fst (leftAbout.trans rightAbout.symm)
    have typeIs : left.2.claim.claimType = topic.1 := congrArg Prod.fst leftAbout
    refine ⟨typeIs ▸ statement, left.2, List.mem_map_of_mem leftHere, right.2, List.mem_map_of_mem rightHere, leftAbout,
      rightAbout, fun fields => differ ?_⟩
    -- a claim is its type and its fields
    cases leftClaim : left.2.claim
    cases rightClaim : right.2.claim
    simp_all
  · rintro ⟨statement, _, leftMember, _, rightMember, leftAbout, rightAbout, differ⟩
    obtain ⟨left, leftHere, rfl⟩ := List.mem_map.mp leftMember
    obtain ⟨right, rightHere, rfl⟩ := List.mem_map.mp rightMember
    have leftType : left.2.claim.claimType = topic.1 := congrArg Prod.fst leftAbout
    have rightType : right.2.claim.claimType = topic.1 := congrArg Prod.fst rightAbout
    exact ⟨left, (mem_topic left).mpr ⟨leftHere, leftType ▸ statement, leftAbout⟩, right,
      (mem_topic right).mpr ⟨rightHere, rightType ▸ statement, rightAbout⟩,
      fun same => differ (congrArg Claim.fields same)⟩

/-! ## Attestations of a composite verify -/

section
variable {primitives : Primitives} {maps : MapOrder} {order : HashOrder} {cli : Cli} {inputs : List Proof}
  {gathered : Gathered} {graph : UnionGraph} {builder : ProofBuilder} {composition : Composition} {ctx : VerifyCtx}

/-- What is signed with Ed25519 verifies for everyone who admits that and has no lower limits. -/
theorem verifyEntry_of_strictlySigned {stored : StoredAttestation}
    (signed : StrictlySigned primitives (createdOf primitives stored)) (permitted : ctx.allowedAlgs.ed25519 = true)
    (below : Limits.default.Below ctx.limits) :
    ∃ alg, verifyEntry primitives ctx stored (attestationMemberId primitives stored.content) = .ok alg := by
  have widened := verifyAttestation_widens permitted below _ _ _ signed
  obtain ⟨parsed, scheme, shape, signedBy, _⟩ := verifyAttestation_sound signed
  have shaped := parseSign1_extends below _ _ shape
  have bound : stored.content.issuer = selfBoundIssuer parsed := by
    have issuerIs : stored.content.issuer = scheme.keyRef parsed.kid := signedBy.issuerIs
    have admitted := signedBy.admitted
    cases scheme with
    | ed25519 =>
      obtain ⟨alg, _⟩ | ⟨deprecated, _⟩ := admitted
      · rw [issuerIs, selfBoundIssuer, if_pos alg]
        rfl
      · cases deprecated
    | p256 =>
      obtain ⟨alg, allowed⟩ | ⟨deprecated, _⟩ := admitted
      · rw [alg] at allowed
        exact absurd allowed (by decide)
      · cases deprecated
  refine ⟨parsed.alg, ?_⟩
  have verified : verifyAttestation primitives stored.sign1 (selfBoundIssuer parsed) ctx.allowedAlgs ctx.limits =
      .ok (stored.content, attestationMemberId primitives stored.content) := bound ▸ widened
  have shapedHere : parseSign1 stored.sign1 ctx.limits = .ok parsed := shaped
  simp only [verifyEntry, shapedHere, verified, ne_eq, not_true_eq_false, or_self, if_false]

/-- The members of the kept inputs that hold attestations, the first under each id. -/
def keptStored (primitives : Primitives) (inputs : List Proof) : List StoredAttestation :=
  keptMembers (fun stored => attestationMemberId primitives stored.content) Proof.attestations inputs

def keptAttestations (primitives : Primitives) (inputs : List Proof) : List AttestationContent :=
  (keptStored primitives inputs).map StoredAttestation.content

/-- Of these, the ones that verify for the context. -/
def admittedAttestations (primitives : Primitives) (ctx : VerifyCtx) (inputs : List Proof) : List AttestationContent :=
  ((keptStored primitives inputs).filter fun stored =>
    (verifyEntry primitives ctx stored (attestationMemberId primitives stored.content)).isOk).map
      StoredAttestation.content

/-- The bytes are a proof within the limits. -/
def Readable (limits : Limits) (bytes : Bytes) : Prop := (decodeStrict bytes limits >>= cborToProof limits).isOk

theorem Gathers.attestation_contents (gathers : Gathers primitives inputs gathered) :
    gathered.attestations.map CreatedAttestation.content = keptAttestations primitives inputs := by
  have entries := @map_keptEntries inputs _ _ CreatedAttestation.id (createdOf primitives)
    (fun created => { content := created.content, sign1 := created.sign1 }) Proof.attestations fun _ => rfl
  rw [← gathers.attestations] at entries
  have contents := congrArg (List.map StoredAttestation.content) entries
  rw [List.map_map] at contents
  exact contents

theorem ComposeRan.signed (ran : ComposeRan primitives maps order cli inputs gathered graph builder composition) :
    ∀ stored ∈ keptStored primitives inputs, StrictlySigned primitives (createdOf primitives stored) := by
  intro stored kept
  have entries := @map_keptEntries inputs _ _ CreatedAttestation.id (createdOf primitives)
    (fun created => { content := created.content, sign1 := created.sign1 }) Proof.attestations fun _ => rfl
  rw [← ran.gathers.attestations] at entries
  have storedHere : stored ∈ gathered.attestations.map fun created =>
      ({ content := created.content, sign1 := created.sign1 } : StoredAttestation) := by
    rw [entries]
    exact kept
  obtain ⟨created, inside, rfl⟩ := List.mem_map.mp storedHere
  have signed := ran.gathers.signed created inside
  rw [ran.gathers.attestations] at inside
  obtain ⟨input, _, listed⟩ := List.mem_flatMap.mp (mem_of_mem_firstBy inside)
  obtain ⟨original, _, rfl⟩ := List.mem_map.mp listed
  exact signed

/-- Lower limits apart, all that is kept is admitted. -/
theorem ComposeRan.admitted_eq (ran : ComposeRan primitives maps order cli inputs gathered graph builder composition)
    (permitted : ctx.allowedAlgs.ed25519 = true) (below : Limits.default.Below ctx.limits) :
    admittedAttestations primitives ctx inputs = keptAttestations primitives inputs := by
  rw [admittedAttestations, keptAttestations]
  refine congrArg _ (List.filter_eq_self.mpr fun stored kept => ?_)
  obtain ⟨alg, verifies⟩ := verifyEntry_of_strictlySigned (ran.signed stored kept) permitted below
  rw [verifies]
  rfl

/-- The verifier sees the kept attestations that it admits. -/
theorem ComposeRan.verified (ran : ComposeRan primitives maps order cli inputs gathered graph builder composition)
    (content : AttestationContent) :
    content ∈ (verifiedSet primitives ctx composition.built.proof).map Prod.snd ↔
      content ∈ admittedAttestations primitives ctx inputs := by
  have held := ran.holds.attestations
  constructor
  · intro member
    obtain ⟨⟨id, _⟩, inside, rfl⟩ := List.mem_map.mp member
    obtain ⟨entry, alg, inEntries, rfl, verifies⟩ := mem_verifyEntries inside
    rw [proofEntries_eq] at inEntries
    obtain ⟨stored, storedMember, same⟩ := List.mem_map.mp inEntries
    cases same
    refine List.mem_map_of_mem (List.mem_filter.mpr ⟨held.subset storedMember, ?_⟩)
    rw [verifies]
    rfl
  · intro member
    obtain ⟨stored, inside, rfl⟩ := List.mem_map.mp member
    obtain ⟨kept, admitted⟩ := List.mem_filter.mp inside
    obtain ⟨alg, verifies⟩ := exists_of_isOk admitted
    have listed : (stored, attestationMemberId primitives stored.content) ∈
        proofEntries primitives composition.built.proof := by
      rw [proofEntries_eq]
      exact List.mem_map_of_mem (held.symm.subset kept)
    exact List.mem_map.mpr ⟨_, mem_verifyEntries_of listed verifies, rfl⟩

theorem ComposeRan.readable (ran : ComposeRan primitives maps order cli inputs gathered graph builder composition)
    (below : Limits.default.Below ctx.limits) : Readable ctx.limits composition.built.canonical := by
  obtain ⟨_, _, _, _, _, read⟩ := build_eq_ok ran.built
  rw [Readable, readProof_extends below _ _ read]
  rfl

/-- A report on a composite records divergence among the attestations that verify in it, if it can be read. -/
theorem ComposeRan.recorded {verifyOrder : HashOrder} {report : VerifyReport} {topic : String × String}
    (ran : ComposeRan primitives maps order cli inputs gathered graph builder composition)
    (verified : verifyProof primitives verifyOrder ctx composition.built.canonical = .ok report) :
    (∃ record ∈ report.conflicts, record.kind = .divergentClaims ∧ record.topic = topic) ↔
      topic.1 ∉ statusTypes ∧ Readable ctx.limits composition.built.canonical ∧
        Differ (admittedAttestations primitives ctx inputs) topic := by
  by_cases readable : Readable ctx.limits composition.built.canonical
  · obtain ⟨proof, read⟩ := exists_of_isOk readable
    obtain ⟨_, _, _, _, _, readBuilt⟩ := build_eq_ok ran.built
    obtain rfl := readProof_unique readBuilt read
    obtain ⟨_, _, _, _, stages⟩ := stagesRan_of_read read verified
    have conflicting : report.conflicts = conflicts composition.built.proof
        (verifiedSet primitives ctx composition.built.proof) := by
      rw [stages.reported]
      rfl
    have same : Differ ((verifiedSet primitives ctx composition.built.proof).map Prod.snd) topic ↔
        Differ (admittedAttestations primitives ctx inputs) topic :=
      ⟨Differ.mono fun content => (ran.verified content).mp, Differ.mono fun content => (ran.verified content).mpr⟩
    rw [conflicting, recorded_iff, same]
    simp [readable]
  · have unread : report.conflicts = [] := by
      cases verifyProof_ran verified with
      | unparsed failed => rfl
      | misshapen decoded failed => rfl
      | completed stages =>
        refine absurd ?_ readable
        rw [Readable, stages.decoded, ok_bind, stages.parsed]
        rfl
    simp [unread, readable]

/-- Flags and records agree on a topic. -/
def TopicAgrees (composition : Composition) (report : VerifyReport) (topic : String × String) : Prop :=
  (∃ pair ∈ composition.divergent, pair.topic = topic) ↔
    ∃ record ∈ report.conflicts, record.kind = .divergentClaims ∧ record.topic = topic

theorem ComposeRan.topicAgrees_iff {verifyOrder : HashOrder} {report : VerifyReport} {topic : String × String}
    (ran : ComposeRan primitives maps order cli inputs gathered graph builder composition)
    (verified : verifyProof primitives verifyOrder ctx composition.built.canonical = .ok report) :
    TopicAgrees composition report topic ↔
      ¬ Differ (keptAttestations primitives inputs) topic ∨
        topic.1 ∉ statusTypes ∧ Readable ctx.limits composition.built.canonical ∧
          Differ (admittedAttestations primitives ctx inputs) topic := by
  have kept : Differ (admittedAttestations primitives ctx inputs) topic →
      Differ (keptAttestations primitives inputs) topic :=
    Differ.mono (List.map_subset _ List.filter_sublist.subset)
  rw [TopicAgrees, ran.flagged, flagged_iff, ran.gathers.attestation_contents, ran.recorded verified]
  by_cases differ : Differ (keptAttestations primitives inputs) topic
  · simp [differ]
  · have unseen : ¬ Differ (admittedAttestations primitives ctx inputs) topic := fun admitted => differ (kept admitted)
    simp [differ, unseen]

end

/-! ## Where flags and records agree -/

/-- A composition flags a topic and its verifier records it alike exactly where nothing differs, or where the claims
    are statements and the verifier admits two that differ.  With the limits of compositions it admits all of them, so
    that only the type of the claims counts. -/
theorem compose_divergence_iff (primitives : Primitives) (maps : MapOrder) (libraries : Libraries)
    (order verifyOrder : HashOrder) (cli : Cli) (world after : World) (composition : Composition) (ctx : VerifyCtx)
    (report : VerifyReport)
    (done : compose primitives maps libraries order cli world = .ok composition after)
    (permitted : ctx.allowedAlgs.ed25519 = true)
    (verified : verifyProof primitives verifyOrder ctx composition.built.canonical = .ok report) :
    ∃ inputs, ComposeInputs libraries cli world inputs ∧
      (∀ topic, TopicAgrees composition report topic ↔
        ¬ Differ (keptAttestations primitives inputs) topic ∨
          topic.1 ∉ statusTypes ∧ Readable ctx.limits composition.built.canonical ∧
            Differ (admittedAttestations primitives ctx inputs) topic) ∧
      (Limits.default.Below ctx.limits →
        (Readable ctx.limits composition.built.canonical ∧
          admittedAttestations primitives ctx inputs = keptAttestations primitives inputs) ∧
        ∀ topic, TopicAgrees composition report topic ↔
          ¬ Differ (keptAttestations primitives inputs) topic ∨ topic.1 ∉ statusTypes) := by
  obtain ⟨inputs, gathered, graph, builder, given, ran⟩ := compose_ran done
  refine ⟨inputs, given, fun topic => ran.topicAgrees_iff verified, fun below => ?_⟩
  have readable := ran.readable below
  have admitted := ran.admitted_eq permitted below
  refine ⟨⟨readable, admitted⟩, fun topic => ?_⟩
  rw [ran.topicAgrees_iff verified, admitted]
  by_cases differ : Differ (keptAttestations primitives inputs) topic
  · simp [differ, readable]
  · simp [differ]

/-! ## Differing statements and differing revocations -/

/-- The test key's second statement about `acct:2`, with an amount. -/
def partialStatement : AttestationContent :=
  { settledStatement "acct:2" with claim := { claimType := "settled", fields := [("amount", .uint 5)] } }

/-- The revocation of the same attestation with a reason. -/
def reasonedRevocation : AttestationContent :=
  { strayRevocation with
    claim := {
      claimType := "revoke"
      fields := [("reason", .text "chargeback"),
        ("target", .text "att:v1:EQB6Ylr9Kh3zUX-5cJsv6vjTYeMpcGrTKJ6z-c15wt4")] } }

def partialDigest : Bytes :=
  [0x38, 0xb6, 0xbf, 0x4a, 0x91, 0x83, 0xcc, 0x46, 0xe3, 0x72, 0x3d, 0xdd, 0x90, 0x87, 0x98, 0x4e,
   0xd8, 0x7a, 0x73, 0x57, 0x20, 0x42, 0x1a, 0x69, 0xcf, 0x16, 0xa0, 0x8f, 0x61, 0x44, 0x95, 0x7c]

def reasonedDigest : Bytes :=
  [0x05, 0x0c, 0x86, 0x07, 0xa2, 0x3a, 0x96, 0x31, 0xd9, 0xf2, 0xeb, 0xc6, 0xff, 0x97, 0x93, 0xbe,
   0x44, 0x17, 0x01, 0x0f, 0xb0, 0x45, 0x3e, 0x08, 0xbc, 0xe8, 0x46, 0xd5, 0x06, 0xff, 0x9d, 0xaa]

/-- The test key's signature over the statement with an amount. -/
def partialSignature : Bytes :=
  [0x29, 0x90, 0x39, 0x17, 0xae, 0xdc, 0x07, 0xf8, 0x4c, 0xe5, 0x55, 0xbc, 0x7f, 0x0b, 0x33, 0xc2,
   0x52, 0x93, 0xc4, 0xe6, 0xcf, 0x3c, 0x3c, 0xbf, 0xa8, 0x86, 0x08, 0x84, 0xea, 0xac, 0xae, 0x79,
   0x00, 0x4c, 0x99, 0x09, 0x15, 0xff, 0x07, 0xdf, 0xd9, 0x41, 0xe8, 0x14, 0x4f, 0x87, 0xa8, 0xb6,
   0xc3, 0x8d, 0x74, 0xb6, 0xda, 0x7c, 0x65, 0x32, 0x2c, 0xe5, 0xda, 0x4f, 0xae, 0x6a, 0x84, 0x02]

/-- The test key's signature over the revocation with a reason. -/
def reasonedSignature : Bytes :=
  [0xae, 0xbc, 0x8e, 0x2c, 0x80, 0xb1, 0x36, 0x87, 0x6b, 0x73, 0x49, 0x72, 0xf6, 0xe6, 0x86, 0xcf,
   0x5a, 0x44, 0x89, 0x23, 0x54, 0x23, 0x12, 0x2c, 0x61, 0x60, 0x74, 0xc4, 0x60, 0xfb, 0x5a, 0x73,
   0x08, 0x97, 0x89, 0x7e, 0xc2, 0x8d, 0x67, 0x6a, 0xa0, 0x43, 0x2a, 0x10, 0x0e, 0xb5, 0x01, 0xc3,
   0xb7, 0x01, 0xc0, 0x89, 0xfc, 0x29, 0xd7, 0x7c, 0xef, 0xc6, 0x8e, 0x54, 0x11, 0x43, 0x27, 0x0e]

/-- Content signed by the test key. -/
def storedByTestKey (content : AttestationContent) (signature : Bytes) : StoredAttestation where
  content := content
  sign1 := sign1Bytes (protectedBytes coseEd25519 testKey) (encodeCanonical (attestationToCbor content)) signature

/-- The proof that disputes both members of `strayProof`. -/
def disputingProof : Proof :=
  { bareProof with
    proofId := "prf:v1:1gSe04Te1VTRS6JVHw4ChaOV9N2VImaGgQxKXu1jzsU"
    attestations := [storedByTestKey partialStatement partialSignature,
      storedByTestKey reasonedRevocation reasonedSignature] }

def disputingProofBytes : Bytes := ((proofToCbor disputingProof).toOption.map encodeCanonical).getD []

/-- The composition of both proofs. -/
def disputedComposite : Proof :=
  { bareProof with
    proofId := "prf:v1:vaDJ4VrFq0PqUM0j5rKqxy8-G2muoo15E1yzp8f-JxI"
    attestations := [storedByTestKey strayRevocation straySignature,
      storedByTestKey (settledStatement "acct:2") secondSignature,
      storedByTestKey reasonedRevocation reasonedSignature, storedByTestKey partialStatement partialSignature]
    referencedProofs := [disputingProof.proofId, strayProof.proofId]
    createdAt := 1700000100 }

def disputedDigests : List (Bytes × Bytes) :=
  strayMemberDigests ++ [(encodeCanonical (attestationToCbor partialStatement), partialDigest),
    (encodeCanonical (attestationToCbor reasonedRevocation), reasonedDigest)]

def disputedSignatures : List (Bytes × Bytes × Bytes) :=
  [(settledStatement "acct:2", secondSignature), (strayRevocation, straySignature),
   (partialStatement, partialSignature), (reasonedRevocation, reasonedSignature)].map fun (content, signature) =>
    (testKey, sigStructure (protectedBytes coseEd25519 testKey) (encodeCanonical (attestationToCbor content)),
      signature)

def disputedCompositeDigest : Bytes :=
  [0xbd, 0xa0, 0xc9, 0xe1, 0x5a, 0xc5, 0xab, 0x43, 0xea, 0x50, 0xcd, 0x23, 0xe6, 0xb2, 0xaa, 0xc7,
   0x2f, 0x3e, 0x1b, 0x69, 0xae, 0xa2, 0x8d, 0x79, 0x13, 0x5c, 0xb3, 0xa7, 0xc7, 0xfe, 0x27, 0x12]

def disputedPrimitives : Primitives :=
  Primitives.ofTable
    (disputedDigests ++
      [(encodeCanonical (bindingOf (Primitives.ofTable disputedDigests []) disputedComposite),
        disputedCompositeDigest)])
    disputedSignatures

def disputedWorld : World :=
  wrapperWorld [("stray.json", strayProofBytes), ("disputing.json", disputingProofBytes)]

def createdByTestKey (id : String) (content : AttestationContent) (signature : Bytes) : CreatedAttestation where
  content := content
  canonical := encodeCanonical (attestationToCbor content)
  id := id
  sign1 := (storedByTestKey content signature).sign1

/-- What the stray proof leaves gathered. -/
def strayGathered : Gathered where
  seenProofs := ["prf:v1:lcAP3gO_Zevpb-_t0RGKJE8F8mKNZJAVcCZQ54ww3o4"]
  attestations :=
    [createdByTestKey "att:v1:7kq1WwZiKHeuDdR2pU-vaEfo1FhZ-pU0OJo5jc8-9CA" (settledStatement "acct:2") secondSignature,
     createdByTestKey "att:v1:6YwE7qddLsK20z-E_zYcRRpmtRUfMQARXuLS4DhqfSY" strayRevocation straySignature]

/-- What both proofs leave gathered. -/
def disputedGathered : Gathered where
  seenProofs := strayGathered.seenProofs ++ ["prf:v1:1gSe04Te1VTRS6JVHw4ChaOV9N2VImaGgQxKXu1jzsU"]
  attestations := strayGathered.attestations ++
    [createdByTestKey "att:v1:OLa_SpGDzEbjcj3dkIeYTth6c1cgQhppzxagj2FElXw" partialStatement partialSignature,
     createdByTestKey "att:v1:BQyGB6I6ljHZ8uvG_5eTvkQXAQ-wRT4IvOhG1Qb_nao" reasonedRevocation reasonedSignature]

theorem loads_stray : loadProof wrapperLibraries "stray.json" disputedWorld =
    .ok { canonical := strayProofBytes, proof := strayProof } disputedWorld :=
  loadProof_wrapperWorld (by decide) rfl ⟨strayProof_read, by decide +kernel⟩

theorem loads_disputing : loadProof wrapperLibraries "disputing.json" disputedWorld =
    .ok { canonical := disputingProofBytes, proof := disputingProof } disputedWorld :=
  loadProof_wrapperWorld (by decide) rfl (by decide +kernel)

theorem disputed_gathers :
    gatherMembers disputedPrimitives "stray.json" {} strayProof = .ok strayGathered ∧
      gatherMembers disputedPrimitives "disputing.json" strayGathered disputingProof = .ok disputedGathered := by
  decide +kernel

theorem disputed_builds :
    (composeProposition (composeFlags "") >>= fun proposition =>
      composeBuilder disputedPrimitives .inserted (composeFlags "") proposition disputedGathered >>= fun builder =>
        (labelled "compose" (builder.build disputedPrimitives Limits.default)).map BuiltProof.proof) =
      .ok disputedComposite := by
  decide +kernel

theorem disputed_unites :
    (unionInput disputedPrimitives {} strayProof >>= fun first =>
      unionInput disputedPrimitives first disputingProof >>= checkUnion .inserted (composeFlags "")) = .ok () := by
  decide +kernel

theorem disputed_composes : ∃ composition after,
    compose disputedPrimitives .inserted wrapperLibraries .inserted (composeFlags "stray.json,disputing.json")
        disputedWorld = .ok composition after ∧
      composition.divergent = divergentPairs .inserted disputedGathered.attestations := by
  have listed : inputList (composeFlags "stray.json,disputing.json") "proofs" =
      .ok ["stray.json", "disputing.json"] := by
    decide +kernel
  obtain ⟨gathersStray, gathersBoth⟩ := disputed_gathers
  obtain ⟨proposition, builder, built, stated, assembled, builds, _⟩ := composeFlags_build disputed_builds
  obtain ⟨first, united, unites⟩ := bind_eq_ok.mp disputed_unites
  obtain ⟨second, unitedNext, coherent⟩ := bind_eq_ok.mp unites
  have fresh : disputingProof.proofId ∉ [strayProof.proofId] := by decide
  obtain ⟨after, done⟩ := compose_of_steps listed rfl stated
    (gatherInputs_pair (gatherInput_fresh loads_stray List.not_mem_nil gathersStray)
      (gatherInput_fresh loads_disputing fresh gathersBoth))
    assembled (unionInputs_pair loads_stray loads_disputing united unitedNext) coherent builds rfl fun _ => rfl
  exact ⟨_, after, done, rfl⟩

/-- Both proofs speak about `acct:2` and revoke, each in its own way. -/
theorem disputed_flagged : ∀ topic ∈ [("settled", "acct:2"), (ClaimType.revoke, "acct:1")],
    ∃ pair ∈ divergentPairs .inserted disputedGathered.attestations, pair.topic = topic := by
  have contents : disputedGathered.attestations.map CreatedAttestation.content =
      [settledStatement "acct:2", strayRevocation, partialStatement, reasonedRevocation] := rfl
  simp only [flagged_iff, contents, List.forall_mem_cons]
  refine ⟨⟨settledStatement "acct:2", ?_, partialStatement, ?_, rfl, rfl, ?_⟩,
    ⟨strayRevocation, ?_, reasonedRevocation, ?_, rfl, rfl, ?_⟩, by simp⟩
  all_goals decide +kernel

/-- Statements that differ are flagged, and their verifier records them. -/
theorem disputedStatements_recorded : ∃ composition after report,
    compose disputedPrimitives .inserted wrapperLibraries .inserted (composeFlags "stray.json,disputing.json")
        disputedWorld = .ok composition after ∧
      verifyProof disputedPrimitives .inserted .default composition.built.canonical = .ok report ∧
      (∃ pair ∈ composition.divergent, pair.topic = ("settled", "acct:2")) ∧
      ∃ record ∈ report.conflicts, record.kind = .divergentClaims ∧ record.topic = ("settled", "acct:2") := by
  obtain ⟨composition, after, done, flags⟩ := disputed_composes
  obtain ⟨report, verified⟩ :=
    @verifyProof_of_inputs disputedPrimitives .inserted .default composition.built.canonical rfl
  obtain ⟨inputs, _, _, atDefault⟩ := compose_divergence_iff _ _ _ _ _ _ _ _ _ _ _ done rfl verified
  have flagged : ∃ pair ∈ composition.divergent, pair.topic = ("settled", "acct:2") :=
    flags ▸ disputed_flagged _ List.mem_cons_self
  refine ⟨composition, after, report, done, verified, flagged, ?_⟩
  exact (((atDefault (Limits.Below.refl _)).2 ("settled", "acct:2")).mpr (.inr (by decide))).mp flagged

/-- Revocations that differ are flagged as well, but no verifier records them. -/
theorem disputedRevocations_unrecorded : ∃ composition after report,
    compose disputedPrimitives .inserted wrapperLibraries .inserted (composeFlags "stray.json,disputing.json")
        disputedWorld = .ok composition after ∧
      VerifyCtx.default.allowedAlgs.ed25519 = true ∧
      verifyProof disputedPrimitives .inserted .default composition.built.canonical = .ok report ∧
      (∃ pair ∈ composition.divergent, pair.topic = (ClaimType.revoke, "acct:1")) ∧
      ¬ ∃ record ∈ report.conflicts, record.kind = .divergentClaims ∧ record.topic = (ClaimType.revoke, "acct:1") := by
  obtain ⟨composition, after, done, flags⟩ := disputed_composes
  obtain ⟨report, verified⟩ :=
    @verifyProof_of_inputs disputedPrimitives .inserted .default composition.built.canonical rfl
  obtain ⟨_, _, _, _, _, ran⟩ := compose_ran done
  have flagged : ∃ pair ∈ composition.divergent, pair.topic = (ClaimType.revoke, "acct:1") :=
    flags ▸ disputed_flagged _ (by simp)
  refine ⟨composition, after, report, done, rfl, verified, flagged, fun recorded => ?_⟩
  exact ((ran.recorded verified).mp recorded).1 (by decide)

end ProofEngine
