import ProofEngine.Verify.EvidencePrecedence
import ProofEngine.Verify.GraphFacts

/-! # Laws of status feeds and clocks

Two runs over the same bytes that differ in their feed or in their clock.  More status information never
turns invalid evidence valid, a later clock never takes a withdrawal back, and a feed counts only as the set
of its objects. -/

namespace ProofEngine

open Text LastMap

/-! ## Two runs over the same bytes -/

section
variable {primitives : Primitives} {order order' : HashOrder} {ctx other : VerifyCtx} {bytes : Bytes}
  {report report' : VerifyReport}

/-- Both runs went through all stages on the same proof. -/
structure BothRan (primitives : Primitives) (order order' : HashOrder) (ctx other : VerifyCtx) (bytes : Bytes)
    (proof : Proof) (eventIds : List String) (recomputed : String) (report report' : VerifyReport) : Prop where
  read : (decodeStrict bytes ctx.limits >>= cborToProof ctx.limits) = .ok proof
  first : ∃ value graph, StagesRan primitives order ctx bytes value proof eventIds recomputed graph report
  second : ∃ value graph, StagesRan primitives order' other bytes value proof eventIds recomputed graph report'

/-- Under equal limits two runs read the same proof, or stop with the same report. -/
theorem verifyProof_pair (done : verifyProof primitives order ctx bytes = .ok report)
    (done' : verifyProof primitives order' other bytes = .ok report') (limits : other.limits = ctx.limits) :
    (∃ proof eventIds recomputed,
      BothRan primitives order order' ctx other bytes proof eventIds recomputed report report') ∨
    (∀ proof, (decodeStrict bytes ctx.limits >>= cborToProof ctx.limits) ≠ .ok proof) ∧ report = report' ∧
      report.evidenceValidity = .invalid ∧ report.lifecycle = [] := by
  -- how a run ends is decided by the bytes and the limits, so both end the same way
  cases verifyProof_ran done with
  | unparsed failed =>
    refine Or.inr ⟨fun proof read => ?_, ?_, rfl, rfl⟩
    · rw [failed] at read
      cases read
    · cases verifyProof_ran done' with
      | unparsed failed' =>
        rw [limits, failed] at failed'
        cases failed'
        rfl
      | misshapen decoded' _ =>
        rw [limits, failed] at decoded'
        cases decoded'
      | completed stages' =>
        have decoded' := stages'.decoded
        rw [limits, failed] at decoded'
        cases decoded'
  | misshapen decoded failed =>
    refine Or.inr ⟨fun proof read => ?_, ?_, rfl, rfl⟩
    · rw [decoded, ok_bind, failed] at read
      cases read
    · cases verifyProof_ran done' with
      | unparsed failed' =>
        rw [limits, decoded] at failed'
        cases failed'
      | misshapen decoded' failed' =>
        rw [limits, decoded] at decoded'
        cases decoded'
        rw [limits, failed] at failed'
        cases failed'
        rfl
      | completed stages' =>
        have decoded' := stages'.decoded
        rw [limits, decoded] at decoded'
        cases decoded'
        have parsed' := stages'.parsed
        rw [limits, failed] at parsed'
        cases parsed'
  | completed stages =>
    have read : (decodeStrict bytes ctx.limits >>= cborToProof ctx.limits) = .ok _ :=
      bind_eq_ok.mpr ⟨_, stages.decoded, stages.parsed⟩
    -- the graph records may differ, since each run has its own hash order
    obtain ⟨value', eventIds', recomputed', graph', stages'⟩ := stagesRan_of_read (limits ▸ read) done'
    have events := Except.ok.inj (stages'.events.symm.trans stages.events)
    have named := Except.ok.inj (stages'.named.symm.trans stages.named)
    subst events named
    exact Or.inl ⟨_, _, _, read, ⟨_, _, stages⟩, _, _, stages'⟩

section
variable {proof : Proof} {eventIds : List String} {recomputed : String}

/-- Runs with the same verified set report on the same statements, one by one. -/
theorem BothRan.lifecycle_eq
    (both : BothRan primitives order order' ctx other bytes proof eventIds recomputed report report')
    (verified : verifiedSet primitives other proof = verifiedSet primitives ctx proof) :
    report.lifecycle = (statements (verifiedSet primitives ctx proof)).map
        (lifecycleRecord primitives ctx proof (verifiedSet primitives ctx proof)) ∧
      report'.lifecycle = (statements (verifiedSet primitives ctx proof)).map
        (lifecycleRecord primitives other proof (verifiedSet primitives other proof)) := by
  obtain ⟨_, _, stages⟩ := both.first
  obtain ⟨_, _, stages'⟩ := both.second
  constructor
  · exact stages.lifecycle_eq
  · rw [← verified]
    exact stages'.lifecycle_eq

theorem BothRan.forall_lifecycle {relation : LifecycleRecord → LifecycleRecord → Prop}
    (both : BothRan primitives order order' ctx other bytes proof eventIds recomputed report report')
    (verified : verifiedSet primitives other proof = verifiedSet primitives ctx proof)
    (each : ∀ entry ∈ statements (verifiedSet primitives ctx proof),
      relation (lifecycleRecord primitives ctx proof (verifiedSet primitives ctx proof) entry)
        (lifecycleRecord primitives other proof (verifiedSet primitives other proof) entry)) :
    List.Forall₂ relation report.lifecycle report'.lifecycle := by
  obtain ⟨records, records'⟩ := both.lifecycle_eq verified
  rw [records, records', List.forall₂_map_left_iff, List.forall₂_map_right_iff, List.forall₂_same]
  exact each

end

end

/-! ## Statuses under equal effects -/

section
variable {primitives : Primitives} {ctx other : VerifyCtx} {proof : Proof}

/-- The same takes effect in both runs. -/
def SameEffects (primitives : Primitives) (proof : Proof) (ctx other : VerifyCtx) : Prop :=
  MoreEffects primitives proof ctx other ∧ MoreEffects primitives proof other ctx

theorem SameEffects.marked (same : SameEffects primitives proof ctx other) {entry : String × AttestationContent} :
    Marked primitives ctx proof entry ↔ Marked primitives other proof entry :=
  ⟨same.1.marked, same.2.marked⟩

theorem SameEffects.hit (same : SameEffects primitives proof ctx other) {kind : ClaimKind} {target : String} :
    Hit primitives ctx proof kind target ↔ Hit primitives other proof kind target :=
  ⟨same.1.hit, same.2.hit⟩

theorem SameEffects.compromised (same : SameEffects primitives proof ctx other) {target : String} :
    (∃ atTime, TakesEffect primitives ctx proof .compromise target (some atTime)) ↔
      ∃ atTime, TakesEffect primitives other proof .compromise target (some atTime) :=
  exists_congr fun _ => ⟨same.1 _ _ _, same.2 _ _ _⟩

theorem SameEffects.applies_any (same : SameEffects primitives proof ctx other) (kind : ClaimKind) (id : String) :
    ((applies primitives other proof (verifiedSet primitives other proof)).any fun (target, found) =>
        target = id && found = kind) =
      (applies primitives ctx proof (verifiedSet primitives ctx proof)).any fun (target, found) =>
        target = id && found = kind := by
  rw [Bool.eq_iff_iff, any_applies, any_applies]
  exact same.hit.symm

theorem SameEffects.compromises_any (same : SameEffects primitives proof ctx other) (id : String) :
    ((compromises primitives other proof (verifiedSet primitives other proof)).any fun (target, _) => target = id) =
      (compromises primitives ctx proof (verifiedSet primitives ctx proof)).any fun (target, _) => target = id := by
  rw [Bool.eq_iff_iff, any_compromises_id, any_compromises_id]
  exact same.compromised.symm

/-- Equal effects give equal statuses; whether the revocation information is stale only matters to
    statements that are in time. -/
theorem lifecycleStatus_congr (same : SameEffects primitives proof ctx other)
    (verified : verifiedSet primitives other proof = verifiedSet primitives ctx proof)
    (late : timeFailed other (verifiedSet primitives ctx proof) = timeFailed ctx (verifiedSet primitives ctx proof))
    {entry : String × AttestationContent}
    (stale : revocationStale other (verifiedSet primitives ctx proof) =
        revocationStale ctx (verifiedSet primitives ctx proof) ∨
      entry.1 ∈ timeFailed ctx (verifiedSet primitives ctx proof)) :
    lifecycleStatus primitives other proof (verifiedSet primitives other proof) entry =
      lifecycleStatus primitives ctx proof (verifiedSet primitives ctx proof) entry := by
  have marked := Bool.eq_iff_iff.mpr
    (any_compromises_entry.trans (same.marked.symm.trans (@any_compromises_entry _ _ _ entry).symm))
  simp only [lifecycleStatus, marked, same.applies_any]
  rw [verified, late]
  rcases stale with stale | inside
  · rw [stale]
  · simp only [List.contains_iff_mem.mpr inside, if_true]

theorem lifecycle_congr (verified : verifiedSet primitives other proof = verifiedSet primitives ctx proof)
    (clock : other.verifiedAt = ctx.verifiedAt)
    (statuses : ∀ entry ∈ statements (verifiedSet primitives ctx proof),
      lifecycleStatus primitives other proof (verifiedSet primitives other proof) entry =
        lifecycleStatus primitives ctx proof (verifiedSet primitives ctx proof) entry) :
    lifecycle primitives other proof (verifiedSet primitives other proof) =
      lifecycle primitives ctx proof (verifiedSet primitives ctx proof) := by
  have outcome : lifecycleOutcome other = lifecycleOutcome ctx := by
    funext status
    cases status <;> simp only [lifecycleOutcome, clock]
  rw [lifecycle, lifecycle]
  nth_rewrite 2 [verified]
  apply List.map_congr_left
  intro entry member
  simp only [lifecycleRecord, statuses entry member, outcome]

theorem evidenceOutcomeOf_congr (same : SameEffects primitives proof ctx other)
    (lifecycles : lifecycle primitives other proof (verifiedSet primitives other proof) =
      lifecycle primitives ctx proof (verifiedSet primitives ctx proof)) (item : Evidence × String) :
    evidenceOutcomeOf primitives other proof (verifiedSet primitives other proof) item =
      evidenceOutcomeOf primitives ctx proof (verifiedSet primitives ctx proof) item := by
  simp only [evidenceOutcomeOf, same.compromises_any, same.applies_any, lifecycles]

end

/-! ## What the evidence verdict sees of a feed -/

/-- What the evidence verdict asks of the members and the clock, whatever the feed. -/
structure MembersClean (primitives : Primitives) (ctx : VerifyCtx) (proof : Proof) (eventIds : List String) :
    Prop where
  times : ∀ entry ∈ statements (verifiedSet primitives ctx proof), isTimely ctx entry.2 = true
  references : ∀ stored ∈ proof.attestations, ∀ reference, stored.content.evidenceRef = some reference →
    reference ∈ (memberNodes primitives proof eventIds).ids
  digests : ∀ entry ∈ statements (verifiedSet primitives ctx proof), ∀ check,
    digestCheck primitives proof entry = some check → check.ok = true
  graph : GraphOk ctx (proofEdges primitives proof) (memberNodes primitives proof eventIds)
  composition : ∀ check ∈ referenceChecks primitives ctx proof, check.ok = true

/-- What it asks of the statuses. -/
structure StatusesPass (primitives : Primitives) (ctx : VerifyCtx) (proof : Proof) : Prop where
  lifecycles : ∀ entry ∈ statements (verifiedSet primitives ctx proof),
    (lifecycleStatus primitives ctx proof (verifiedSet primitives ctx proof) entry).passes = true
  evidence : ∀ item ∈ proofEvidence primitives proof,
    (evidenceOutcomeOf primitives ctx proof (verifiedSet primitives ctx proof) item).2.2.1 = true

section
variable {primitives : Primitives} {order : HashOrder} {ctx : VerifyCtx} {bytes : Bytes} {value : CborValue}
  {proof : Proof} {eventIds : List String} {recomputed : String} {graph : List CheckRecord}
  {report : VerifyReport}

theorem StagesRan.evidenceValid_iff_parts
    (stages : StagesRan primitives order ctx bytes value proof eventIds recomputed graph report) :
    report.evidenceValidity = .valid ↔
      MembersClean primitives ctx proof eventIds ∧ StatusesPass primitives ctx proof := by
  rw [stages.evidenceValid_iff]
  constructor
  · intro clean
    exact ⟨⟨clean.times, clean.references, clean.digests, stages.graphOk_iff.mp clean.graphClean,
      clean.composition⟩, clean.lifecycles, clean.statuses⟩
  · rintro ⟨members, statuses⟩
    exact ⟨members.times, statuses.lifecycles, members.references, members.digests, statuses.evidence,
      stages.graphOk_iff.mpr members.graph, members.composition⟩

theorem verifiedSet_feed (objects : List SignedStatus) :
    verifiedSet primitives { ctx with statusObjects := objects } proof = verifiedSet primitives ctx proof :=
  verifiedSet_congr (by rfl) (by rfl) proof

theorem membersClean_feed (objects : List SignedStatus) :
    MembersClean primitives { ctx with statusObjects := objects } proof eventIds ↔
      MembersClean primitives ctx proof eventIds := by
  constructor
  · intro clean
    have times := clean.times
    have digests := clean.digests
    rw [verifiedSet_feed] at times digests
    exact ⟨times, clean.references, digests, ⟨clean.graph.shape, clean.graph.chains, clean.graph.derivation,
      clean.graph.provenance⟩, clean.composition⟩
  · intro clean
    refine ⟨?_, clean.references, ?_, ⟨clean.graph.shape, clean.graph.chains, clean.graph.derivation,
      clean.graph.provenance⟩, clean.composition⟩
    · rw [verifiedSet_feed]
      exact clean.times
    · rw [verifiedSet_feed]
      exact clean.digests

end

/-! ## More status information -/

section
variable {primitives : Primitives} {ctx other : VerifyCtx} {proof : Proof}

/-- With fresh information, statuses that pass under more effects pass under fewer. -/
theorem StatusesPass.mono (more : MoreEffects primitives proof ctx other)
    (verified : verifiedSet primitives other proof = verifiedSet primitives ctx proof)
    (fresh : revocationStale ctx (verifiedSet primitives ctx proof) = false)
    (fresh' : revocationStale other (verifiedSet primitives other proof) = false)
    (passes : StatusesPass primitives other proof) : StatusesPass primitives ctx proof := by
  -- with fresh information a status passes exactly when it is below REVOKED
  have kept : ∀ entry,
      (lifecycleStatus primitives other proof (verifiedSet primitives other proof) entry).passes = true →
      (lifecycleStatus primitives ctx proof (verifiedSet primitives ctx proof) entry).passes = true := by
    intro entry standing
    have decided := lifecycleStatus_decided primitives ctx proof entry
    have decided' := lifecycleStatus_decided primitives other proof entry
    rw [decided'.passes_iff fresh'] at standing
    exact (decided.passes_iff fresh).mpr (lt_of_le_of_lt (decided.severity_le more decided') standing)
  constructor
  case lifecycles =>
    intro entry member
    exact kept entry (passes.lifecycles entry (verified ▸ member))
  case evidence =>
    rintro ⟨evidence, id⟩ member
    obtain ⟨unmarked, unwithdrawn, backed⟩ := evidenceOutcomeOf_ok.mp (passes.evidence _ member)
    refine evidenceOutcomeOf_ok.mpr ⟨?_, ?_, ?_⟩
    · rintro ⟨atTime, takes⟩
      exact unmarked ⟨atTime, more _ _ _ takes⟩
    · intro hit
      exact unwithdrawn (more.hit hit)
    · intro reference isReference content found
      exact kept _ (backed reference isReference content (verified ▸ found))

theorem StatusObject.mono {status : AttestationContent} (limits : other.limits = ctx.limits)
    (algs : other.allowedAlgs = ctx.allowedAlgs)
    (objects : ∀ object ∈ ctx.statusObjects, object ∈ other.statusObjects)
    (authentic : StatusObject primitives ctx proof status) : StatusObject primitives other proof status := by
  rcases authentic with ⟨id, member⟩ | ⟨object, member, signed⟩
  · exact Or.inl ⟨id, verifiedSet_congr limits algs proof ▸ member⟩
  · exact Or.inr ⟨object, objects object member, by rw [limits, algs]; exact signed⟩

end

/-- While revocation information is fresh and no feed is required, status objects added to the feed never
    make invalid evidence valid. -/
theorem evidence_stays_invalid (primitives : Primitives) (order order' : HashOrder) (ctx : VerifyCtx)
    (more : List SignedStatus) (bytes : Bytes) (report report' : VerifyReport) (fresh : RevocationsFresh ctx)
    (noFeedNeeded : ctx.requireStatusFeed = false)
    (done : verifyProof primitives order ctx bytes = .ok report)
    (done' : verifyProof primitives order' { ctx with statusObjects := ctx.statusObjects ++ more } bytes =
      .ok report') (invalid : report.evidenceValidity = .invalid) : report'.evidenceValidity = .invalid := by
  obtain ⟨proof, eventIds, recomputed, both⟩ | ⟨_, same, _⟩ := verifyProof_pair done done' rfl
  · obtain ⟨_, _, stages⟩ := both.first
    obtain ⟨_, _, stages'⟩ := both.second
    cases verdict : report'.evidenceValidity with
    | invalid => rfl
    | valid =>
      -- a valid second verdict would carry over to the first run
      obtain ⟨members, passes⟩ := stages'.evidenceValid_iff_parts.mp verdict
      have effects : MoreEffects primitives proof ctx { ctx with statusObjects := ctx.statusObjects ++ more } :=
        moreEffects_of_objects rfl rfl rfl (UInt64.le_refl _) fun status =>
          .mono rfl rfl fun object member => List.mem_append_left _ member
      have notStale : ∀ verified objects,
          revocationStale { ctx with statusObjects := objects } verified = false := fun verified objects =>
        revocationStale_eq_false.mpr ⟨fresh, fun ⟨needed, _⟩ => by simp [noFeedNeeded] at needed⟩
      have valid := stages.evidenceValid_iff_parts.mpr ⟨(membersClean_feed _).mp members,
        passes.mono effects (verifiedSet_feed _) (notStale _ _) (notStale _ _)⟩
      rw [invalid] at valid
      cases valid
  · rw [← same, invalid]

/-- The verifier was given the withdrawal of the evidence and not the report of the key. -/
def withdrawnContext : VerifyCtx :=
  { signedContext.toVerifyCtx with
    statusObjects := [{ content := withdrawal, sign1 := signedBytes withdrawal withdrawalSignature }] }

theorem withdrawnContext_hit : Hit opposedPrimitives withdrawnContext opposedProof .withdraw ledgerEvidenceId := by
  have verified : verifiedSet opposedPrimitives withdrawnContext opposedProof = opposedVerified :=
    (@verifiedSet_congr _ withdrawnContext endedContext rfl rfl opposedProof).trans opposedProof_verified
  have found : effects opposedPrimitives withdrawnContext opposedVerified =
      [{ target := ledgerEvidenceId, kind := .withdraw, issuer := testIssuer, issuedAt := 1700000000,
         object := "status:1", atTime := none }] := by decide +kernel
  rw [← any_applies, verified, applies, counting, found]
  decide +kernel

theorem withdrawnContext_invalid {report : VerifyReport}
    (done : verifyProof opposedPrimitives .inserted withdrawnContext opposedProofBytes = .ok report) :
    report.evidenceValidity = .invalid := by
  cases verdict : report.evidenceValidity with
  | invalid => rfl
  | valid =>
    obtain ⟨_, _, _, _, stages⟩ := @stagesRan_of_read _ _ withdrawnContext _ _ _ opposedProof_read done
    have passes := (stages.evidenceValid_iff_parts.mp verdict).2.evidence
    have listed : proofEvidence opposedPrimitives opposedProof = [(ledgerEvidence, ledgerEvidenceId)] := by
      rw [← ledgerEvidence_id]
      rfl
    rw [listed] at passes
    obtain ⟨_, standing, _⟩ := evidenceOutcomeOf_ok.mp (passes _ List.mem_cons_self)
    exact absurd withdrawnContext_hit standing

/-- Withdrawn evidence stays withdrawn when the key behind it is reported, too. -/
theorem opposedProof_stays_invalid :
    ∃ report report', verifyProof opposedPrimitives .inserted withdrawnContext opposedProofBytes = .ok report ∧
      verifyProof opposedPrimitives .inserted endedContext opposedProofBytes = .ok report' ∧
      report.evidenceValidity = .invalid ∧ report'.evidenceValidity = .invalid := by
  obtain ⟨report, done⟩ := @verifyProof_of_inputs opposedPrimitives .inserted withdrawnContext opposedProofBytes rfl
  obtain ⟨report', done'⟩ := opposedProof_reported
  have invalid := withdrawnContext_invalid done
  exact ⟨report, report', done, done', invalid, evidence_stays_invalid _ _ _ withdrawnContext
    [{ content := selfReport, sign1 := signedBytes selfReport selfReportSignature }] _ _ _ ⟨1700000100, rfl, by decide⟩
    rfl done done' invalid⟩

/-! ## A later clock -/

/-- Both records are about one attestation, and the later one withdraws it at least as far. -/
structure Sticky (record later : LifecycleRecord) : Prop where
  sameObject : later.object = record.object
  compromised : record.status = .compromised → later.status = .compromised
  revoked : record.status = .revoked → later.status = .revoked ∨ later.status = .compromised
  superseded : record.status = .superseded →
    later.status = .superseded ∨ later.status = .revoked ∨ later.status = .compromised

theorem sticky_of_severity {record later : LifecycleRecord} (sameObject : later.object = record.object)
    (severity : record.status.severity ≤ later.status.severity) : Sticky record later := by
  -- three implications over six statuses: the severities exclude the rest
  generalize statusIs : record.status = status at severity
  generalize laterIs : later.status = status' at severity
  constructor
  case sameObject => exact sameObject
  all_goals
    rw [statusIs, laterIs]
    rintro rfl
    cases status' with
    | compromised => simp
    | revoked => simp_all [LifecycleStatus.severity]
    | superseded => simp_all [LifecycleStatus.severity]
    | expired | unknown | active => simp [LifecycleStatus.severity] at severity

/-- A compromise, revocation or supersession reported at one time is still in force, or has given way to a
    graver status, at every later time. -/
theorem lifecycle_sticky (primitives : Primitives) (order order' : HashOrder) (ctx : VerifyCtx) (later : UInt64)
    (bytes : Bytes) (report report' : VerifyReport) (forward : ctx.verifiedAt ≤ later)
    (done : verifyProof primitives order ctx bytes = .ok report)
    (done' : verifyProof primitives order' { ctx with verifiedAt := later } bytes = .ok report') :
    List.Forall₂ Sticky report.lifecycle report'.lifecycle := by
  obtain ⟨proof, eventIds, recomputed, both⟩ | ⟨_, same, _, noRecords⟩ := verifyProof_pair done done' rfl
  · have verified : verifiedSet primitives { ctx with verifiedAt := later } proof = verifiedSet primitives ctx proof :=
      verifiedSet_congr (by rfl) (by rfl) proof
    have effects : MoreEffects primitives proof ctx { ctx with verifiedAt := later } :=
      moreEffects_of_objects rfl rfl rfl forward fun status => .mono rfl rfl fun object member => member
    -- both reports list the same statements in the same order
    refine both.forall_lifecycle verified fun entry _ => ?_
    exact sticky_of_severity rfl ((lifecycleStatus_decided primitives ctx proof entry).severity_le effects
      (lifecycleStatus_decided primitives _ proof entry))
  · rw [← same, noRecords]
    exact .nil

theorem opposedProof_sticky :
    ∃ report report', verifyProof opposedPrimitives .inserted endedContext opposedProofBytes = .ok report ∧
      verifyProof opposedPrimitives .inserted { endedContext with verifiedAt := 1700000200 } opposedProofBytes =
        .ok report' ∧
      report.lifecycle.length = 2 ∧ (∀ record ∈ report.lifecycle, record.status = .compromised) ∧
      List.Forall₂ Sticky report.lifecycle report'.lifecycle := by
  obtain ⟨report, done⟩ := opposedProof_reported
  obtain ⟨two, compromised⟩ := opposedProof_compromised done
  obtain ⟨report', done'⟩ := @verifyProof_of_inputs opposedPrimitives .inserted
    { endedContext with verifiedAt := 1700000200 } opposedProofBytes rfl
  exact ⟨report, report', done, done', two, compromised,
    lifecycle_sticky _ _ _ endedContext _ _ _ _ (by decide) done done'⟩

/-! ## A feed is the set of its objects -/

section
variable (primitives : Primitives) (ctx : VerifyCtx) (proof : Proof)

/-- The status claim is well formed, its issuer has power over its target, and it is not dated ahead of the
    clock. -/
def TakesHold (status : AttestationContent) : Prop :=
  ∃ kind target atTime, Asserts status kind target atTime ∧
    empowered primitives ctx proof (verifiedSet primitives ctx proof) (effectOf status kind target atTime) = true ∧
    timely ctx (effectOf status kind target atTime) = true

/-- A supplied object is signed by the issuer it states and takes hold. -/
def Effective (object : SignedStatus) : Prop :=
  ∃ status, verifyStatusObject primitives object.sign1 object.content.issuer ctx.allowedAlgs ctx.limits =
    .ok status ∧ TakesHold primitives ctx proof status

end

section
variable {primitives : Primitives} {ctx : VerifyCtx} {proof : Proof}

theorem statusEffect_takesHold {object : String} {status : AttestationContent} :
    (∃ effect, statusEffect object status = .ok effect ∧
      empowered primitives ctx proof (verifiedSet primitives ctx proof) effect = true ∧ timely ctx effect = true) ↔
      TakesHold primitives ctx proof status := by
  constructor
  · rintro ⟨effect, done, power, time⟩
    obtain ⟨asserts, issuerIs, issuedAtIs⟩ := asserts_of_statusEffect done
    refine ⟨_, _, _, asserts, ?_, ?_⟩
    · rw [effectOf, ← issuerIs, ← issuedAtIs]
      exact power
    · rw [effectOf, ← issuerIs, ← issuedAtIs]
      exact time
  · rintro ⟨kind, target, atTime, asserts, power, time⟩
    exact ⟨_, statusEffect_of_asserts asserts object, power, time⟩

theorem suppliedEffect_effective {label : String} {object : SignedStatus} :
    (∃ effect, suppliedEffect primitives ctx label object = .ok effect ∧
      empowered primitives ctx proof (verifiedSet primitives ctx proof) effect = true ∧ timely ctx effect = true) ↔
      Effective primitives ctx proof object := by
  rw [Effective, suppliedEffect]
  cases verifyStatusObject primitives object.sign1 object.content.issuer ctx.allowedAlgs ctx.limits with
  | error failure => simp
  | ok status =>
    simp only [Except.ok.injEq, exists_eq_left']
    exact statusEffect_takesHold

/-- The feed of a run is healthy when every embedded status claim takes hold and every supplied object is
    effective; its order and repetitions play no role. -/
theorem statusResults_effective :
    (∀ result ∈ statusResults primitives ctx (verifiedSet primitives ctx proof), ∃ effect, result = .ok effect ∧
      empowered primitives ctx proof (verifiedSet primitives ctx proof) effect = true ∧ timely ctx effect = true) ↔
      (∀ entry ∈ embeddedStatus (verifiedSet primitives ctx proof), TakesHold primitives ctx proof entry.2) ∧
        ∀ object ∈ ctx.statusObjects, Effective primitives ctx proof object := by
  rw [statusResults, List.forall_mem_append, List.forall_mem_map, List.forall_mem_map]
  apply and_congr
  · exact forall₂_congr fun _ _ => statusEffect_takesHold
  · constructor
    · intro clean object member
      obtain ⟨i, found⟩ := List.getElem?_of_mem member
      exact suppliedEffect_effective.mp (clean (object, i) (List.mk_mem_zipIdx_iff_getElem?.mpr found))
    · rintro effective ⟨object, i⟩ member
      exact suppliedEffect_effective.mpr (effective object (List.fst_mem_of_mem_zipIdx member))

/-- Withdrawn ids are the targets of the withdrawals that take effect. -/
theorem mem_withdrawnTargets {id : String} :
    id ∈ withdrawnTargets primitives ctx proof (verifiedSet primitives ctx proof) ↔
      Hit primitives ctx proof .withdraw id := by
  have collected : ∀ (counted : List StatusEffect) (found : List String),
      id ∈ counted.foldl (fun found effect =>
        if effect.kind = .withdraw && !found.contains effect.target then found ++ [effect.target] else found) found ↔
      id ∈ found ∨ ∃ effect ∈ counted, effect.kind = .withdraw ∧ effect.target = id := by
    intro counted
    induction counted with
    | nil => simp
    | cons effect counted inductionHypothesis =>
      intro found
      rw [List.foldl_cons, inductionHypothesis]
      split
      · rename_i added
        rw [Bool.and_eq_true, decide_eq_true_eq] at added
        simp only [List.mem_append, List.mem_singleton, List.exists_mem_cons_iff, added.1, true_and, or_assoc,
          eq_comm]
      · rename_i skipped
        simp only [List.exists_mem_cons_iff]
        rw [Bool.and_eq_true, decide_eq_true_eq, not_and, Bool.not_eq_true', Bool.not_eq_false,
          List.contains_iff_mem] at skipped
        constructor
        · rintro (inside | later)
          · exact Or.inl inside
          · exact Or.inr (Or.inr later)
        · rintro (inside | ⟨isWithdrawal, rfl⟩ | later)
          · exact Or.inl inside
          · exact Or.inl (skipped isWithdrawal)
          · exact Or.inr later
  rw [withdrawnTargets, collected]
  simp only [List.not_mem_nil, false_or, Hit, TakesEffect]
  constructor
  · rintro ⟨effect, member, kindIs, targetIs⟩
    exact ⟨effect.atTime, effect, member, kindIs, targetIs, rfl⟩
  · rintro ⟨_, effect, member, kindIs, targetIs, _⟩
    exact ⟨effect, member, kindIs, targetIs⟩

theorem takesHold_feed (objects : List SignedStatus) {status : AttestationContent} :
    TakesHold primitives { ctx with statusObjects := objects } proof status ↔
      TakesHold primitives ctx proof status := by
  rw [TakesHold, verifiedSet_feed]
  exact Iff.rfl

theorem effective_feed (objects : List SignedStatus) {object : SignedStatus} :
    Effective primitives { ctx with statusObjects := objects } proof object ↔
      Effective primitives ctx proof object := by
  simp only [Effective, takesHold_feed]

theorem SameEffects.ofObjects {objects : List SignedStatus}
    (sameStatus : ∀ status, StatusObject primitives { ctx with statusObjects := objects } proof status ↔
      StatusObject primitives ctx proof status) :
    SameEffects primitives proof ctx { ctx with statusObjects := objects } :=
  ⟨moreEffects_of_objects rfl rfl rfl (UInt64.le_refl _) fun status => (sameStatus status).mpr,
    moreEffects_of_objects rfl rfl rfl (UInt64.le_refl _) fun status => (sameStatus status).mp⟩

end

theorem Validity.eq_of_valid_iff {left right : Validity} (same : left = .valid ↔ right = .valid) : left = right := by
  cases left <;> cases right <;> simp_all

section
variable {primitives : Primitives} {order order' : HashOrder} {ctx : VerifyCtx} {objects : List SignedStatus}
  {bytes : Bytes} {proof : Proof} {eventIds : List String} {recomputed : String} {report report' : VerifyReport}

/-- Feeds with the same effects that leave every lifecycle status as it is leave evidence statuses and the
    evidence verdict as they are. -/
theorem BothRan.statuses_eq
    (both : BothRan primitives order order' ctx { ctx with statusObjects := objects } bytes proof eventIds
      recomputed report report')
    (same : SameEffects primitives proof ctx { ctx with statusObjects := objects })
    (statuses : ∀ entry ∈ statements (verifiedSet primitives ctx proof),
      lifecycleStatus primitives { ctx with statusObjects := objects } proof
          (verifiedSet primitives { ctx with statusObjects := objects } proof) entry =
        lifecycleStatus primitives ctx proof (verifiedSet primitives ctx proof) entry) :
    report'.lifecycle = report.lifecycle ∧ report'.evidenceStatus = report.evidenceStatus ∧
      report'.evidenceValidity = report.evidenceValidity := by
  obtain ⟨_, _, stages⟩ := both.first
  obtain ⟨_, _, stages'⟩ := both.second
  have lifecycles := lifecycle_congr (verifiedSet_feed objects) rfl statuses
  have outcomes := evidenceOutcomeOf_congr same lifecycles
  refine ⟨?_, ?_, Validity.eq_of_valid_iff ?_⟩
  · rw [stages.reported, stages'.reported]
    exact lifecycles
  · rw [stages.reported, stages'.reported]
    simp only [finalize, findings, evidenceStatusRecords, outcomes]
  · rw [stages.evidenceValid_iff_parts, stages'.evidenceValid_iff_parts, membersClean_feed]
    refine and_congr_right fun _ => ⟨fun passes => ⟨?_, ?_⟩, fun passes => ⟨?_, ?_⟩⟩
    · intro entry member
      rw [← statuses entry member]
      exact passes.lifecycles entry (by rw [verifiedSet_feed]; exact member)
    · intro item member
      rw [← outcomes]
      exact passes.evidence item member
    · intro entry member
      rw [verifiedSet_feed] at member
      rw [statuses entry member]
      exact passes.lifecycles entry member
    · intro item member
      rw [outcomes]
      exact passes.evidence item member

theorem BothRan.cryptographicValidity_eq
    (both : BothRan primitives order order' ctx { ctx with statusObjects := objects } bytes proof eventIds
      recomputed report report') : report'.cryptographicValidity = report.cryptographicValidity := by
  obtain ⟨_, _, stages⟩ := both.first
  obtain ⟨_, _, stages'⟩ := both.second
  have checks : signatureChecks primitives { ctx with statusObjects := objects } proof =
      signatureChecks primitives ctx proof := by
    rw [signatureChecks, signatureChecks,
      @verifyEntries_congr primitives { ctx with statusObjects := objects } ctx rfl rfl]
  apply Validity.eq_of_valid_iff
  rw [stages.cryptoValid_iff, stages'.cryptoValid_iff, checks]

end

/-- What a report says about statuses is the same for every feed with the same objects, in whatever order and
    however often they are supplied. -/
theorem feed_order_irrelevant (primitives : Primitives) (order order' : HashOrder) (ctx : VerifyCtx)
    (objects : List SignedStatus) (bytes : Bytes) (report report' : VerifyReport)
    (sameSet : ∀ object, object ∈ objects ↔ object ∈ ctx.statusObjects)
    (done : verifyProof primitives order ctx bytes = .ok report)
    (done' : verifyProof primitives order' { ctx with statusObjects := objects } bytes = .ok report') :
    report'.lifecycle = report.lifecycle ∧ report'.evidenceStatus = report.evidenceStatus ∧
      report'.cryptographicValidity = report.cryptographicValidity ∧
      report'.evidenceValidity = report.evidenceValidity ∧
      report'.statusInputsValid = report.statusInputsValid ∧ report'.conflicts = report.conflicts ∧
      ∀ id, id ∈ report'.withdrawnIds ↔ id ∈ report.withdrawnIds := by
  obtain ⟨proof, eventIds, recomputed, both⟩ | ⟨_, same, _⟩ := verifyProof_pair done done' rfl
  · have effects : SameEffects primitives proof ctx { ctx with statusObjects := objects } :=
      .ofObjects fun status => ⟨.mono rfl rfl fun object => (sameSet object).mp,
        .mono rfl rfl fun object => (sameSet object).mpr⟩
    have noObjects : objects = [] ↔ ctx.statusObjects = [] := by
      simp only [List.eq_nil_iff_forall_not_mem, sameSet]
    have stale : ∀ verified,
        revocationStale { ctx with statusObjects := objects } verified = revocationStale ctx verified := by
      intro verified
      simp only [revocationStale, totalStatusInputs, Nat.add_eq_zero_iff, List.length_eq_zero_iff, noObjects]
    obtain ⟨lifecycles, evidence, evidenceVerdict⟩ := both.statuses_eq effects fun entry _ =>
      lifecycleStatus_congr effects (verifiedSet_feed objects) rfl (Or.inl (stale _))
    obtain ⟨_, _, stages⟩ := both.first
    obtain ⟨_, _, stages'⟩ := both.second
    refine ⟨lifecycles, evidence, both.cryptographicValidity_eq, evidenceVerdict, ?_, ?_, ?_⟩
    · rw [Bool.eq_iff_iff, stages.statusInputsValid_iff, stages'.statusInputsValid_iff, statusResults_effective,
        statusResults_effective, verifiedSet_feed]
      simp only [takesHold_feed, effective_feed, sameSet]
    · rw [stages.reported, stages'.reported]
      simp only [finalize, findings, verifiedSet_feed]
    · intro id
      rw [stages.reported, stages'.reported]
      simp only [finalize, findings, mem_withdrawnTargets]
      exact effects.hit.symm
  · rw [same]
    exact ⟨rfl, rfl, rfl, rfl, rfl, rfl, fun id => Iff.rfl⟩

/-- The status objects of `endedContext` the other way round, and the withdrawal twice. -/
def repeatedObjects : List SignedStatus :=
  [{ content := selfReport, sign1 := signedBytes selfReport selfReportSignature },
   { content := withdrawal, sign1 := signedBytes withdrawal withdrawalSignature },
   { content := withdrawal, sign1 := signedBytes withdrawal withdrawalSignature }]

theorem opposedProof_feed_irrelevant :
    ∃ report report', verifyProof opposedPrimitives .inserted endedContext opposedProofBytes = .ok report ∧
      verifyProof opposedPrimitives .inserted { endedContext with statusObjects := repeatedObjects }
        opposedProofBytes = .ok report' ∧
      report.lifecycle.length = 2 ∧ (∀ record ∈ report.lifecycle, record.status = .compromised) ∧
      report'.lifecycle = report.lifecycle ∧ report'.evidenceStatus = report.evidenceStatus ∧
      report'.cryptographicValidity = report.cryptographicValidity ∧
      report'.evidenceValidity = report.evidenceValidity ∧
      report'.statusInputsValid = report.statusInputsValid ∧ report'.conflicts = report.conflicts ∧
      ∀ id, id ∈ report'.withdrawnIds ↔ id ∈ report.withdrawnIds := by
  obtain ⟨report, done⟩ := opposedProof_reported
  obtain ⟨two, compromised⟩ := opposedProof_compromised done
  obtain ⟨report', done'⟩ := @verifyProof_of_inputs opposedPrimitives .inserted
    { endedContext with statusObjects := repeatedObjects } opposedProofBytes rfl
  have sameSet : ∀ object, object ∈ repeatedObjects ↔ object ∈ endedContext.statusObjects := by
    intro object
    simp [repeatedObjects, endedContext, or_comm]
  exact ⟨report, report', done, done', two, compromised,
    feed_order_irrelevant _ _ _ endedContext repeatedObjects _ report report' sameSet done done'⟩

end ProofEngine
