import ProofEngine.Verify.GraphVerdict

/-! # What the verdicts mean

The two validities of a report in terms of what the stages found: which attestation, evidence item,
reference or graph property can make a verdict invalid. -/

namespace ProofEngine

open Text LastMap

/-! ## Failures of parts -/

theorem noFailure_append {first second : List CheckRecord} {stages : List Stage} :
    NoFailure (first ++ second) stages ↔ NoFailure first stages ∧ NoFailure second stages :=
  List.forall_mem_append

theorem EmittedBy.noFailure_iff {checks : List CheckRecord} {stages wider : List Stage}
    (emitted : EmittedBy stages checks) (inside : stages ⊆ wider) :
    NoFailure checks wider ↔ ∀ check ∈ checks, check.ok = true :=
  ⟨fun clean check member => clean check member (inside (emitted check member)),
    fun clean check member _ => clean check member⟩

theorem EmittedBy.noFailure {checks : List CheckRecord} {stages others : List Stage}
    (emitted : EmittedBy stages checks) (apart : ∀ stage ∈ stages, stage ∉ others) : NoFailure checks others :=
  fun check member inside => absurd inside (apart check.stage (emitted check member))

theorem noFailure_of_ok {checks : List CheckRecord} {stages : List Stage}
    (clean : ∀ check ∈ checks, check.ok = true) : NoFailure checks stages :=
  fun check member _ => clean check member

theorem outcomeCheck_ok (stage : Stage) (object : String) (code : Option ErrorCode) (ok : Bool)
    (message : String) : (outcomeCheck stage object code ok message).ok = ok := by
  cases ok <;> rfl

/-! ## Evidence -/

/-- The lifecycle status does not fail its check. -/
def LifecycleStatus.passes (status : LifecycleStatus) : Bool :=
  match status with
  | .active | .superseded | .expired => true
  | .revoked | .compromised | .unknown => false

theorem lifecycleOutcome_ok (ctx : VerifyCtx) (status : LifecycleStatus) :
    (lifecycleOutcome ctx status).2.1 = status.passes := by
  cases status <;> rfl

/-- Nothing counts against the evidence of a proof. -/
structure EvidenceClean (primitives : Primitives) (ctx : VerifyCtx) (proof : Proof) (nodes : NodeSet)
    (graph : List CheckRecord) : Prop where
  times : ∀ entry ∈ statements (verifiedSet primitives ctx proof), isTimely ctx entry.2 = true
  lifecycles : ∀ entry ∈ statements (verifiedSet primitives ctx proof),
    (lifecycleStatus primitives ctx proof (verifiedSet primitives ctx proof) entry).passes = true
  references : ∀ stored ∈ proof.attestations, ∀ reference, stored.content.evidenceRef = some reference →
    reference ∈ nodes.ids
  digests : ∀ entry ∈ statements (verifiedSet primitives ctx proof), ∀ check,
    digestCheck primitives proof entry = some check → check.ok = true
  statuses : ∀ item ∈ proofEvidence primitives proof,
    (evidenceOutcomeOf primitives ctx proof (verifiedSet primitives ctx proof) item).2.2.1 = true
  graphClean : ∀ check ∈ graph, check.ok = true
  composition : ∀ check ∈ referenceChecks primitives ctx proof, check.ok = true

section
variable {primitives : Primitives} {order : HashOrder} {ctx : VerifyCtx} {bytes : Bytes} {value : CborValue}
  {proof : Proof} {eventIds : List String} {recomputed : String} {graph : List CheckRecord}
  {report : VerifyReport}

theorem identifierCheck_emittedBy (proof : Proof) (recomputed : String) :
    EmittedBy [.identifiers] [identifierCheck proof recomputed] :=
  .singleton (by rw [identifierCheck_stage]; exact List.mem_cons_self)

theorem timeChecks_ok {verified : VerifiedSet} :
    (∀ check ∈ timeChecks ctx verified, check.ok = true) ↔
      ∀ entry ∈ statements verified, isTimely ctx entry.2 = true := by
  rw [timeChecks, List.forall_mem_map]
  refine forall₂_congr fun entry _ => ?_
  rw [timeCheck, isTimely]
  cases timeValidity ctx entry.2 <;> simp [Except.isOk, Except.toBool]

theorem effectChecks_emittedBy (verified : VerifiedSet) :
    EmittedBy [.status] ((effects primitives ctx verified).flatMap (effectChecks primitives ctx proof verified)) :=
  .flatMap fun _ _ =>
    .append (.ite .nil (.singleton List.mem_cons_self)) (.ite .nil (.singleton List.mem_cons_self))

theorem effectChecks_ok {verified : VerifiedSet} {effect : StatusEffect} :
    (∀ check ∈ effectChecks primitives ctx proof verified effect, check.ok = true) ↔
      empowered primitives ctx proof verified effect = true ∧ timely ctx effect = true := by
  rw [effectChecks, List.forall_mem_append]
  apply and_congr
  · split <;> simp_all
  · split <;> simp_all

theorem lifecycleChecks_emittedBy (verified : VerifiedSet) :
    EmittedBy [.revocation] ((statements verified).map (lifecycleCheck primitives ctx proof verified)) :=
  .map fun entry _ => by
    rw [lifecycleCheck, outcomeCheck_stage]
    exact List.mem_cons_self

theorem revocationNotes_ok {verified : VerifiedSet} {check : CheckRecord}
    (member : check ∈ revocationNotes ctx proof verified) : check.ok = true := by
  simp only [revocationNotes, List.mem_append] at member
  rcases member with (member | member) | member
  · rw [List.mem_singleton.mp member]
    rfl
  · split at member
    · rw [List.mem_singleton.mp member]
      rfl
    · cases member
  · split at member
    · rw [List.mem_singleton.mp member]
      rfl
    · cases member

/-- Of the checks of REVOCATION only the lifecycle ones count against the evidence. -/
theorem revocationChecks_noFailure {verified : VerifiedSet} :
    NoFailure (revocationChecks primitives ctx proof verified) evidenceStages ↔
      ∀ entry ∈ statements verified, (lifecycleStatus primitives ctx proof verified entry).passes = true := by
  have malformed : NoFailure (malformedChecks primitives ctx verified) evidenceStages :=
    (malformedChecks_emittedBy verified).noFailure (by decide)
  have effects : NoFailure ((effects primitives ctx verified).flatMap (effectChecks primitives ctx proof verified))
      evidenceStages := (effectChecks_emittedBy verified).noFailure (by decide)
  have notes : NoFailure (revocationNotes ctx proof verified) evidenceStages :=
    noFailure_of_ok fun check => revocationNotes_ok
  rw [revocationChecks, noFailure_append, noFailure_append, noFailure_append,
    (lifecycleChecks_emittedBy verified).noFailure_iff (by decide), List.forall_mem_map]
  simp only [malformed, effects, notes, true_and, and_true, lifecycleCheck, outcomeCheck_ok, lifecycleOutcome_ok]

/-- STATUS is clean exactly when every status object has an effect that applies. -/
theorem revocationChecks_statusClean {verified : VerifiedSet} :
    NoFailure (revocationChecks primitives ctx proof verified) [.status] ↔
      ∀ result ∈ statusResults primitives ctx verified, ∃ effect, result = .ok effect ∧
        empowered primitives ctx proof verified effect = true ∧ timely ctx effect = true := by
  have lifecycles : NoFailure ((statements verified).map (lifecycleCheck primitives ctx proof verified)) [.status] :=
    (lifecycleChecks_emittedBy verified).noFailure (by decide)
  have notes : NoFailure (revocationNotes ctx proof verified) [.status] :=
    noFailure_of_ok fun check => revocationNotes_ok
  rw [revocationChecks, noFailure_append, noFailure_append, noFailure_append,
    (malformedChecks_emittedBy verified).noFailure_iff (by decide),
    (effectChecks_emittedBy verified).noFailure_iff (by decide), List.forall_mem_flatMap]
  simp only [effectChecks_ok, lifecycles, notes, and_true]
  constructor
  · rintro ⟨wellFormed, applying⟩ result member
    cases result with
    | error check =>
      have passed := wellFormed check (mem_malformedChecks.mpr member)
      rw [(statusResults_error member).2] at passed
      cases passed
    | ok effect => exact ⟨effect, rfl, applying effect (mem_effects.mpr member)⟩
  · intro clean
    constructor
    · intro check member
      obtain ⟨_, found, _⟩ := clean _ (mem_malformedChecks.mp member)
      cases found
    · intro effect member
      obtain ⟨_, found, applying⟩ := clean _ (mem_effects.mp member)
      cases found
      exact applying

theorem evidenceRefChecks_ok {nodes : NodeSet} :
    (∀ check ∈ evidenceRefChecks proof nodes, check.ok = true) ↔ ∀ stored ∈ proof.attestations, ∀ reference,
      stored.content.evidenceRef = some reference → reference ∈ nodes.ids := by
  constructor
  · intro clean stored member reference found
    by_contra outside
    have failed : CheckRecord.fail .evidence ("proof:" ++ proof.proofId) .danglingReference
        ("attestation evidence_ref " ++ reference ++ " not in proof") ∈ evidenceRefChecks proof nodes := by
      rw [evidenceRefChecks, List.mem_filterMap]
      refine ⟨stored, member, ?_⟩
      simp only [found]
      rw [if_neg (mt contains_iff.mp outside)]
    simpa using clean _ failed
  · intro inside check member
    rw [evidenceRefChecks, List.mem_filterMap] at member
    obtain ⟨stored, storedMember, found⟩ := member
    split at found
    · cases found
    · rename_i reference referenceIs
      rw [if_pos (contains_iff.mpr (inside stored storedMember reference referenceIs))] at found
      cases found

theorem evidenceChecks_ok {verified : VerifiedSet} {nodes : NodeSet} :
    (∀ check ∈ evidenceChecks primitives ctx proof verified nodes, check.ok = true) ↔
      (∀ stored ∈ proof.attestations, ∀ reference, stored.content.evidenceRef = some reference →
        reference ∈ nodes.ids) ∧
      (∀ entry ∈ statements verified, ∀ check, digestCheck primitives proof entry = some check →
        check.ok = true) ∧
      ∀ item ∈ proofEvidence primitives proof,
        (evidenceOutcomeOf primitives ctx proof verified item).2.2.1 = true := by
  -- the closing record of EVIDENCE is a pass
  have closing : ∀ found : List CheckRecord, ∀ check ∈ (if found.all (·.ok) then
      [CheckRecord.pass .evidence ("proof:" ++ proof.proofId)
        (toString proof.evidence.length ++
          " evidence digests bound by id; external content is digest-only (no fetch in V1)")] else []),
      check.ok = true := by
    intro found check member
    split at member
    · rw [List.mem_singleton.mp member]
      rfl
    · cases member
  simp only [evidenceChecks]
  rw [List.forall_mem_append, and_iff_left (closing _)]
  simp only [List.forall_mem_append, evidenceRefChecks_ok, evidenceStatusChecks, List.forall_mem_map,
    outcomeCheck_ok, List.mem_filterMap, and_assoc]
  refine and_congr_right fun _ => and_congr_left fun _ => ?_
  exact ⟨fun clean entry member check found => clean check ⟨entry, member, found⟩,
    fun clean check ⟨entry, member, found⟩ => clean entry member check found⟩

theorem StagesRan.checks_eq
    (stages : StagesRan primitives order ctx bytes value proof eventIds recomputed graph report) :
    report.checks = openingChecks ctx proof value bytes ++
      memberChecks primitives ctx proof eventIds recomputed graph ++ [policyNote] := by
  rw [stages.reported]
  rfl

/-- Only the stages after CANONICAL can fail in a report on a proof that parsed. -/
theorem StagesRan.noFailure_checks
    (stages : StagesRan primitives order ctx bytes value proof eventIds recomputed graph report)
    {kinds : List Stage} :
    NoFailure report.checks kinds ↔ NoFailure (memberChecks primitives ctx proof eventIds recomputed graph) kinds := by
  have opening : NoFailure (openingChecks ctx proof value bytes) kinds :=
    noFailure_of_ok fun check member => openingChecks_ok stages.decoded member
  have policy : NoFailure [policyNote] kinds :=
    noFailure_of_ok fun check member => by rw [List.mem_singleton.mp member]; rfl
  rw [stages.checks_eq, noFailure_append, noFailure_append, and_iff_left policy, and_iff_right opening]

/-- The evidence of a proof is valid exactly when nothing counts against it. -/
theorem StagesRan.evidenceValid_iff
    (stages : StagesRan primitives order ctx bytes value proof eventIds recomputed graph report) :
    report.evidenceValidity = .valid ↔
      EvidenceClean primitives ctx proof (memberNodes primitives proof eventIds) graph := by
  have identifiers : NoFailure [identifierCheck proof recomputed] evidenceStages :=
    (identifierCheck_emittedBy proof recomputed).noFailure (by decide)
  have signatures : NoFailure (signatureChecks primitives ctx proof) evidenceStages :=
    (signatureChecks_emittedBy proof).noFailure (by decide)
  have contradictions : NoFailure (contradictionNotes proof (verifiedSet primitives ctx proof)) evidenceStages := by
    apply noFailure_of_ok
    intro check member
    rw [contradictionNotes, List.mem_filterMap] at member
    obtain ⟨edge, _, found⟩ := member
    split at found
    · cases found
    · cases found
      rfl
  have notes : NoFailure ((conflicts proof (verifiedSet primitives ctx proof)).map (conflictNote proof))
      evidenceStages := by
    apply noFailure_of_ok
    rw [List.forall_mem_map]
    exact fun record _ => rfl
  rw [stages.evidenceValidity_eq, stageValid_eq_valid, stages.noFailure_checks]
  simp only [memberChecks, noFailure_append, identifiers, signatures, contradictions, notes, true_and, and_true,
    (timeChecks_emittedBy _).noFailure_iff (by decide : [Stage.time] ⊆ evidenceStages), timeChecks_ok, revocationChecks_noFailure,
    (evidenceChecks_emittedBy proof _ _).noFailure_iff (by decide : [Stage.evidence] ⊆ evidenceStages),
    evidenceChecks_ok,
    (graphChecks_emittedBy stages.graphDone).noFailure_iff
      (by decide : [Stage.relationships, .graph] ⊆ evidenceStages),
    (referenceChecks_emittedBy proof).noFailure_iff (by decide : [Stage.graph] ⊆ evidenceStages)]
  constructor
  · rintro ⟨⟨⟨⟨times, lifecycles⟩, references, digests, statuses⟩, graphClean⟩, composition⟩
    exact ⟨times, lifecycles, references, digests, statuses, graphClean, composition⟩
  · intro clean
    exact ⟨⟨⟨⟨clean.times, clean.lifecycles⟩, clean.references, clean.digests, clean.statuses⟩,
      clean.graphClean⟩, clean.composition⟩

theorem contradictionNotes_emittedBy (proof : Proof) (verified : VerifiedSet) :
    EmittedBy [.evidence] (contradictionNotes proof verified) :=
  .filterMap fun edge _ check found => by
    split at found
    · cases found
    · cases found
      exact List.mem_cons_self

theorem conflictNotes_emittedBy (proof : Proof) (verified : VerifiedSet) :
    EmittedBy [.evidence] ((conflicts proof verified).map (conflictNote proof)) :=
  .map fun _ _ => List.mem_cons_self

/-! ## Cryptography -/

/-- The id and the signatures of a proof decide its cryptographic validity. -/
theorem StagesRan.cryptoValid_iff
    (stages : StagesRan primitives order ctx bytes value proof eventIds recomputed graph report) :
    report.cryptographicValidity = .valid ↔
      recomputed = proof.proofId ∧ ∀ check ∈ signatureChecks primitives ctx proof, check.ok = true := by
  -- the stages after KEYS never touch the cryptographic verdict
  have later : ∀ {checks : List CheckRecord}, EmittedBy ([.status] ++ evidenceStages) checks →
      NoFailure checks cryptoStages := fun emitted => emitted.noFailure (by decide)
  have identifiers : NoFailure [identifierCheck proof recomputed] cryptoStages ↔ recomputed = proof.proofId := by
    rw [(identifierCheck_emittedBy proof recomputed).noFailure_iff (by decide), List.forall_mem_singleton,
      identifierCheck]
    split <;> simp_all
  rw [stages.cryptographicValidity_eq, stageValid_eq_valid, stages.noFailure_checks]
  simp only [memberChecks, noFailure_append, identifiers, and_true,
    (signatureChecks_emittedBy proof).noFailure_iff (by decide : [Stage.signatures, .keys] ⊆ cryptoStages),
    later ((timeChecks_emittedBy _).weaken (by decide)),
    later ((revocationChecks_emittedBy proof _).weaken (by decide)),
    later ((evidenceChecks_emittedBy proof _ _).weaken (by decide)),
    later ((graphChecks_emittedBy stages.graphDone).weaken (by decide)),
    later ((referenceChecks_emittedBy proof).weaken (by decide)),
    later ((contradictionNotes_emittedBy proof _).weaken (by decide)),
    later ((conflictNotes_emittedBy proof _).weaken (by decide))]

/-! ## Feed health -/

/-- The health of a run's status inputs depends on its status objects alone. -/
theorem StagesRan.statusInputsValid_iff
    (stages : StagesRan primitives order ctx bytes value proof eventIds recomputed graph report) :
    report.statusInputsValid = true ↔
      ∀ result ∈ statusResults primitives ctx (verifiedSet primitives ctx proof), ∃ effect, result = .ok effect ∧
        empowered primitives ctx proof (verifiedSet primitives ctx proof) effect = true ∧
        timely ctx effect = true := by
  -- only REVOCATION emits STATUS records
  have apart : ∀ {checks : List CheckRecord}, EmittedBy (cryptoStages ++ evidenceStages) checks →
      NoFailure checks [.status] := fun emitted => emitted.noFailure (by decide)
  have verdict : report.statusInputsValid = true ↔ NoFailure report.checks [.status] := by
    rw [stages.reported]
    simp only [finalize, NoFailure, Bool.not_eq_true', List.any_eq_false]
    refine forall₂_congr fun check _ => ?_
    cases check.ok <;> simp
  rw [verdict, stages.noFailure_checks]
  simp only [memberChecks, noFailure_append, true_and, and_true, revocationChecks_statusClean,
    apart ((identifierCheck_emittedBy proof recomputed).weaken (by decide)),
    apart ((signatureChecks_emittedBy proof).weaken (by decide)),
    apart ((timeChecks_emittedBy _).weaken (by decide)),
    apart ((evidenceChecks_emittedBy proof _ _).weaken (by decide)),
    apart ((graphChecks_emittedBy stages.graphDone).weaken (by decide)),
    apart ((referenceChecks_emittedBy proof).weaken (by decide)),
    apart ((contradictionNotes_emittedBy proof _).weaken (by decide)),
    apart ((conflictNotes_emittedBy proof _).weaken (by decide))]

end

end ProofEngine
