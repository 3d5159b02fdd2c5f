import ProofEngine.Verify.FeedLaws

/-! # Stricter profiles

The opt-in rules of a context only take validity away: without them a proof that was valid stays
valid. -/

namespace ProofEngine

open Text LastMap

/-- The contexts differ in opt-in rules only, and the first asks for at least as much. -/
structure Stricter (strict relaxed : VerifyCtx) : Prop where
  agree : relaxed = { strict with
    requireAcyclicProvenance := relaxed.requireAcyclicProvenance
    extraGrounded := relaxed.extraGrounded
    requireStatusFeed := relaxed.requireStatusFeed }
  provenance : relaxed.requireAcyclicProvenance = true → strict.requireAcyclicProvenance = true
  grounding : relaxed.extraGrounded ⊆ strict.extraGrounded
  feed : relaxed.requireStatusFeed = true → strict.requireStatusFeed = true

/-! ## Graph -/

section
variable {strict relaxed : VerifyCtx}

theorem mem_grounding {ctx : VerifyCtx} {relType : String} :
    (∃ extra, ctx.grounding = some extra ∧ relType ∈ extra) ↔ relType ∈ ctx.extraGrounded := by
  rw [VerifyCtx.grounding]
  cases ctx.extraGrounded with
  | nil => simp
  | cons first rest => simp

theorem Stricter.needsGrounding (stricter : Stricter strict relaxed) {relType : String}
    (needed : NeedsGrounding relaxed.grounding relType) : NeedsGrounding strict.grounding relType :=
  needed.imp_right fun extra => mem_grounding.mpr (stricter.grounding (mem_grounding.mp extra))

theorem Stricter.graphOk (stricter : Stricter strict relaxed) {edges : List EdgeRecord} {nodes : NodeSet}
    (ok : GraphOk strict edges nodes) : GraphOk relaxed edges nodes := by
  have limits : relaxed.limits = strict.limits := by rw [stricter.agree]
  constructor
  case shape =>
    rw [limits]
    refine { ok.shape with edgesOk := fun edge member => ?_ }
    have edgeOk := ok.shape.edgesOk edge member
    exact { edgeOk with grounded := fun needed => edgeOk.grounded (stricter.needsGrounding needed) }
  case chains =>
    rw [limits]
    exact ok.chains
  case derivation => exact ok.derivation
  case provenance => exact fun required => ok.provenance (stricter.provenance required)

end

/-! ## Statuses -/

theorem LifecycleStatus.severity_lt_of_passes {status : LifecycleStatus} (passes : status.passes = true) :
    status.severity < 2 := by
  cases status <;> first | decide | cases passes

section
variable {primitives : Primitives} {ctx other : VerifyCtx} {proof : Proof}

/-- Under equal effects a status that passes still passes when the information is no longer stale. -/
theorem lifecycleStatus_passes_of_fresher (same : SameEffects primitives proof ctx other)
    (verified : verifiedSet primitives other proof = verifiedSet primitives ctx proof)
    (late : timeFailed other (verifiedSet primitives ctx proof) = timeFailed ctx (verifiedSet primitives ctx proof))
    (fresher : revocationStale other (verifiedSet primitives ctx proof) = true →
      revocationStale ctx (verifiedSet primitives ctx proof) = true) {entry : String × AttestationContent}
    (passes : (lifecycleStatus primitives ctx proof (verifiedSet primitives ctx proof) entry).passes = true) :
    (lifecycleStatus primitives other proof (verifiedSet primitives other proof) entry).passes = true := by
  have decided := lifecycleStatus_decided primitives ctx proof entry
  have mild := LifecycleStatus.severity_lt_of_passes passes
  have decidedOther := lifecycleStatus_decided primitives other proof entry
  generalize lifecycleStatus primitives other proof (verifiedSet primitives other proof) entry = status
    at decidedOther
  cases decidedOther with
  | compromised marked =>
    have severe := decided.severity_ge.1 (same.2.marked marked)
    omega
  | revoked _ hit =>
    have severe := decided.severity_ge.2.1 (same.2.hit hit)
    omega
  | unknown untouched inTime stale =>
    -- the statement would be UNKNOWN in the first run as well
    rw [verified] at inTime stale
    rw [late] at inTime
    rw [lifecycleStatus_untouched (untouched.mono same.1), if_neg inTime, if_pos (fresher stale)] at passes
    cases passes
  | superseded _ _ _ => rfl
  | expired _ _ => rfl
  | active _ _ _ => rfl

theorem StatusesPass.of_fresher (same : SameEffects primitives proof ctx other)
    (verified : verifiedSet primitives other proof = verifiedSet primitives ctx proof)
    (late : timeFailed other (verifiedSet primitives ctx proof) = timeFailed ctx (verifiedSet primitives ctx proof))
    (fresher : revocationStale other (verifiedSet primitives ctx proof) = true →
      revocationStale ctx (verifiedSet primitives ctx proof) = true)
    (passes : StatusesPass primitives ctx proof) : StatusesPass primitives other proof := by
  constructor
  case lifecycles =>
    intro entry member
    rw [verified] at member
    exact lifecycleStatus_passes_of_fresher same verified late fresher (passes.lifecycles entry member)
  case evidence =>
    rintro ⟨evidence, id⟩ member
    obtain ⟨unmarked, unwithdrawn, backed⟩ := evidenceOutcomeOf_ok.mp (passes.evidence _ member)
    refine evidenceOutcomeOf_ok.mpr ⟨mt same.compromised.mpr unmarked, mt same.hit.mpr unwithdrawn, ?_⟩
    intro reference isReference content found
    rw [verified] at found
    exact lifecycleStatus_passes_of_fresher same verified late fresher
      (backed reference isReference content found)

end

/-! ## Verdicts -/

section
variable {primitives : Primitives} {strict relaxed : VerifyCtx} {proof : Proof}

theorem Stricter.verifiedSet_eq (stricter : Stricter strict relaxed) :
    verifiedSet primitives relaxed proof = verifiedSet primitives strict proof :=
  verifiedSet_congr (by rw [stricter.agree]) (by rw [stricter.agree]) proof

theorem Stricter.signatureChecks_eq (stricter : Stricter strict relaxed) :
    signatureChecks primitives relaxed proof = signatureChecks primitives strict proof := by
  have limits : relaxed.limits = strict.limits := by rw [stricter.agree]
  have algs : relaxed.allowedAlgs = strict.allowedAlgs := by rw [stricter.agree]
  rw [signatureChecks, signatureChecks, verifyEntries_congr limits algs]

theorem Stricter.sameEffects (stricter : Stricter strict relaxed) : SameEffects primitives proof strict relaxed := by
  have limits : relaxed.limits = strict.limits := by rw [stricter.agree]
  have algs : relaxed.allowedAlgs = strict.allowedAlgs := by rw [stricter.agree]
  have authorities : relaxed.revocationAuthorities = strict.revocationAuthorities := by rw [stricter.agree]
  have clock : relaxed.verifiedAt = strict.verifiedAt := by rw [stricter.agree]
  have objects : relaxed.statusObjects = strict.statusObjects := by rw [stricter.agree]
  constructor
  · refine moreEffects_of_objects limits.symm algs.symm authorities.symm (clock ▸ UInt64.le_refl _) fun status => ?_
    exact .mono limits algs fun object member => objects ▸ member
  · refine moreEffects_of_objects limits algs authorities (clock ▸ UInt64.le_refl _) fun status => ?_
    exact .mono limits.symm algs.symm fun object member => objects ▸ member

theorem Stricter.stale (stricter : Stricter strict relaxed) {verified : VerifiedSet}
    (stale : revocationStale relaxed verified = true) : revocationStale strict verified = true := by
  by_contra fresh
  obtain ⟨known, gate⟩ := revocationStale_eq_false.mp (Bool.not_eq_true _ ▸ fresh)
  have fresher : revocationStale relaxed verified = false := by
    refine revocationStale_eq_false.mpr ⟨?_, ?_⟩
    · rw [stricter.agree]
      exact known
    · rintro ⟨required, empty⟩
      rw [stricter.agree] at empty
      exact gate ⟨stricter.feed required, empty⟩
  rw [stale] at fresher
  cases fresher

theorem Stricter.membersClean (stricter : Stricter strict relaxed) {eventIds : List String}
    (clean : MembersClean primitives strict proof eventIds) : MembersClean primitives relaxed proof eventIds := by
  have verified : verifiedSet primitives relaxed proof = verifiedSet primitives strict proof :=
    stricter.verifiedSet_eq
  constructor
  case times =>
    rw [verified, stricter.agree]
    exact clean.times
  case references => exact clean.references
  case digests =>
    rw [verified]
    exact clean.digests
  case graph => exact stricter.graphOk clean.graph
  case composition =>
    rw [stricter.agree]
    exact clean.composition

theorem Stricter.statusesPass (stricter : Stricter strict relaxed) (passes : StatusesPass primitives strict proof) :
    StatusesPass primitives relaxed proof := by
  refine passes.of_fresher stricter.sameEffects stricter.verifiedSet_eq ?_ stricter.stale
  rw [stricter.agree]
  rfl

end

/-- A proof that is valid under a profile is valid under every profile that asks for less. -/
theorem relaxedProfile_keeps_valid (primitives : Primitives) (order order' : HashOrder) (strict relaxed : VerifyCtx)
    (bytes : Bytes) (report : VerifyReport) (stricter : Stricter strict relaxed)
    (done : verifyProof primitives order strict bytes = .ok report) :
    ∃ report', verifyProof primitives order' relaxed bytes = .ok report' ∧
      (report.cryptographicValidity = .valid → report'.cryptographicValidity = .valid) ∧
      (report.evidenceValidity = .valid → report'.evidenceValidity = .valid) := by
  have limits : relaxed.limits = strict.limits := by rw [stricter.agree]
  have inputs : checkInputs relaxed = checkInputs strict := by
    rw [stricter.agree]
    rfl
  obtain ⟨report', done'⟩ := verifyProof_of_inputs primitives order' bytes (inputs.trans (checkInputs_of_done done))
  refine ⟨report', done', ?_⟩
  obtain ⟨proof, eventIds, recomputed, both⟩ | ⟨_, same, _⟩ := verifyProof_pair done done' limits
  · obtain ⟨_, _, stages⟩ := both.first
    obtain ⟨_, _, stages'⟩ := both.second
    constructor
    · intro valid
      rw [stages.cryptoValid_iff] at valid
      rw [stages'.cryptoValid_iff, stricter.signatureChecks_eq]
      exact valid
    · intro valid
      obtain ⟨members, statuses⟩ := stages.evidenceValid_iff_parts.mp valid
      exact stages'.evidenceValid_iff_parts.mpr ⟨stricter.membersClean members, stricter.statusesPass statuses⟩
  · rw [same]
    exact ⟨id, id⟩

/-- The provenance profile, with further types of edges to be backed. -/
def groundedContext : VerifyCtx :=
  { signedContext.toVerifyCtx with
    requireAcyclicProvenance := true, extraGrounded := [RelType.references, RelType.supersedes] }

theorem groundedContext_graph :
    (graphChecks opposedPrimitives groundedContext .inserted opposedProof
      (memberNodes opposedPrimitives opposedProof [])).map (List.all · CheckRecord.ok) = .ok true := by
  decide +kernel

theorem groundedContext_valid :
    ∃ report, verifyProof opposedPrimitives .inserted groundedContext opposedProofBytes = .ok report ∧
      report.cryptographicValidity = .valid ∧ report.evidenceValidity = .valid := by
  refine @opposedProof_valid_of groundedContext rfl rfl rfl fun graph graphDone verified => ?_
  constructor
  case times =>
    rw [verified]
    decide
  case lifecycles =>
    rw [verified]
    decide +kernel
  case references => decide +kernel
  case digests =>
    rw [verified]
    decide +kernel
  case statuses =>
    rw [verified]
    decide +kernel
  case graphClean =>
    have passed := groundedContext_graph
    rw [graphDone] at passed
    exact List.all_eq_true.mp (Except.ok.inj passed)
  case composition => decide

/-- Two statements, their evidence and the edge between them. -/
theorem opposedProof_relaxed :
    ∃ report report', verifyProof opposedPrimitives .inserted groundedContext opposedProofBytes = .ok report ∧
      report.cryptographicValidity = .valid ∧ report.evidenceValidity = .valid ∧
      verifyProof opposedPrimitives .inserted signedContext.toVerifyCtx opposedProofBytes = .ok report' ∧
      report'.cryptographicValidity = .valid ∧ report'.evidenceValidity = .valid := by
  have stricter : Stricter groundedContext signedContext.toVerifyCtx := ⟨rfl, by decide, by decide, by decide⟩
  obtain ⟨report, done, crypto, evidence⟩ := groundedContext_valid
  obtain ⟨report', done', cryptoKept, evidenceKept⟩ :=
    relaxedProfile_keeps_valid _ _ .inserted groundedContext _ _ report stricter done
  exact ⟨report, report', done, crypto, evidence, done', cryptoKept crypto, evidenceKept evidence⟩

end ProofEngine
