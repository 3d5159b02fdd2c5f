import ProofEngine.Policy.Projection
import ProofEngine.Verify.ConflictsExact
import ProofEngine.Verify.EvidencePrecedence

/-! # Evidence bindings

The pipeline compares an asserted digest with the evidence it refers to, and the projection compares them again.
On a valid report the second comparison drops nothing: every active statement that asserts a digest is bound. -/

namespace ProofEngine

open Text LastMap

/-- The report has an ACTIVE lifecycle record for the attestation. -/
def recordedActive (report : VerifyReport) (id : String) : Bool :=
  report.lifecycle.any fun record => record.object = "att:" ++ id && record.status = .active

/-- The claim carries an `evidence_digest` field. -/
def assertsDigest (claim : Claim) : Bool := claim.fields.any fun field => field.1 = ClaimField.evidenceDigest

/-- The binding of a statement: to the evidence it refers to, a member with the asserted digest. -/
structure Binds (primitives : Primitives) (proof : Proof) (entry : String × AttestationContent)
    (binding : EvidenceBinding) : Prop where
  attestation : binding.attestationId = entry.1
  reference : entry.2.evidenceRef = some binding.evidenceId
  supported : ∃ evidence ∈ proof.evidence, ∃ text,
    evidenceMemberId primitives evidence = binding.evidenceId ∧
      (entry.2.claim.fields.find? fun field => field.1 = ClaimField.evidenceDigest) =
        some (ClaimField.evidenceDigest, .text text) ∧
      Hex.encode evidence.digest.digest = normalizeDigest text

/-! ## Asserted digests -/

section
variable {primitives : Primitives}

theorem evidenceDigestHex_eq_none {claim : Claim} :
    evidenceDigestHex claim = none ↔ assertsDigest claim = false := by
  have found : (claim.fields.find? fun field => field.1 = ClaimField.evidenceDigest) = none ↔
      assertsDigest claim = false := by
    rw [assertsDigest, List.find?_eq_none, List.any_eq_false]
  rw [← found, evidenceDigestHex]
  split
  · rename_i unasserted
    simp [unasserted]
  · rename_i here
    rw [here]
    simp only [reduceCtorEq, iff_false]
    split <;> simp
  · rename_i here
    simp [here]

theorem evidenceDigestHex_eq_ok {claim : Claim} {normalized : String}
    (read : evidenceDigestHex claim = some (.ok normalized)) :
    ∃ text, (claim.fields.find? fun field => field.1 = ClaimField.evidenceDigest) =
        some (ClaimField.evidenceDigest, .text text) ∧ normalized = normalizeDigest text := by
  rw [evidenceDigestHex] at read
  split at read
  · cases read
  · rename_i key text here
    have named : key = ClaimField.evidenceDigest := by simpa using List.find?_some here
    simp only at read
    split at read
    · cases read
      exact ⟨text, named ▸ here, rfl⟩
    · cases read
  · cases read

/-- What the pipeline's check establishes when it is made and passes. -/
theorem digestCheck_passed {proof : Proof} {entry : String × AttestationContent}
    (asserts : assertsDigest entry.2.claim = true)
    (passes : ∀ check, digestCheck primitives proof entry = some check → check.ok = true) :
    ∃ normalized reference actual, evidenceDigestHex entry.2.claim = some (.ok normalized) ∧
      entry.2.evidenceRef = some reference ∧ digestByEvd primitives proof reference = some actual ∧
      toLowercase actual = normalized := by
  rw [digestCheck] at passes
  cases digest : evidenceDigestHex entry.2.claim with
  | none =>
    rw [evidenceDigestHex_eq_none, asserts] at digest
    cases digest
  | some read =>
    simp only [digest] at passes
    cases read with
    | error failure => cases failure <;> cases passes _ rfl
    | ok normalized =>
      cases refers : entry.2.evidenceRef with
      | none =>
        simp only [refers] at passes
        cases passes _ rfl
      | some reference =>
        simp only [refers] at passes
        cases held : digestByEvd primitives proof reference with
        | none =>
          simp only [held] at passes
          cases passes _ rfl
        | some actual =>
          simp only [held] at passes
          by_cases same : toLowercase actual = normalized
          · exact ⟨normalized, reference, actual, rfl, rfl, held, same⟩
          · rw [if_pos same] at passes
            cases passes _ rfl

theorem exists_of_digestByEvd {proof : Proof} {reference actual : String}
    (held : digestByEvd primitives proof reference = some actual) :
    ∃ evidence ∈ proof.evidence, evidenceMemberId primitives evidence = reference ∧
      Hex.encode evidence.digest.digest = actual := by
  have member := mem_of_lastValue held
  rw [proofEvidence, ← List.map_prod_left_eq_zip, List.map_map] at member
  obtain ⟨evidence, inProof, same⟩ := List.mem_map.mp member
  cases same
  exact ⟨evidence, inProof, rfl, rfl⟩

end

/-! ## Projected bindings -/

theorem mem_reportLifecycle_active {report : VerifyReport} {id : String} :
    id ∈ reportLifecycle report .active ↔ recordedActive report id = true := by
  simp only [reportLifecycle, recordedActive, List.mem_filterMap, List.mem_filter, List.any_eq_true,
    Bool.and_eq_true, decide_eq_true_eq]
  constructor
  · rintro ⟨record, ⟨member, active⟩, stripped⟩
    exact ⟨record, member, strip_eq_some stripped, active⟩
  · rintro ⟨record, member, named, active⟩
    exact ⟨record, ⟨member, active⟩, by rw [named, strip_append]⟩

theorem forall₂_filterMap {α β : Type} {relates : α → β → Prop} {keep : α → Bool} {read : α → Option β} {items : List α}
    (kept : ∀ item ∈ items, keep item = true → ∃ found, read item = some found ∧ relates item found)
    (dropped : ∀ item ∈ items, keep item = false → read item = none) :
    List.Forall₂ relates (items.filter keep) (items.filterMap read) := by
  induction items with
  | nil => exact .nil
  | cons item items inductionHypothesis =>
    obtain ⟨keptHere, kept⟩ := List.forall_mem_cons.mp kept
    obtain ⟨droppedHere, dropped⟩ := List.forall_mem_cons.mp dropped
    cases here : keep item with
    | true =>
      obtain ⟨found, readHere, related⟩ := keptHere here
      rw [List.filter_cons_of_pos here, List.filterMap_cons_some readHere]
      exact .cons related (inductionHypothesis kept dropped)
    | false =>
      rw [List.filter_cons_of_neg (by simp [here]), List.filterMap_cons_none (droppedHere here)]
      exact inductionHypothesis kept dropped

section
variable {primitives : Primitives} {report : VerifyReport} {proof : Proof} {entry : String × AttestationContent}

theorem evidenceBindingOf_dropped
    (idle : (isStatement entry.2 && (recordedActive report entry.1 && assertsDigest entry.2.claim)) = false) :
    evidenceBindingOf primitives report proof entry = none := by
  rw [evidenceBindingOf]
  split
  · rfl
  · rename_i listed
    split
    · rfl
    · rename_i plain
      simp only [Bool.or_eq_true, Bool.not_eq_true', not_or, Bool.not_eq_false, List.contains_iff_mem,
        mem_reportLifecycle_active] at listed plain
      simp only [plain, listed.2, Bool.true_and] at idle
      rw [evidenceDigestHex_eq_none.mpr idle]

/-- Where the pipeline's check passed, the projection binds. -/
theorem evidenceBindingOf_kept (verified : entry.1 ∈ reportVerified report)
    (plain : isStatement entry.2 = true) (active : recordedActive report entry.1 = true)
    (asserts : assertsDigest entry.2.claim = true)
    (passes : ∀ check, digestCheck primitives proof entry = some check → check.ok = true) :
    ∃ binding, evidenceBindingOf primitives report proof entry = some binding ∧
      Binds primitives proof entry binding := by
  obtain ⟨normalized, reference, actual, digest, refers, held, same⟩ := digestCheck_passed asserts passes
  obtain ⟨evidence, member, named, spelled⟩ := exists_of_digestByEvd held
  obtain ⟨text, field, rfl⟩ := evidenceDigestHex_eq_ok digest
  -- the members' digests are written in lower case already
  rw [← spelled, toLowercase_encode] at same
  have listed := mem_reportLifecycle_active.mpr active
  refine ⟨{ attestationId := entry.1, evidenceId := reference }, ?_, rfl, refers,
    evidence, member, text, named, field, same⟩
  simp [evidenceBindingOf, verified, listed, plain, digest, refers, held, ← spelled, same]

end

/-- On a valid report the projected bindings are those of the active statements that assert a digest, one each and
    in order, every one to a member of the proof with the asserted digest. -/
theorem evidenceBindings_complete (primitives : Primitives) (order : HashOrder) (ctx : VerifyCtx) (bytes : Bytes)
    (proof : Proof) (report : VerifyReport)
    (read : (decodeStrict bytes ctx.limits >>= cborToProof ctx.limits) = .ok proof)
    (done : verifyProof primitives order ctx bytes = .ok report)
    (crypto : report.cryptographicValidity = .valid) (evidence : report.evidenceValidity = .valid) :
    ∃ state, stateFromReportAndProof primitives report proof = .ok state ∧
      List.Forall₂ (Binds primitives proof)
        ((statements (verifiedSet primitives ctx proof)).filter fun entry =>
          recordedActive report entry.1 && assertsDigest entry.2.claim)
        state.evidenceBindings := by
  obtain ⟨value, eventIds, recomputed, graph, stages⟩ := stagesRan_of_read read done
  obtain ⟨state, projected, _, _, _, bindings⟩ := stages.projectedState
  refine ⟨state, projected, ?_⟩
  have all := stages.verifiedSet_named crypto
  have clean := stages.evidenceValid_iff.mp evidence
  rw [bindings, ← all, statements, List.filter_filter]
  refine forall₂_filterMap ?_ ?_
  · intro entry member kept
    simp only [Bool.and_eq_true] at kept
    obtain ⟨⟨active, asserts⟩, plain⟩ := kept
    refine evidenceBindingOf_kept ?_ plain active asserts
      (clean.digests entry (List.mem_filter.mpr ⟨member, plain⟩))
    rw [stages.reportVerified_eq]
    exact List.mem_map_of_mem member
  · intro entry _ idle
    rw [Bool.and_comm] at idle
    exact evidenceBindingOf_dropped idle

/-! ## An asserted digest -/

theorem opposedProof_graph :
    (graphChecks opposedPrimitives signedContext.toVerifyCtx .inserted opposedProof
      (memberNodes opposedPrimitives opposedProof [])).map (List.all · CheckRecord.ok) = .ok true := by
  decide +kernel

theorem opposedProof_valid :
    ∃ report, verifyProof opposedPrimitives .inserted signedContext.toVerifyCtx opposedProofBytes = .ok report ∧
      report.cryptographicValidity = .valid ∧ report.evidenceValidity = .valid := by
  refine @opposedProof_valid_of signedContext.toVerifyCtx rfl rfl rfl fun graph graphDone verified => ?_
  constructor
  case times =>
    rw [verified]
    decide
  case lifecycles =>
    rw [verified]
    decide +kernel
  case references => decide +kernel
  case digests =>
    rw [verified]
    decide +kernel
  case statuses =>
    rw [verified]
    decide +kernel
  case graphClean =>
    have passed := opposedProof_graph
    rw [graphDone] at passed
    exact List.all_eq_true.mp (Except.ok.inj passed)
  case composition => decide

/-- A policy is decided on it. -/
theorem opposedProof_decided :
    ∃ decision, verifyAndEvaluate opposedPrimitives .inserted opposedProofBytes signedContext signedPolicy .empty =
        .ok decision ∧ decision.outcome.decision ≠ .indeterminate := by
  obtain ⟨report, done, crypto, evidence⟩ := opposedProof_valid
  obtain ⟨_, _, _, _, stages⟩ := @stagesRan_of_read _ _ signedContext.toVerifyCtx _ _ _ opposedProof_read done
  obtain ⟨state, projected, _⟩ := stages.projectedState
  obtain ⟨cryptoCopied, evidenceCopied, _⟩ := stateFromReportAndProof_copies projected
  obtain ⟨outcome, evaluated, decision⟩ := @evaluatePolicy_decision state (EvalInputs.ofContext signedContext)
    signedPolicy
  obtain ⟨value, decoded, parsed⟩ := bind_eq_ok.mp opposedProof_read
  have gate : checkGateInputs signedContext .empty = .ok () := rfl
  have limits : signedContext.limits = Limits.default := rfl
  refine ⟨⟨report, state, outcome⟩, ?_, ?_⟩
  · simp only [verifyAndEvaluate, gate, limits, done, decoded, parsed, projected, Result.lift, ok_bind]
    exact bind_eq_ok.mpr ⟨outcome, evaluated, rfl⟩
  · rw [crypto] at cryptoCopied
    rw [evidence] at evidenceCopied
    have first : ¬ (signedPolicy.version = 2 ∧ signedPolicy.expression = none) := by decide
    dsimp only
    rw [decision, cryptoCopied, evidenceCopied, if_neg (by decide), if_neg first]
    split <;> decide

theorem opposedProof_projection :
    (∃ report state, verifyProof opposedPrimitives .inserted signedContext.toVerifyCtx opposedProofBytes = .ok report ∧
      AgreesWithReport opposedPrimitives signedContext.toVerifyCtx opposedProof report state ∧
      state.attestationIds.length = 2) ∧
    ∃ decision, verifyAndEvaluate opposedPrimitives .inserted opposedProofBytes signedContext signedPolicy .empty =
        .ok decision ∧
      NoFailure decision.report.checks [.time] ∧
      Satisfies decision.state (EvalInputs.ofContext signedContext) .notExpired := by
  obtain ⟨agrees, decides⟩ := projection_agrees opposedPrimitives .inserted opposedProofBytes
  constructor
  · obtain ⟨report, done, crypto, _⟩ := opposedProof_valid
    obtain ⟨state, _, agreement⟩ :=
      agrees signedContext.toVerifyCtx _ report opposedProof_read done opposedProof_collisionFree
    obtain ⟨_, _, _, _, stages⟩ :=
      @stagesRan_of_read _ _ signedContext.toVerifyCtx _ _ _ opposedProof_read done
    have verified : verifiedSet opposedPrimitives signedContext.toVerifyCtx opposedProof = opposedVerified :=
      (@verifiedSet_congr _ signedContext.toVerifyCtx endedContext rfl rfl opposedProof).trans opposedProof_verified
    have two : (statements opposedVerified).length = 2 := by decide +kernel
    have lengths := congrArg List.length (agreement.sameList crypto)
    rw [List.length_map, List.length_map, stages.lifecycle_eq, lifecycle, List.length_map, verified, two] at lengths
    exact ⟨report, state, done, agreement, lengths.symm⟩
  · obtain ⟨decision, done, decided⟩ := opposedProof_decided
    exact ⟨decision, done, decides _ _ _ decision done decided⟩

theorem opposedProof_evidenceBindings :
    ∃ report state, verifyProof opposedPrimitives .inserted signedContext.toVerifyCtx opposedProofBytes = .ok report ∧
      stateFromReportAndProof opposedPrimitives report opposedProof = .ok state ∧
      List.Forall₂ (Binds opposedPrimitives opposedProof)
        ((statements (verifiedSet opposedPrimitives signedContext.toVerifyCtx opposedProof)).filter fun entry =>
          recordedActive report entry.1 && assertsDigest entry.2.claim)
        state.evidenceBindings := by
  obtain ⟨report, done, crypto, evidence⟩ := opposedProof_valid
  obtain ⟨state, projected, bindings⟩ := evidenceBindings_complete opposedPrimitives .inserted
    signedContext.toVerifyCtx _ _ _ opposedProof_read done crypto evidence
  exact ⟨report, state, done, projected, bindings⟩

end ProofEngine
