import ProofEngine.Verify.PipelineSound

/-! # Verdicts by dimension

A projection of the report onto eight dimensions.  It reads the check records again, with rules of its own for
stages that left none and for runs that ended early; on what the pipeline reports the overall verdict agrees with
the two validities and the decision. -/

namespace ProofEngine

inductive Dimension where
  | structural
  | cryptographic
  | evidence
  | provenance
  | temporal
  | revocation
  | policy
  | overall
  deriving DecidableEq, Repr

inductive Verdict where
  | valid
  | invalid
  | indeterminate
  | notApplicable
  deriving DecidableEq, Repr

/-! ## The projection -/

/-- The verdict on some stages; without a record of them it is the given one. -/
def verdictFor (checks : List CheckRecord) (stages : List Stage) (emptyOk : Bool) (emptyVerdict : Verdict) :
    Verdict :=
  let relevant := checks.filter fun check => stages.contains check.stage
  if relevant.isEmpty then if emptyOk then .valid else emptyVerdict
  else if relevant.any fun check => !check.ok then .invalid
  else .valid

def PolicyDecision.verdict : PolicyDecision → Verdict
  | .pass => .valid
  | .fail => .invalid
  | .indeterminate => .indeterminate

/-- A provenance that does not apply is the only verdict that is not looked at for what is undecided. -/
def aggregate (structural cryptographic evidence provenance temporal revocation policy : Verdict) : Verdict :=
  if [structural, cryptographic, evidence, provenance, temporal, revocation, policy].contains .invalid then .invalid
  else if [structural, cryptographic, evidence, temporal, revocation, policy].contains .indeterminate then
    .indeterminate
  else .valid

namespace VerifyReport

variable (report : VerifyReport)

def structural : Verdict := verdictFor report.checks [.parse, .schema, .canonical] false .indeterminate

def cryptographic : Verdict := verdictFor report.checks [.identifiers, .signatures, .keys] false .indeterminate

/-- After an early exit, broken and unknown cannot be told apart. -/
def evidenceVerdict : Verdict :=
  match report.evidenceValidity with
  | .valid => .valid
  | .invalid => if report.lifecycleChecked then .invalid else .indeterminate

def provenance : Verdict :=
  if report.lifecycleChecked then verdictFor report.checks [.relationships, .graph] false .notApplicable
  else .indeterminate

def temporal : Verdict := verdictFor report.checks [.time] false .indeterminate

def revocation : Verdict := verdictFor report.checks [.revocation] false .indeterminate

def overall : Verdict :=
  aggregate report.structural report.cryptographic report.evidenceVerdict report.provenance report.temporal
    report.revocation report.policyDecision.verdict

def dimensions : List (Dimension × Verdict) :=
  [(.structural, report.structural), (.cryptographic, report.cryptographic), (.evidence, report.evidenceVerdict),
   (.provenance, report.provenance), (.temporal, report.temporal), (.revocation, report.revocation),
   (.policy, report.policyDecision.verdict), (.overall, report.overall)]

end VerifyReport

/-! ## What a verdict says -/

section
variable {checks : List CheckRecord} {stages others : List Stage}

/-- A check of these stages failed. -/
def Failed (checks : List CheckRecord) (stages : List Stage) : Prop :=
  ∃ check ∈ checks, check.stage ∈ stages ∧ check.ok = false

theorem Failed.weaken (failed : Failed checks stages) (subset : stages ⊆ others) : Failed checks others := by
  obtain ⟨check, member, inside, notOk⟩ := failed
  exact ⟨check, member, subset inside, notOk⟩

theorem failed_append {more : List Stage} :
    Failed checks (stages ++ more) ↔ Failed checks stages ∨ Failed checks more := by
  constructor
  · rintro ⟨check, member, inside, notOk⟩
    rcases List.mem_append.mp inside with inside | inside
    · exact .inl ⟨check, member, inside, notOk⟩
    · exact .inr ⟨check, member, inside, notOk⟩
  · rintro (failed | failed)
    · exact failed.weaken (List.subset_append_left _ _)
    · exact failed.weaken (List.subset_append_right _ _)

theorem stageValid_eq_invalid : stageValid checks stages = .invalid ↔ Failed checks stages := by
  rw [stageValid]
  split
  · rename_i failed
    obtain ⟨check, member, found⟩ := List.any_eq_true.mp failed
    rw [Bool.and_eq_true, Bool.not_eq_true', List.contains_iff_mem] at found
    exact iff_of_true rfl ⟨check, member, found.2, found.1⟩
  · rename_i clean
    refine iff_of_false (by simp) ?_
    rintro ⟨check, member, inside, notOk⟩
    exact clean (List.any_eq_true.mpr ⟨check, member, by simp [notOk, inside]⟩)

/-- Whatever stands for no records, a verdict is invalid exactly when a check failed. -/
theorem verdictFor_eq_invalid {emptyOk : Bool} {emptyVerdict : Verdict} (neutral : emptyVerdict ≠ .invalid) :
    verdictFor checks stages emptyOk emptyVerdict = .invalid ↔ Failed checks stages := by
  have failed_iff : ((checks.filter fun check => stages.contains check.stage).any fun check => !check.ok) = true ↔
      Failed checks stages := by
    simp only [List.any_eq_true, List.mem_filter, List.contains_iff_mem, Bool.not_eq_true', Failed, and_assoc]
  simp only [verdictFor]
  split
  · rename_i empty
    rw [List.isEmpty_iff] at empty
    rw [empty] at failed_iff
    refine iff_of_false ?_ (failed_iff.not.mp (by simp))
    split
    · simp
    · exact neutral
  · split
    · rename_i failed
      exact iff_of_true rfl (failed_iff.mp failed)
    · rename_i clean
      exact iff_of_false (by simp) (failed_iff.not.mp clean)

theorem verdict_eq_invalid {decision : PolicyDecision} : decision.verdict = .invalid ↔ decision = .fail := by
  cases decision <;> simp [PolicyDecision.verdict]

end

section
variable {structural cryptographic evidence provenance temporal revocation policy : Verdict}

theorem aggregate_eq_invalid :
    aggregate structural cryptographic evidence provenance temporal revocation policy = .invalid ↔
      structural = .invalid ∨ cryptographic = .invalid ∨ evidence = .invalid ∨ provenance = .invalid ∨
        temporal = .invalid ∨ revocation = .invalid ∨ policy = .invalid := by
  rw [aggregate]
  split
  · rename_i found
    simp only [List.contains_iff_mem, List.mem_cons, List.not_mem_nil, or_false, @eq_comm _ Verdict.invalid] at found
    exact iff_of_true rfl found
  · rename_i absent
    simp only [List.contains_iff_mem, List.mem_cons, List.not_mem_nil, or_false, @eq_comm _ Verdict.invalid] at absent
    refine iff_of_false ?_ absent
    split <;> simp

/-- An undecided policy keeps the overall verdict from being valid. -/
theorem aggregate_undecided :
    aggregate structural cryptographic evidence provenance temporal revocation .indeterminate ≠ .valid := by
  rw [aggregate]
  split
  · simp
  · split
    · simp
    · rename_i absent
      simp at absent

end

/-! ## Reports of the pipeline -/

/-- The validities are those of the checks, and a run that ended early has failed one of the first stages. -/
structure VerifyReport.Accounted (report : VerifyReport) : Prop where
  crypto : report.cryptographicValidity = stageValid report.checks cryptoStages
  evidence : report.lifecycleChecked = true → report.evidenceValidity = stageValid report.checks evidenceStages
  early : report.lifecycleChecked = false →
    report.evidenceValidity = .invalid ∧ Failed report.checks [.parse, .schema, .canonical]

theorem verifyProof_accounted {primitives : Primitives} {order : HashOrder} {ctx : VerifyCtx} {bytes : Bytes}
    {report : VerifyReport} (done : verifyProof primitives order ctx bytes = .ok report) : report.Accounted := by
  cases verifyProof_ran done with
  | unparsed failed =>
    refine ⟨rfl, fun checked => absurd checked Bool.false_ne_true, fun _ => ⟨rfl, ?_⟩⟩
    exact ⟨_, List.mem_cons_self, by simp, CheckRecord.fail_ok ..⟩
  | misshapen decoded failed =>
    refine ⟨rfl, fun checked => absurd checked Bool.false_ne_true, fun _ => ⟨rfl, ?_⟩⟩
    exact ⟨_, List.mem_cons_of_mem _ List.mem_cons_self, by simp, CheckRecord.fail_ok ..⟩
  | completed stages =>
    rw [stages.reported]
    exact ⟨rfl, fun _ => rfl, fun early => absurd early.symm Bool.false_ne_true⟩

namespace VerifyReport.Accounted

variable {report : VerifyReport}

/-- The stages of the cryptographic validity are those of two dimensions. -/
theorem crypto_invalid (accounted : report.Accounted) :
    report.cryptographicValidity = .invalid ↔ report.structural = .invalid ∨ report.cryptographic = .invalid := by
  rw [accounted.crypto, stageValid_eq_invalid, structural, cryptographic, verdictFor_eq_invalid (by simp),
    verdictFor_eq_invalid (by simp)]
  exact @failed_append _ [.parse, .schema, .canonical] [.identifiers, .signatures, .keys]

/-- A failed check of the evidence stages is a failed evidence. -/
theorem evidence_invalid (accounted : report.Accounted) (checked : report.lifecycleChecked = true)
    {stages : List Stage} (failed : Failed report.checks stages) (subset : stages ⊆ evidenceStages) :
    report.evidenceValidity = .invalid := by
  rw [accounted.evidence checked, stageValid_eq_invalid]
  exact failed.weaken subset

theorem evidenceVerdict_eq (checked : report.lifecycleChecked = true) :
    report.evidenceVerdict = .invalid ↔ report.evidenceValidity = .invalid := by
  rw [evidenceVerdict, checked]
  cases report.evidenceValidity <;> simp

theorem overall_invalid (accounted : report.Accounted) :
    report.overall = .invalid ↔ report.cryptographicValidity = .invalid ∨ report.evidenceValidity = .invalid ∨
      report.policyDecision = .fail := by
  rw [overall, aggregate_eq_invalid, verdict_eq_invalid, accounted.crypto_invalid, or_assoc]
  cases checked : report.lifecycleChecked with
  | false =>
    -- an early exit has failed a structural check
    obtain ⟨_, failed⟩ := accounted.early checked
    have structural : report.structural = .invalid := (verdictFor_eq_invalid (by simp)).mpr failed
    simp [structural]
  | true =>
    rw [evidenceVerdict_eq checked]
    have provenance : report.provenance = .invalid → report.evidenceValidity = .invalid := by
      rw [VerifyReport.provenance, checked, if_pos rfl, verdictFor_eq_invalid (by simp)]
      exact fun failed => accounted.evidence_invalid checked failed (by decide)
    have temporal : report.temporal = .invalid → report.evidenceValidity = .invalid := by
      rw [VerifyReport.temporal, verdictFor_eq_invalid (by simp)]
      exact fun failed => accounted.evidence_invalid checked failed (by decide)
    have revocation : report.revocation = .invalid → report.evidenceValidity = .invalid := by
      rw [VerifyReport.revocation, verdictFor_eq_invalid (by simp)]
      exact fun failed => accounted.evidence_invalid checked failed (by decide)
    have absorbed : (report.provenance = .invalid ∨ report.temporal = .invalid ∨ report.revocation = .invalid) →
        report.evidenceValidity = .invalid := by
      rintro (failed | failed | failed)
      · exact provenance failed
      · exact temporal failed
      · exact revocation failed
    constructor
    · rintro (failed | failed | failed | failed | failed | failed | failed)
      · exact .inl failed
      · exact .inr (.inl failed)
      · exact .inr (.inr (.inl failed))
      · exact .inr (.inr (.inl (absorbed (.inl failed))))
      · exact .inr (.inr (.inl (absorbed (.inr (.inl failed)))))
      · exact .inr (.inr (.inl (absorbed (.inr (.inr failed)))))
      · exact .inr (.inr (.inr failed))
    · rintro (failed | failed | failed | failed)
      · exact .inl failed
      · exact .inr (.inl failed)
      · exact .inr (.inr (.inl failed))
      · exact .inr (.inr (.inr (.inr (.inr (.inr failed)))))

theorem overall_valid (accounted : report.Accounted) (valid : report.overall = .valid) :
    report.cryptographicValidity = .valid ∧ report.evidenceValidity = .valid ∧ report.policyDecision = .pass := by
  have clean : ¬ (report.cryptographicValidity = .invalid ∨ report.evidenceValidity = .invalid ∨
      report.policyDecision = .fail) := by
    rw [← accounted.overall_invalid, valid]
    simp
  have decided : report.policyDecision ≠ .indeterminate := by
    intro undecided
    rw [overall, undecided] at valid
    exact aggregate_undecided valid
  obtain ⟨crypto, evidence, policy⟩ := by simpa only [not_or] using clean
  refine ⟨?_, ?_, ?_⟩
  · cases same : report.cryptographicValidity with
    | valid => rfl
    | invalid => exact absurd same crypto
  · cases same : report.evidenceValidity with
    | valid => rfl
    | invalid => exact absurd same evidence
  · cases same : report.policyDecision with
    | pass => rfl
    | fail => exact absurd same policy
    | indeterminate => exact absurd same decided

end VerifyReport.Accounted

/-- Whatever decision is stored in a report of the pipeline, the overall dimension is invalid exactly when one of
    the validities is invalid or the decision is fail, and valid only where all three are good. -/
theorem dimensions_agree (primitives : Primitives) (order : HashOrder) (ctx : VerifyCtx) (bytes : Bytes)
    (report : VerifyReport) (done : verifyProof primitives order ctx bytes = .ok report) (decision : PolicyDecision) :
    ((Dimension.overall, Verdict.invalid) ∈ { report with policyDecision := decision }.dimensions ↔
      report.cryptographicValidity = .invalid ∨ report.evidenceValidity = .invalid ∨ decision = .fail) ∧
    ((Dimension.overall, Verdict.valid) ∈ { report with policyDecision := decision }.dimensions →
      report.cryptographicValidity = .valid ∧ report.evidenceValidity = .valid ∧ decision = .pass) := by
  obtain ⟨crypto, evidence, early⟩ := verifyProof_accounted done
  have accounted : { report with policyDecision := decision }.Accounted := ⟨crypto, evidence, early⟩
  have listed : ∀ verdict, (Dimension.overall, verdict) ∈ { report with policyDecision := decision }.dimensions ↔
      { report with policyDecision := decision }.overall = verdict := by
    intro verdict
    simp [VerifyReport.dimensions, eq_comm]
  rw [listed, listed]
  exact ⟨accounted.overall_invalid, accounted.overall_valid⟩

/-- The proof with one signed statement passes under a decision to pass and not under one to fail. -/
theorem signedProof_dimensions :
    ∃ report, verifyProof signedPrimitives .inserted signedContext.toVerifyCtx signedProofBytes = .ok report ∧
      (Dimension.overall, Verdict.valid) ∈ { report with policyDecision := .pass }.dimensions ∧
      report.evidenceValidity = .valid ∧
      (Dimension.overall, Verdict.invalid) ∈ { report with policyDecision := .fail }.dimensions := by
  have passes : (verifyProof signedPrimitives .inserted signedContext.toVerifyCtx signedProofBytes).map
      (fun report => { report with policyDecision := .pass }.dimensions.getLast?) =
        .ok (some (.overall, .valid)) := by decide +kernel
  obtain ⟨report, done, last⟩ := map_eq_ok.mp passes
  have valid := List.mem_of_getLast? last
  have agree := dimensions_agree _ _ _ _ report done
  exact ⟨report, done, valid, ((agree .pass).2 valid).2.1, (agree .fail).1.mpr (.inr (.inr rfl))⟩

end ProofEngine
