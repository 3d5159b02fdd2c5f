import ProofEngine.Cli.Verify
import ProofEngine.Verify.Verdicts

/-! # What a strict run accepts

The strict check names only some bad statuses and relies on the pipeline for the others; the path for proofs that do
not load skips it and relies on the bytes being unreadable.  Both hold as long as the second read of the proof finds
what the first one found. -/

namespace ProofEngine

open Text

/-! ## Currency -/

/-- Both verdicts are valid and nothing is out of date. -/
structure VerifyReport.Current (report : VerifyReport) : Prop where
  crypto : report.cryptographicValidity = .valid
  evidence : report.evidenceValidity = .valid
  active : ∀ record ∈ report.lifecycle, record.status = .active
  available : ∀ record ∈ report.evidenceStatus, record.status = .available

theorem isCurrentlyAcceptable_iff {report : VerifyReport} :
    isCurrentlyAcceptable report = true ↔
      (∀ record ∈ report.lifecycle, record.status ≠ .superseded ∧ record.status ≠ .unknown) ∧
        ∀ record ∈ report.evidenceStatus, record.status ≠ .superseded ∧
          ¬ (record.status = .unknown ∧ contains record.message "provenance hint unverified" = true) := by
  simp only [isCurrentlyAcceptable, Bool.and_eq_true, Bool.not_eq_true', List.any_eq_false, Bool.or_eq_true,
    decide_eq_true_eq, not_or]

theorem verdictExit_eq_ok {report : VerifyReport} :
    verdictExit report = .ok ↔ report.cryptographicValidity = .valid ∧ report.evidenceValidity = .valid := by
  rw [verdictExit]
  split
  · rename_i valid
    exact iff_of_true rfl valid
  · rename_i invalid
    exact iff_of_false (by simp) invalid

section
variable {primitives : Primitives} {order : HashOrder} {ctx : VerifyCtx} {bytes : Bytes} {report : VerifyReport}
  {proof : Proof}

/-- A statement that failed TIME would have failed the evidence. -/
theorem lifecycleStatus_ne_expired {verified : VerifiedSet} {entry : String × AttestationContent}
    (times : ∀ entry ∈ statements verified, isTimely ctx entry.2 = true) :
    lifecycleStatus primitives ctx proof verified entry ≠ .expired := by
  have late : timeFailed ctx verified = [] := by
    rw [timeFailed, List.map_eq_nil_iff, List.filter_eq_nil_iff]
    intro entry member
    simp [times entry member]
  simp only [lifecycleStatus, late, List.contains_nil, Bool.false_eq_true, if_false]
  split
  · simp
  · split
    · simp
    · split
      · simp
      · split <;> simp

theorem mem_of_lifecycleByAtt {records : List LifecycleRecord} {id : String} {status : LifecycleStatus}
    (found : lifecycleByAtt records id = some status) : ∃ record ∈ records, record.status = status := by
  have member := LastMap.mem_of_lastValue found
  obtain ⟨record, inside, named⟩ := List.mem_filterMap.mp member
  obtain ⟨_, _, same⟩ := Option.map_eq_some_iff.mp named
  cases same
  exact ⟨record, inside, rfl⟩

/-- Evidence that passes its check is available, superseded, a hint, or expired with its attestation. -/
theorem evidenceOutcome_cases {marked withdrawn hasRef : Bool} {backing : Option LifecycleStatus}
    (passed : (evidenceOutcome marked withdrawn hasRef backing).2.2.1 = true) :
    (evidenceOutcome marked withdrawn hasRef backing).1 = .available ∨
      (evidenceOutcome marked withdrawn hasRef backing).1 = .superseded ∨
      ((evidenceOutcome marked withdrawn hasRef backing).1 = .unknown ∧
        contains (evidenceOutcome marked withdrawn hasRef backing).2.2.2 "provenance hint unverified" = true) ∨
      backing = some .expired := by
  have hint : contains
      "backing attestation not verified in this proof — provenance hint unverified, validity preserved"
      "provenance hint unverified" = true := by decide +kernel
  cases marked with
  | true => cases passed
  | false =>
    cases withdrawn with
    | true => cases passed
    | false =>
      cases backing with
      | none =>
        cases hasRef with
        | true => exact .inr (.inr (.inl ⟨rfl, hint⟩))
        | false => exact .inl rfl
      | some status =>
        cases status with
        | active => exact .inl rfl
        | superseded => exact .inr (.inl rfl)
        | expired => exact .inr (.inr (.inr rfl))
        | _ => cases passed

/-- A report that is valid and passes the strict check is current: what the check does not name has failed the
    evidence before. -/
theorem current_of_acceptable (done : verifyProof primitives order ctx bytes = .ok report)
    (valid : verdictExit report = .ok) (acceptable : isCurrentlyAcceptable report = true) : report.Current := by
  obtain ⟨crypto, evidence⟩ := verdictExit_eq_ok.mp valid
  obtain ⟨lifecycles, evidences⟩ := isCurrentlyAcceptable_iff.mp acceptable
  cases verifyProof_ran done with
  | unparsed failed => cases evidence
  | misshapen decoded failed => cases evidence
  | completed stages =>
    rename_i value proof eventIds recomputed graph
    have clean := stages.evidenceValid_iff.mp evidence
    have lifecycleIs : report.lifecycle = lifecycle primitives ctx proof (verifiedSet primitives ctx proof) := by
      rw [stages.reported]
      rfl
    have evidenceIs : report.evidenceStatus =
        evidenceStatusRecords primitives ctx proof (verifiedSet primitives ctx proof) := by
      rw [stages.reported]
      rfl
    have active : ∀ record ∈ report.lifecycle, record.status = .active := by
      intro record member
      have unnamed := lifecycles record member
      rw [lifecycleIs] at member
      obtain ⟨entry, inside, rfl⟩ := List.mem_map.mp member
      have passes := clean.lifecycles entry inside
      have timely := @lifecycleStatus_ne_expired primitives ctx proof _ entry clean.times
      simp only [lifecycleRecord] at unnamed ⊢
      cases status : lifecycleStatus primitives ctx proof (verifiedSet primitives ctx proof) entry <;>
        simp_all [LifecycleStatus.passes]
    refine ⟨crypto, evidence, active, fun record member => ?_⟩
    have unnamed := evidences record member
    rw [evidenceIs] at member
    obtain ⟨item, inside, rfl⟩ := List.mem_map.mp member
    rcases evidenceOutcome_cases (clean.statuses item inside) with available | superseded | hint | expired
    · exact available
    · exact absurd superseded unnamed.1
    · exact absurd hint unnamed.2
    · -- the backing attestation would be in the report, and everything there is active
      obtain ⟨reference, _, found⟩ := Option.bind_eq_some_iff.mp expired
      obtain ⟨backing, backingMember, status⟩ := mem_of_lifecycleByAtt found
      rw [← lifecycleIs] at backingMember
      rw [active backing backingMember] at status
      cases status

/-- Bytes that are no proof get an invalid report. -/
theorem verdictExit_unread (unread : ∀ proof, (decodeStrict bytes ctx.limits >>= cborToProof ctx.limits) ≠ .ok proof)
    (done : verifyProof primitives order ctx bytes = .ok report) : verdictExit report ≠ .ok := by
  intro valid
  obtain ⟨_, evidence⟩ := verdictExit_eq_ok.mp valid
  cases verifyProof_ran done with
  | unparsed failed => cases evidence
  | misshapen decoded failed => cases evidence
  | completed stages => exact unread _ (bind_eq_ok.mpr ⟨_, stages.decoded, stages.parsed⟩)

end

end ProofEngine
