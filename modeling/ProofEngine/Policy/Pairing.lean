import ProofEngine.Format.FieldUpdate
import ProofEngine.Policy.Combine
import ProofEngine.Policy.MemberOrder
import ProofEngine.Verify.MemberOrder
import ProofEngine.Verify.ResolveSearch
import ProofEngine.Verify.Totality

/-! # Which proofs a report is accepted with

A report names its proof by the id stored in it, and the projection of a verified state compares
that name with the id stored in the proof it is given.  Neither is recomputed there, so whatever
the id should cover can be exchanged. -/

namespace ProofEngine

open CborValue

/-- Every proof the report is accepted with is the one it was made from, up to the order of members. -/
def PairsOnly (primitives : Primitives) (limits : Limits) (bytes : Bytes) (report : VerifyReport) : Prop :=
  ∀ otherBytes other state, (decodeStrict otherBytes limits >>= cborToProof limits) = .ok other →
    stateFromReportAndProof primitives report other = .ok state →
      ∃ proof, (decodeStrict bytes limits >>= cborToProof limits) = .ok proof ∧ PermutedMembers proof other

section
variable {primitives : Primitives} {order : HashOrder} {ctx : VerifyCtx} {bytes : Bytes} {report : VerifyReport}
  {proof : Proof}

/-- The pairing check compares the stored ids and nothing more. -/
theorem stateFromReportAndProof_ok_iff :
    (∃ state, stateFromReportAndProof primitives report proof = .ok state) ↔
      report.proofId = some proof.proofId := by
  unfold stateFromReportAndProof
  split
  case h_1 unnamed => simp [unnamed, schemaError]
  case h_2 id named =>
    rw [named, Option.some.injEq]
    split
    case isTrue different => simp [schemaError, different]
    case isFalse same => simpa using same

/-- A proof under the same id is accepted whatever else it says. -/
theorem not_pairsOnly (done : verifyProof primitives order ctx bytes = .ok report)
    (read : (decodeStrict bytes ctx.limits >>= cborToProof ctx.limits) = .ok proof) :
    ¬ PairsOnly primitives ctx.limits bytes report := by
  intro paired
  obtain ⟨otherBytes, otherRead⟩ := exists_restamped read
  obtain ⟨_, _, _, _, stages⟩ := stagesRan_of_read read done
  -- the stored id is untouched
  obtain ⟨state, projected⟩ : ∃ state, stateFromReportAndProof primitives report
      { proof with createdAt := otherTime proof.createdAt } = .ok state :=
    stateFromReportAndProof_ok_iff.mpr stages.proofId_eq
  obtain ⟨source, sourceRead, permuted⟩ := paired otherBytes _ state otherRead projected
  cases read.symm.trans sourceRead
  exact otherTime_ne _ permuted.createdAt

end

/-- A report is accepted with its own proof only if its bytes do not read as a proof, when it is accepted
    with none.  What does hold is that two proofs whose stored ids are those of their content have the
    same content. -/
theorem pairing_exact (primitives : Primitives) (order : HashOrder) (ctx : VerifyCtx) (bytes : Bytes)
    (report : VerifyReport) (done : verifyProof primitives order ctx bytes = .ok report) :
    (PairsOnly primitives ctx.limits bytes report ↔
      ∀ proof, (decodeStrict bytes ctx.limits >>= cborToProof ctx.limits) ≠ .ok proof) ∧
    ∀ otherBytes proof other state, (decodeStrict bytes ctx.limits >>= cborToProof ctx.limits) = .ok proof →
      (decodeStrict otherBytes ctx.limits >>= cborToProof ctx.limits) = .ok other →
      stateFromReportAndProof primitives report other = .ok state →
      recomputedProofId primitives proof = .ok proof.proofId →
      recomputedProofId primitives other = .ok other.proofId →
      CollisionFree primitives (hashedInputs primitives proof ++ hashedInputs primitives other) →
        SameContent proof other := by
  refine ⟨⟨fun paired proof read => not_pairsOnly done read paired, ?_⟩, ?_⟩
  · intro unread otherBytes other state _ projected
    obtain ⟨source, sourceRead, _⟩ := claims_of_report done (stateFromReportAndProof_ok_iff.mp ⟨_, projected⟩)
    exact absurd sourceRead (unread source)
  · intro otherBytes proof other state read otherRead projected recomputed otherRecomputed collisionFree
    obtain ⟨source, sourceRead, same⟩ :=
      claims_of_report done (stateFromReportAndProof_ok_iff.mp ⟨_, projected⟩)
    cases read.symm.trans sourceRead
    obtain ⟨value, decoded, parsed⟩ := bind_eq_ok.mp read
    obtain ⟨otherValue, otherDecoded, otherParsed⟩ := bind_eq_ok.mp otherRead
    have canonical := (decodeStrict_sound decoded).2
    have otherCanonical := (decodeStrict_sound otherDecoded).2
    rw [recomputedProofId_eq primitives (cborToProof_versions parsed), same] at recomputed
    rw [recomputedProofId_eq primitives (cborToProof_versions otherParsed)] at otherRecomputed
    have agree := sameUpToEntryOrder_of_id (cborToProof_bounded canonical.addressable parsed)
      (cborToProof_bounded otherCanonical.addressable otherParsed) collisionFree
      (Except.ok.inj (recomputed.trans otherRecomputed.symm))
    exact agree.sameContent canonical parsed otherCanonical otherParsed

theorem leafProof_reads :
    (decodeStrict (bytesOf leafProof) Limits.default >>= cborToProof Limits.default) = .ok leafProof ∧
    (decodeStrict (bytesOf tamperedProof) Limits.default >>= cborToProof Limits.default) =
      .ok tamperedProof := by
  decide +kernel

theorem leafProof_reported :
    ((verifyProof linkedPrimitives .inserted VerifyCtx.default (bytesOf leafProof)).map fun report =>
      (report.proofId, report.cryptographicValidity, report.evidenceValidity)) =
        .ok (some leafId, .valid, .valid) := by
  decide +kernel

/-- A report is accepted with the same members in another order, whose content is the same; and not with these
    only. -/
theorem reorderedProof_paired :
    ∃ report state, verifyProof supersedingPrimitives .inserted VerifyCtx.default supersedingBytes = .ok report ∧
      stateFromReportAndProof supersedingPrimitives report reorderedProof = .ok state ∧
      SameContent supersedingProof reorderedProof ∧
      ¬ PairsOnly supersedingPrimitives Limits.default supersedingBytes report := by
  obtain ⟨report, done, _⟩ := supersedingProof_valid
  obtain ⟨_, _, _, _, stages⟩ := stagesRan_of_read supersedingProof_read done
  obtain ⟨state, projected⟩ : ∃ state,
      stateFromReportAndProof supersedingPrimitives report reorderedProof = .ok state :=
    stateFromReportAndProof_ok_iff.mpr stages.proofId_eq
  have reorderedRead : (decodeStrict reorderedBytes Limits.default >>= cborToProof Limits.default) =
      .ok reorderedProof := by decide +kernel
  have recomputed : recomputedProofId supersedingPrimitives supersedingProof = .ok supersedingProof.proofId := by
    decide +kernel
  have reordered : recomputedProofId supersedingPrimitives reorderedProof = .ok reorderedProof.proofId := by
    decide +kernel
  have collisionFree : CollisionFree supersedingPrimitives
      (hashedInputs supersedingPrimitives supersedingProof ++ hashedInputs supersedingPrimitives reorderedProof) := by
    decide +kernel
  obtain ⟨only, sameContent⟩ := pairing_exact _ _ _ _ _ done
  refine ⟨report, state, done, projected, ?_, fun paired => ?_⟩
  · exact sameContent reorderedBytes _ _ state supersedingProof_read reorderedRead projected recomputed reordered
      collisionFree
  · exact only.mp paired supersedingProof supersedingProof_read

/-- The report on a valid proof is accepted with a proof under the same id that was created a second
    later, and that time goes into the state. -/
theorem tamperedProof_paired :
    ∃ report state, verifyProof linkedPrimitives .inserted VerifyCtx.default (bytesOf leafProof) = .ok report ∧
      report.cryptographicValidity = .valid ∧ report.evidenceValidity = .valid ∧
      (decodeStrict (bytesOf leafProof) Limits.default >>= cborToProof Limits.default) = .ok leafProof ∧
      (decodeStrict (bytesOf tamperedProof) Limits.default >>= cborToProof Limits.default) =
        .ok tamperedProof ∧
      stateFromReportAndProof linkedPrimitives report tamperedProof = .ok state ∧
      state.proofCreatedAt = 1700000001 ∧ leafProof.createdAt = 1700000000 ∧
      ¬ PermutedMembers leafProof tamperedProof := by
  obtain ⟨report, done, fields⟩ := map_eq_ok.mp leafProof_reported
  simp only [Prod.mk.injEq] at fields
  obtain ⟨named, crypto, evidence⟩ := fields
  obtain ⟨state, projected⟩ : ∃ state, stateFromReportAndProof linkedPrimitives report tamperedProof = .ok state :=
    stateFromReportAndProof_ok_iff.mpr named
  refine ⟨report, state, done, crypto, evidence, leafProof_reads.1, leafProof_reads.2, projected, ?_, rfl, ?_⟩
  · exact (stateFromReportAndProof_copies projected).2.2
  · intro permuted
    exact absurd permuted.createdAt (by decide)

end ProofEngine
