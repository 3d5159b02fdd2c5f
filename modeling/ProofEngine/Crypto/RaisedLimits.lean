import ProofEngine.Crypto.Build
import ProofEngine.Format.RaisedLimits

/-! # Signatures under raised limits

What verifies with Ed25519 alone and under some limits verifies for everyone who admits Ed25519 and has no lower
limits. -/

namespace ProofEngine

open ResultOrder

section
variable {primitives : Primitives} {lower upper : Limits} {allowed : AllowedAlgs}

/-! ## Envelopes -/

theorem payloadFromCbor_extends (below : lower.Below upper) (value : CborValue) :
    Extends (payloadFromCbor lower value) (payloadFromCbor upper value) := by
  cases value with
  | bytes b => exact Extends.guard (toNat_lt_of_le below.maxProofSize) (.refl _)
  | _ => exact .refl _

theorem signatureFromCbor_extends (below : lower.Below upper) (value : CborValue) :
    Extends (signatureFromCbor lower value) (signatureFromCbor upper value) := by
  cases value with
  | bytes b => exact Extends.guard (toNat_lt_of_le below.maxSigSize) (.refl _)
  | _ => exact .refl _

theorem parseProtected_extends (below : lower.Below upper) (protectedRaw : Bytes) :
    Extends (parseProtected protectedRaw lower) (parseProtected protectedRaw upper) :=
  (decodeStrict_extends below protectedRaw).bind fun _ => .refl _

theorem parseSign1_extends (below : lower.Below upper) (bytes : Bytes) :
    Extends (parseSign1 bytes lower) (parseSign1 bytes upper) := by
  refine Extends.guard (toNat_lt_of_le below.maxProofSize) ?_
  refine (decodeStrict_extends below bytes).bind fun outer => Extends.ite (.refl _) ?_
  split
  · rename_i protectedItem unprotectedItem payloadItem signatureItem
    refine (Extends.refl _).bind fun protectedRaw => (Extends.refl _).bind fun _ => ?_
    refine (payloadFromCbor_extends below payloadItem).bind fun _ => ?_
    refine (signatureFromCbor_extends below signatureItem).bind fun _ => ?_
    exact (parseProtected_extends below protectedRaw).bind fun _ => .refl _
  · exact .refl _
  · exact .refl _

/-! ## Algorithms -/

/-- The strict algorithms are Ed25519, and that is not deprecated. -/
theorem alg_of_strict {parsed : ParsedSign1} {historical : Option Int64} {nothing : Unit}
    (historicalDone : historicalOp .strict parsed = .ok historical)
    (allowedDone : checkAllowed .strict historical parsed.alg = .ok nothing) :
    parsed.alg = coseEd25519 ∧ historical = none := by
  have current : AllowedAlgs.isDeprecated parsed.alg = false := by
    by_contra deprecated
    rw [historicalOp, if_pos (Bool.not_eq_false _ ▸ deprecated)] at historicalDone
    cases historicalDone
  rw [historicalOp, if_neg (by simp [current])] at historicalDone
  cases historicalDone
  refine ⟨?_, rfl⟩
  by_contra other
  have refused : AllowedAlgs.strict.isAllowed parsed.alg = false := by
    simp [AllowedAlgs.isAllowed, AllowedAlgs.strict, other]
  rw [checkAllowed, refused] at allowedDone
  simp only [Option.isNone_none, Bool.not_false, Bool.and_self, if_true] at allowedDone
  split at allowedDone
  · cases allowedDone
  · cases allowedDone

theorem verifySign1_widens (permitted : allowed.ed25519 = true) (below : lower.Below upper) (bytes : Bytes)
    (issuer : String) :
    Extends (verifySign1 primitives bytes issuer .strict lower)
      (verifySign1 primitives bytes issuer allowed upper) := by
  intro parsed done
  rw [verifySign1, verifySign1WithAad, if_neg (by decide +kernel)] at done ⊢
  obtain ⟨found, parsedDone, done⟩ := bind_eq_ok.mp done
  obtain ⟨historical, historicalDone, done⟩ := bind_eq_ok.mp done
  obtain ⟨_, allowedDone, done⟩ := bind_eq_ok.mp done
  obtain ⟨alg, rfl⟩ := alg_of_strict historicalDone allowedDone
  have current : AllowedAlgs.isDeprecated coseEd25519 = false := by decide
  have modern : historicalOp allowed found = .ok none := by
    rw [historicalOp, alg]
    exact if_neg (by simp [current])
  have admitted : checkAllowed allowed none found.alg = .ok () := by
    rw [checkAllowed, alg]
    exact if_neg (by simp [AllowedAlgs.isAllowed, permitted])
  rw [parseSign1_extends below bytes found parsedDone, ok_bind, modern, ok_bind, admitted, ok_bind]
  exact done

theorem verifyAttestation_widens (permitted : allowed.ed25519 = true) (below : lower.Below upper) (sign1 : Bytes)
    (issuer : String) :
    Extends (verifyAttestation primitives sign1 issuer .strict lower)
      (verifyAttestation primitives sign1 issuer allowed upper) := by
  simp only [verifyAttestation, decodeAndCheckCanonical_eq]
  refine (verifySign1_widens permitted below sign1 issuer).bind fun parsed => ?_
  refine (decodeStrict_extends below parsed.payload).bind fun value => ?_
  exact (cborToAttestation_extends below value).bind fun _ => .refl _

end

end ProofEngine
