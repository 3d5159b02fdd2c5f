import ProofEngine.Crypto.Build

/-! # Verification context

Everything a verdict depends on that is not in the proof bytes. -/

namespace ProofEngine

structure VerifyCtx where
  /-- Seconds of a trustworthy clock; zero means there is none. -/
  verifiedAt : UInt64
  clockSkewLeeway : UInt64
  trustedIssuers : List String
  allowRemote : Bool
  allowedAlgs : AllowedAlgs
  limits : Limits
  statusObjects : List SignedStatus
  revocationAuthorities : List String
  revocationsKnownAt : Option UInt64
  reportAllFailures : Bool
  acceptedVocabularies : List VocabularyAccept
  extraGrounded : List String
  requireAcyclicProvenance : Bool
  requireStatusFeed : Bool
  deriving DecidableEq, Repr

def VerifyCtx.default : VerifyCtx where
  verifiedAt := 0
  clockSkewLeeway := 300
  trustedIssuers := []
  allowRemote := false
  allowedAlgs := .strict
  limits := Limits.default
  statusObjects := []
  revocationAuthorities := []
  revocationsKnownAt := none
  reportAllFailures := false
  acceptedVocabularies := []
  extraGrounded := []
  requireAcyclicProvenance := false
  requireStatusFeed := true

/-- The one context verification and policy share. -/
structure VerificationContext where
  verifiedAt : UInt64
  clockSkewLeeway : UInt64
  allowedAlgs : AllowedAlgs
  trustedIssuers : List String
  revocationAuthorities : List String
  statusObjects : List SignedStatus
  revocationsKnownAt : Option UInt64
  limits : Limits
  allowRemote : Bool
  reportAllFailures : Bool
  acceptedVocabularies : List VocabularyAccept
  extraGrounded : List String
  requireAcyclicProvenance : Bool
  requireStatusFeed : Bool
  deriving DecidableEq, Repr

def VerificationContext.default : VerificationContext where
  verifiedAt := 0
  clockSkewLeeway := 300
  allowedAlgs := .strict
  trustedIssuers := []
  revocationAuthorities := []
  statusObjects := []
  revocationsKnownAt := none
  limits := Limits.default
  allowRemote := false
  reportAllFailures := false
  acceptedVocabularies := []
  extraGrounded := []
  requireAcyclicProvenance := false
  requireStatusFeed := true

def VerificationContext.toVerifyCtx (ctx : VerificationContext) : VerifyCtx where
  verifiedAt := ctx.verifiedAt
  clockSkewLeeway := ctx.clockSkewLeeway
  trustedIssuers := ctx.trustedIssuers
  allowRemote := ctx.allowRemote
  allowedAlgs := ctx.allowedAlgs
  limits := ctx.limits
  statusObjects := ctx.statusObjects
  revocationAuthorities := ctx.revocationAuthorities
  revocationsKnownAt := ctx.revocationsKnownAt
  reportAllFailures := ctx.reportAllFailures
  acceptedVocabularies := ctx.acceptedVocabularies
  extraGrounded := ctx.extraGrounded
  requireAcyclicProvenance := ctx.requireAcyclicProvenance
  requireStatusFeed := ctx.requireStatusFeed

/-! ## Saturating arithmetic -/

def saturatingAdd (left right : UInt64) : UInt64 :=
  if left.toNat + right.toNat < 2 ^ 64 then left + right else UInt64.ofNat (2 ^ 64 - 1)

def saturatingSub (left right : UInt64) : UInt64 := if right ≤ left then left - right else 0

def saturatingMul (left right : UInt64) : UInt64 :=
  if left.toNat * right.toNat < 2 ^ 64 then left * right else UInt64.ofNat (2 ^ 64 - 1)

theorem toNat_saturatingAdd (left right : UInt64) :
    (saturatingAdd left right).toNat = min (left.toNat + right.toNat) (2 ^ 64 - 1) := by
  unfold saturatingAdd
  split
  · rename_i small
    rw [UInt64.toNat_add, Nat.mod_eq_of_lt small]
    omega
  · rename_i large
    rw [UInt64.toNat_ofNat_of_lt' (by decide)]
    omega

theorem toNat_saturatingMul (left right : UInt64) :
    (saturatingMul left right).toNat = min (left.toNat * right.toNat) (2 ^ 64 - 1) := by
  unfold saturatingMul
  split
  · rename_i small
    rw [UInt64.toNat_mul, Nat.mod_eq_of_lt small]
    omega
  · rename_i large
    rw [UInt64.toNat_ofNat_of_lt' (by decide)]
    omega

theorem toNat_saturatingSub (left right : UInt64) :
    (saturatingSub left right).toNat = left.toNat - right.toNat := by
  unfold saturatingSub
  split
  · rename_i le
    exact UInt64.toNat_sub_of_le left right le
  · rename_i lt
    rw [UInt64.le_iff_toNat_le] at lt
    have zero : (0 : UInt64).toNat = 0 := rfl
    omega

end ProofEngine
