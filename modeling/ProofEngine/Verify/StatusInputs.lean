import ProofEngine.Verify.Verdicts

/-! # Status inputs across runs

Lifecycle and evidence statuses see the status inputs of a run only through `TakesEffect`: which kinds of
status take effect over which targets.  More effects make a status more severe, equal effects leave it as
it is; clocks and feeds are compared by comparing what takes effect under them. -/

namespace ProofEngine

open Text LastMap

/-! ## What takes effect -/

section
variable (primitives : Primitives) (ctx : VerifyCtx) (proof : Proof)

/-- The effect of a status object, wherever it was found. -/
def effectOf (status : AttestationContent) (kind : ClaimKind) (target : String) (atTime : Option UInt64) :
    StatusEffect :=
  { target, kind, issuer := status.issuer, issuedAt := status.issuedAt, object := "", atTime }

/-- A status of this kind applies to the target. -/
def TakesEffect (kind : ClaimKind) (target : String) (atTime : Option UInt64) : Prop :=
  ∃ effect ∈ counting primitives ctx proof (verifiedSet primitives ctx proof),
    effect.kind = kind ∧ effect.target = target ∧ effect.atTime = atTime

/-- A compromise that takes effect covers the statement. -/
def Marked (entry : String × AttestationContent) : Prop :=
  ∃ target atTime, TakesEffect primitives ctx proof .compromise target (some atTime) ∧
    (target = entry.2.issuer ∨ target = entry.1) ∧ atTime ≤ entry.2.issuedAt

/-- A status of this kind takes effect over the target itself. -/
def Hit (kind : ClaimKind) (target : String) : Prop := ∃ atTime, TakesEffect primitives ctx proof kind target atTime

end

section
variable {primitives : Primitives} {ctx : VerifyCtx} {proof : Proof}

theorem takesEffect_iff {kind : ClaimKind} {target : String} {atTime : Option UInt64} :
    TakesEffect primitives ctx proof kind target atTime ↔
      ∃ status, StatusObject primitives ctx proof status ∧ Asserts status kind target atTime ∧
        empowered primitives ctx proof (verifiedSet primitives ctx proof)
          (effectOf status kind target atTime) = true ∧
        timely ctx (effectOf status kind target atTime) = true := by
  constructor
  · rintro ⟨effect, member, rfl, rfl, rfl⟩
    rw [counting, List.mem_filter, Bool.and_eq_true] at member
    obtain ⟨member, power, time⟩ := member
    -- authority and clock look at the issuer and the date only, never at where the object was found
    obtain ⟨status, authentic, asserts, issuerIs, issuedAtIs⟩ :=
      exists_effect_iff.mp ⟨effect, member, rfl, rfl, rfl, rfl, rfl⟩
    refine ⟨status, authentic, asserts, ?_, ?_⟩
    · rw [effectOf, issuerIs, issuedAtIs]
      exact power
    · rw [effectOf, issuerIs, issuedAtIs]
      exact time
  · rintro ⟨status, authentic, asserts, power, time⟩
    obtain ⟨effect, member, kindIs, targetIs, issuerIs, issuedAtIs, atTimeIs⟩ :=
      exists_effect_iff.mpr ⟨status, authentic, asserts, rfl, rfl⟩
    refine ⟨effect, ?_, kindIs, targetIs, atTimeIs⟩
    rw [counting, List.mem_filter, Bool.and_eq_true]
    refine ⟨member, ?_, ?_⟩
    · subst kindIs targetIs atTimeIs
      rw [effectOf, ← issuerIs, ← issuedAtIs] at power
      exact power
    · rw [timely, issuedAtIs]
      exact time

theorem any_compromises {covers : String → UInt64 → Bool} :
    ((compromises primitives ctx proof (verifiedSet primitives ctx proof)).any fun mark => covers mark.1 mark.2) =
        true ↔
      ∃ target atTime, TakesEffect primitives ctx proof .compromise target (some atTime) ∧
        covers target atTime = true := by
  simp only [List.any_eq_true, compromises, List.mem_filterMap, Option.ite_none_right_eq_some,
    Option.map_eq_some_iff, TakesEffect]
  constructor
  · rintro ⟨_, ⟨effect, member, kindIs, atTime, found, rfl⟩, inside⟩
    exact ⟨effect.target, atTime, ⟨effect, member, kindIs, rfl, found⟩, inside⟩
  · rintro ⟨_, atTime, ⟨effect, member, kindIs, rfl, found⟩, inside⟩
    exact ⟨(effect.target, atTime), ⟨effect, member, kindIs, atTime, found, rfl⟩, inside⟩

theorem any_compromises_entry {entry : String × AttestationContent} :
    ((compromises primitives ctx proof (verifiedSet primitives ctx proof)).any fun (target, atTime) =>
      (target = entry.2.issuer || target = entry.1) && atTime ≤ entry.2.issuedAt) = true ↔
      Marked primitives ctx proof entry := by
  rw [@any_compromises _ _ _ fun target atTime =>
    (target = entry.2.issuer || target = entry.1) && atTime ≤ entry.2.issuedAt]
  simp [Marked]

theorem any_applies {kind : ClaimKind} {id : String} :
    ((applies primitives ctx proof (verifiedSet primitives ctx proof)).any fun (target, found) =>
      target = id && found = kind) = true ↔ Hit primitives ctx proof kind id := by
  simp only [List.any_eq_true, applies, List.mem_map, Bool.and_eq_true, decide_eq_true_eq, Hit, TakesEffect]
  constructor
  · rintro ⟨_, ⟨effect, member, rfl⟩, targetIs, kindIs⟩
    exact ⟨effect.atTime, effect, member, kindIs, targetIs, rfl⟩
  · rintro ⟨_, effect, member, kindIs, targetIs, _⟩
    exact ⟨_, ⟨effect, member, rfl⟩, targetIs, kindIs⟩

theorem any_compromises_id {id : String} :
    ((compromises primitives ctx proof (verifiedSet primitives ctx proof)).any fun (target, _) => target = id) =
        true ↔ ∃ atTime, TakesEffect primitives ctx proof .compromise id (some atTime) := by
  rw [@any_compromises _ _ _ fun target _ => target = id]
  simp

end

/-! ## Which status a statement has -/

section
variable (primitives : Primitives) (ctx : VerifyCtx) (proof : Proof) (entry : String × AttestationContent)

/-- No compromise, revocation or supersession takes effect over the statement. -/
structure Untouched : Prop where
  unmarked : ¬ Marked primitives ctx proof entry
  unrevoked : ¬ Hit primitives ctx proof .revoke entry.1
  current : ¬ Hit primitives ctx proof .supersede entry.1

inductive Decided : LifecycleStatus → Prop where
  | compromised (marked : Marked primitives ctx proof entry) : Decided .compromised
  | revoked (unmarked : ¬ Marked primitives ctx proof entry) (hit : Hit primitives ctx proof .revoke entry.1) :
    Decided .revoked
  | superseded (unmarked : ¬ Marked primitives ctx proof entry)
    (unrevoked : ¬ Hit primitives ctx proof .revoke entry.1)
    (hit : Hit primitives ctx proof .supersede entry.1) : Decided .superseded
  | expired (untouched : Untouched primitives ctx proof entry)
    (late : entry.1 ∈ timeFailed ctx (verifiedSet primitives ctx proof)) : Decided .expired
  | unknown (untouched : Untouched primitives ctx proof entry)
    (inTime : entry.1 ∉ timeFailed ctx (verifiedSet primitives ctx proof))
    (stale : revocationStale ctx (verifiedSet primitives ctx proof) = true) : Decided .unknown
  | active (untouched : Untouched primitives ctx proof entry)
    (inTime : entry.1 ∉ timeFailed ctx (verifiedSet primitives ctx proof))
    (fresh : revocationStale ctx (verifiedSet primitives ctx proof) = false) : Decided .active

theorem lifecycleStatus_decided :
    Decided primitives ctx proof entry
      (lifecycleStatus primitives ctx proof (verifiedSet primitives ctx proof) entry) := by
  simp only [lifecycleStatus]
  split
  · rename_i marked
    exact .compromised (any_compromises_entry.mp marked)
  -- the tests of the source come in this order: the first that applies decides
  rename_i unmarked
  rw [any_compromises_entry] at unmarked
  split
  · rename_i hit
    exact .revoked unmarked (any_applies.mp hit)
  rename_i unrevoked
  rw [any_applies] at unrevoked
  split
  · rename_i hit
    exact .superseded unmarked unrevoked (any_applies.mp hit)
  rename_i current
  rw [any_applies] at current
  split
  · rename_i late
    exact .expired ⟨unmarked, unrevoked, current⟩ (List.contains_iff_mem.mp late)
  rename_i inTime
  rw [List.contains_iff_mem] at inTime
  split
  · rename_i stale
    exact .unknown ⟨unmarked, unrevoked, current⟩ inTime stale
  · rename_i fresh
    exact .active ⟨unmarked, unrevoked, current⟩ inTime (Bool.not_eq_true _ ▸ fresh)

end

/-- How far a status withdraws a statement; the others leave it standing. -/
def LifecycleStatus.severity : LifecycleStatus → Nat
  | .compromised => 3
  | .revoked => 2
  | .superseded => 1
  | .expired | .unknown | .active => 0

section
variable {primitives : Primitives} {ctx other : VerifyCtx} {proof : Proof} {entry : String × AttestationContent}
  {status : LifecycleStatus}

/-- What takes effect over a statement bounds its severity from below. -/
theorem Decided.severity_ge (decided : Decided primitives ctx proof entry status) :
    (Marked primitives ctx proof entry → 3 ≤ status.severity) ∧
      (Hit primitives ctx proof .revoke entry.1 → 2 ≤ status.severity) ∧
      (Hit primitives ctx proof .supersede entry.1 → 1 ≤ status.severity) := by
  cases decided with
  | compromised _ => exact ⟨fun _ => by decide, fun _ => by decide, fun _ => by decide⟩
  | revoked unmarked _ => exact ⟨fun marked => absurd marked unmarked, fun _ => by decide, fun _ => by decide⟩
  | superseded unmarked unrevoked _ =>
    exact ⟨fun marked => absurd marked unmarked, fun hit => absurd hit unrevoked, fun _ => by decide⟩
  | expired untouched _ | unknown untouched _ _ | active untouched _ _ =>
    exact ⟨fun marked => absurd marked untouched.unmarked, fun hit => absurd hit untouched.unrevoked,
      fun hit => absurd hit untouched.current⟩

/-- Everything that takes effect in one run takes effect in the other. -/
def MoreEffects (primitives : Primitives) (proof : Proof) (ctx other : VerifyCtx) : Prop :=
  ∀ kind target atTime, TakesEffect primitives ctx proof kind target atTime →
    TakesEffect primitives other proof kind target atTime

theorem MoreEffects.marked (more : MoreEffects primitives proof ctx other)
    (marked : Marked primitives ctx proof entry) : Marked primitives other proof entry := by
  obtain ⟨target, atTime, takes, covers⟩ := marked
  exact ⟨target, atTime, more _ _ _ takes, covers⟩

theorem MoreEffects.hit (more : MoreEffects primitives proof ctx other) {kind : ClaimKind} {target : String}
    (hit : Hit primitives ctx proof kind target) : Hit primitives other proof kind target := by
  obtain ⟨atTime, takes⟩ := hit
  exact ⟨atTime, more _ _ _ takes⟩

/-- More effects never make a status less severe. -/
theorem Decided.severity_le (more : MoreEffects primitives proof ctx other)
    (decided : Decided primitives ctx proof entry status) {later : LifecycleStatus}
    (decidedLater : Decided primitives other proof entry later) : status.severity ≤ later.severity := by
  cases decided with
  | compromised marked => exact decidedLater.severity_ge.1 (more.marked marked)
  | revoked _ hit => exact decidedLater.severity_ge.2.1 (more.hit hit)
  | superseded _ _ hit => exact decidedLater.severity_ge.2.2 (more.hit hit)
  | expired _ _ => exact Nat.zero_le _
  | unknown _ _ _ => exact Nat.zero_le _
  | active _ _ _ => exact Nat.zero_le _

theorem lifecycleStatus_untouched (untouched : Untouched primitives ctx proof entry) :
    lifecycleStatus primitives ctx proof (verifiedSet primitives ctx proof) entry =
      if entry.1 ∈ timeFailed ctx (verifiedSet primitives ctx proof) then .expired
      else if revocationStale ctx (verifiedSet primitives ctx proof) = true then .unknown else .active := by
  simp only [lifecycleStatus, List.contains_iff_mem]
  rw [if_neg (mt any_compromises_entry.mp untouched.unmarked), if_neg (mt any_applies.mp untouched.unrevoked),
    if_neg (mt any_applies.mp untouched.current)]

theorem Untouched.mono (more : MoreEffects primitives proof ctx other)
    (untouched : Untouched primitives other proof entry) : Untouched primitives ctx proof entry :=
  ⟨fun marked => untouched.unmarked (more.marked marked), fun hit => untouched.unrevoked (more.hit hit),
    fun hit => untouched.current (more.hit hit)⟩

end

/-! ## Runs that share the verified set -/

section
variable {primitives : Primitives} {ctx other : VerifyCtx} {proof : Proof}

theorem verifyEntries_congr (limits : ctx.limits = other.limits) (algs : ctx.allowedAlgs = other.allowedAlgs)
    (entries : List (StoredAttestation × String)) :
    verifyEntries primitives ctx entries = verifyEntries primitives other entries := by
  induction entries with
  | nil => rfl
  | cons entry entries inductionHypothesis =>
    -- of the context, signatures see the limits and the algorithms only
    have same : verifyEntry primitives ctx entry.1 entry.2 = verifyEntry primitives other entry.1 entry.2 := by
      simp only [verifyEntry, limits, algs]
    simp only [verifyEntries, inductionHypothesis, same]

theorem verifiedSet_congr (limits : ctx.limits = other.limits) (algs : ctx.allowedAlgs = other.allowedAlgs)
    (proof : Proof) : verifiedSet primitives ctx proof = verifiedSet primitives other proof := by
  rw [verifiedSet, verifiedSet, verifyEntries_congr limits algs]

theorem empowered_congr (authorities : ctx.revocationAuthorities = other.revocationAuthorities)
    (verified : VerifiedSet) (effect : StatusEffect) :
    empowered primitives ctx proof verified effect = empowered primitives other proof verified effect := by
  have authority : isAuthority ctx = isAuthority other := by
    funext issuer
    rw [isAuthority, isAuthority, authorities]
  simp only [empowered, mayWithdraw, mayEnd, authority]

/-- A status object of one run that is also one of the other keeps its effect, when the clock is no
    earlier and the powers are the same. -/
theorem moreEffects_of_objects (limits : ctx.limits = other.limits) (algs : ctx.allowedAlgs = other.allowedAlgs)
    (authorities : ctx.revocationAuthorities = other.revocationAuthorities)
    (clock : ctx.verifiedAt ≤ other.verifiedAt)
    (objects : ∀ status, StatusObject primitives ctx proof status → StatusObject primitives other proof status) :
    MoreEffects primitives proof ctx other := by
  intro kind target atTime takes
  obtain ⟨status, authentic, asserts, power, time⟩ := takesEffect_iff.mp takes
  refine takesEffect_iff.mpr ⟨status, objects status authentic, asserts, ?_, ?_⟩
  · rw [← verifiedSet_congr limits algs, ← empowered_congr authorities]
    exact power
  · simp only [timely, effectOf, Bool.and_eq_true, decide_eq_true_eq, UInt64.le_iff_toNat_le, ne_eq,
      ← UInt64.toNat_inj] at time clock ⊢
    -- a date that is not ahead of the clock is not ahead of a later one
    have zero : (0 : UInt64).toNat = 0 := rfl
    omega

/-- The status an evidence item inherits is that of the last statement with the id it refers to. -/
theorem lifecycleByAtt_lifecycle {verified : VerifiedSet} {id : String} :
    lifecycleByAtt (lifecycle primitives ctx proof verified) id =
      (lastValue (statements verified) id).map fun content =>
        lifecycleStatus primitives ctx proof verified (id, content) := by
  rw [lifecycleByAtt, lifecycle, List.filterMap_map, ← lastValue_map (lifecycleStatus primitives ctx proof verified)]
  apply congrArg (fun pairs => lastValue pairs id)
  rw [← List.filterMap_eq_map]
  apply List.filterMap_congr
  intro entry _
  simp [lifecycleRecord]

theorem evidenceOutcome_ok (marked withdrawn hasRef : Bool) (backing : Option LifecycleStatus) :
    (evidenceOutcome marked withdrawn hasRef backing).2.2.1 =
      (!marked && !withdrawn && backing.all LifecycleStatus.passes) := by
  cases marked with
  | true => rfl
  | false =>
    cases withdrawn with
    | true => rfl
    | false =>
      cases backing with
      | none => cases hasRef <;> rfl
      | some status => cases status <;> rfl

/-- What makes an evidence item count against the proof. -/
theorem evidenceOutcomeOf_ok {evidence : Evidence} {id : String} :
    (evidenceOutcomeOf primitives ctx proof (verifiedSet primitives ctx proof) (evidence, id)).2.2.1 = true ↔
      (¬ ∃ atTime, TakesEffect primitives ctx proof .compromise id (some atTime)) ∧
      ¬ Hit primitives ctx proof .withdraw id ∧
      ∀ reference, evidence.attestationRef = some reference → ∀ content,
        lastValue (statements (verifiedSet primitives ctx proof)) reference = some content →
        (lifecycleStatus primitives ctx proof (verifiedSet primitives ctx proof) (reference, content)).passes =
          true := by
  rw [evidenceOutcomeOf, evidenceOutcome_ok, Bool.and_eq_true, Bool.and_eq_true, ← any_compromises_id, ← any_applies,
    and_assoc]
  rw [Bool.not_eq_true', Bool.not_eq_true', ← Bool.not_eq_true, ← Bool.not_eq_true]
  refine and_congr_right fun _ => and_congr_right fun _ => ?_
  cases evidence.attestationRef with
  | none => simp
  | some reference =>
    simp only [Option.bind_some, lifecycleByAtt_lifecycle, Option.some.injEq, forall_eq']
    cases lastValue (statements (verifiedSet primitives ctx proof)) reference with
    | none => simp
    | some content => simp

end

/-! ## Freshness -/

/-- Revocation information is there and within the leeway. -/
def RevocationsFresh (ctx : VerifyCtx) : Prop :=
  ∃ known, ctx.revocationsKnownAt = some known ∧ ctx.verifiedAt.toNat - known.toNat ≤ ctx.clockSkewLeeway.toNat

theorem revocationStale_eq_false {ctx : VerifyCtx} {verified : VerifiedSet} :
    revocationStale ctx verified = false ↔
      RevocationsFresh ctx ∧ ¬ (ctx.requireStatusFeed = true ∧ totalStatusInputs ctx verified = 0) := by
  rw [revocationStale, RevocationsFresh]
  cases ctx.revocationsKnownAt with
  | none => simp
  | some known =>
    have leeway : ¬ ctx.clockSkewLeeway < saturatingSub ctx.verifiedAt known ↔
        ctx.verifiedAt.toNat - known.toNat ≤ ctx.clockSkewLeeway.toNat := by
      rw [UInt64.lt_iff_toNat_lt, toNat_saturatingSub, not_lt]
    simp only [Option.isNone_some, Option.getD_some, Bool.false_or, Bool.or_eq_false_iff, decide_eq_false_iff_not,
      leeway, Bool.and_eq_false_iff, Option.some.injEq, exists_eq_left', not_and_or, Bool.not_eq_true]

theorem Decided.passes_iff {primitives : Primitives} {ctx : VerifyCtx} {proof : Proof}
    {entry : String × AttestationContent} {status : LifecycleStatus}
    (fresh : revocationStale ctx (verifiedSet primitives ctx proof) = false)
    (decided : Decided primitives ctx proof entry status) : status.passes = true ↔ status.severity < 2 := by
  cases decided with
  -- UNKNOWN is the one status that fails without being severe; fresh information excludes it
  | unknown _ _ stale =>
    rw [fresh] at stale
    cases stale
  | _ => decide

end ProofEngine
