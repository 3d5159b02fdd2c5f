import ProofEngine.Verify.Lifecycle

/-! # What a lifecycle status means

Which status objects count, over which targets, and which status a statement then has, said without
the loops and maps of the code.  Times are natural numbers here: saturation at the top of the clock
changes no comparison. -/

namespace ProofEngine

open Text LastMap

/-! ## Status objects that count -/

/-- What a well-formed status claim asserts: its kind, its target and, for a compromise, the instant. -/
inductive Asserts (status : AttestationContent) : ClaimKind → String → Option UInt64 → Prop where
  | revoke {target : String} (read : revocationTarget status = .ok target) :
      Asserts status .revoke target none
  | supersede {old new : String} (read : supersessionPair status = .ok (old, new)) :
      Asserts status .supersede old none
  | withdraw {target : String} (read : withdrawalTarget status = .ok target) :
      Asserts status .withdraw target none
  | compromise {target : String} {atTime : UInt64} (read : compromiseMark status = .ok (target, atTime)) :
      Asserts status .compromise target (some atTime)

section
variable (primitives : Primitives) (ctx : VerifyCtx) (proof : Proof)

/-- A status object is a verified attestation of the proof, or a supplied one whose signature is by the
    issuer it states. -/
def StatusObject (status : AttestationContent) : Prop :=
  (∃ id, (id, status) ∈ verifiedSet primitives ctx proof) ∨
    ∃ supplied ∈ ctx.statusObjects,
      verifyStatusObject primitives supplied.sign1 supplied.content.issuer ctx.allowedAlgs ctx.limits =
        .ok status

/-- Who may assert a kind of status over a target besides the configured authorities: the issuer of the
    target statement revokes and supersedes it; the issuer of any target attestation, or of the
    attestation behind target evidence, withdraws it; an identity reports itself compromised. -/
def OwnPower (issuer target : String) : ClaimKind → Prop
  | .compromise => issuer = target
  | .withdraw =>
    (∃ content, (target, content) ∈ verifiedSet primitives ctx proof ∧ content.issuer = issuer) ∨
      (∀ content, (target, content) ∉ verifiedSet primitives ctx proof) ∧
        ∃ evidence ∈ proof.evidence, evidenceMemberId primitives evidence = target ∧
          ∃ backing content, evidence.attestationRef = some backing ∧
            (backing, content) ∈ verifiedSet primitives ctx proof ∧ content.issuer = issuer
  | _ =>
    ∃ content, (target, content) ∈ verifiedSet primitives ctx proof ∧ claimKind content = .statement ∧
      content.issuer = issuer

/-- A status object that takes effect. -/
structure Counts (status : AttestationContent) (kind : ClaimKind) (target : String)
    (atTime : Option UInt64) : Prop where
  authentic : StatusObject primitives ctx proof status
  wellFormed : Asserts status kind target atTime
  empowered : status.issuer ∈ ctx.revocationAuthorities ∨
    OwnPower primitives ctx proof status.issuer target kind
  clock : ctx.verifiedAt ≠ 0
  known : status.issuedAt ≤ ctx.verifiedAt

/-! ## Lifecycle statuses -/

/-- When a status applies to the verified statement `content` named `id`. -/
def StatusApplies (id : String) (content : AttestationContent) : LifecycleStatus → Prop
  | .compromised => ∃ status target atTime, Counts primitives ctx proof status .compromise target (some atTime) ∧
      (target = content.issuer ∨ target = id) ∧ atTime ≤ content.issuedAt
  | .revoked => ∃ status, Counts primitives ctx proof status .revoke id none
  | .superseded => ∃ status, Counts primitives ctx proof status .supersede id none
  | .expired => ctx.verifiedAt = 0 ∨
      ctx.verifiedAt.toNat + ctx.clockSkewLeeway.toNat < content.issuedAt.toNat ∨
      ∃ expiry, content.expiresAt = some expiry ∧
        expiry.toNat + ctx.clockSkewLeeway.toNat < ctx.verifiedAt.toNat
  | .unknown => ctx.revocationsKnownAt = none ∨
      (∃ known, ctx.revocationsKnownAt = some known ∧
        ctx.clockSkewLeeway.toNat < ctx.verifiedAt.toNat - known.toNat) ∨
      (ctx.requireStatusFeed = true ∧ ctx.statusObjects = [] ∧
        ∀ entry ∈ verifiedSet primitives ctx proof, claimKind entry.2 = .statement)
  | .active => True

end

def precedence : List LifecycleStatus :=
  [.compromised, .revoked, .superseded, .expired, .unknown, .active]

/-- `status` applies and nothing before it in the order of precedence does. -/
def FirstApplying (applies : LifecycleStatus → Prop) (status : LifecycleStatus) : Prop :=
  ∃ earlier later, precedence = earlier ++ status :: later ∧ applies status ∧
    ∀ other ∈ earlier, ¬ applies other

/-! ## The code decides these -/

/-- The readers of status claims begin with a check of the kind. -/
theorem claimKind_of_read {α : Type} {status : AttestationContent} {kind : ClaimKind} {message : String}
    {rest : Result α} {value : α}
    (done : (if claimKind status ≠ kind then schemaError message else rest) = .ok value) :
    claimKind status = kind := by
  by_contra other
  rw [if_pos other] at done
  cases done

theorem Asserts.claimKind_eq {status : AttestationContent} {kind : ClaimKind} {target : String}
    {atTime : Option UInt64} (asserts : Asserts status kind target atTime) : claimKind status = kind := by
  cases asserts with
  | revoke read => exact claimKind_of_read read
  | supersede read => exact claimKind_of_read read
  | withdraw read => exact claimKind_of_read read
  | compromise read => exact claimKind_of_read read

theorem Asserts.isStatus {status : AttestationContent} {kind : ClaimKind} {target : String}
    {atTime : Option UInt64} (asserts : Asserts status kind target atTime) : isStatement status = false := by
  have kindIs := asserts.claimKind_eq
  cases asserts <;> simp [isStatement, kindIs]

theorem statusEffect_of_asserts {status : AttestationContent} {kind : ClaimKind} {target : String}
    {atTime : Option UInt64} (asserts : Asserts status kind target atTime) (object : String) :
    statusEffect object status =
      .ok { target, kind, issuer := status.issuer, issuedAt := status.issuedAt, object, atTime } := by
  have kindIs := asserts.claimKind_eq
  cases asserts with
  | revoke read => simp only [statusEffect, kindIs, read]
  | supersede read => simp only [statusEffect, kindIs, read]
  | withdraw read => simp only [statusEffect, kindIs, read]
  | compromise read => simp only [statusEffect, kindIs, read]

theorem asserts_of_statusEffect {object : String} {status : AttestationContent} {effect : StatusEffect}
    (done : statusEffect object status = .ok effect) :
    Asserts status effect.kind effect.target effect.atTime ∧
      effect.issuer = status.issuer ∧ effect.issuedAt = status.issuedAt := by
  simp only [statusEffect] at done
  cases kindIs : claimKind status with
  | statement => simp only [kindIs, reduceCtorEq] at done
  | revoke =>
    simp only [kindIs] at done
    split at done
    · rename_i read
      cases done
      exact ⟨.revoke read, rfl, rfl⟩
    · cases done
  | supersede =>
    simp only [kindIs] at done
    split at done
    · rename_i read
      cases done
      exact ⟨.supersede read, rfl, rfl⟩
    · cases done
  | withdraw =>
    simp only [kindIs] at done
    split at done
    · rename_i read
      cases done
      exact ⟨.withdraw read, rfl, rfl⟩
    · cases done
  | compromise =>
    simp only [kindIs] at done
    split at done
    · rename_i read
      cases done
      exact ⟨.compromise read, rfl, rfl⟩
    · cases done

section
variable {primitives : Primitives} {ctx : VerifyCtx} {proof : Proof}

theorem mem_effects {verified : VerifiedSet} {effect : StatusEffect} :
    effect ∈ effects primitives ctx verified ↔ .ok effect ∈ statusResults primitives ctx verified := by
  simp only [effects, List.mem_filterMap]
  constructor
  · rintro ⟨result, member, found⟩
    cases result with
    | error check => cases found
    | ok other =>
      cases found
      exact member
  · intro member
    exact ⟨_, member, rfl⟩

/-- The effects of a run are what its status objects assert. -/
theorem exists_effect_iff {kind : ClaimKind} {target issuer : String} {issuedAt : UInt64}
    {atTime : Option UInt64} :
    (∃ effect ∈ effects primitives ctx (verifiedSet primitives ctx proof), effect.kind = kind ∧
        effect.target = target ∧ effect.issuer = issuer ∧ effect.issuedAt = issuedAt ∧
        effect.atTime = atTime) ↔
      ∃ status, StatusObject primitives ctx proof status ∧ Asserts status kind target atTime ∧
        status.issuer = issuer ∧ status.issuedAt = issuedAt := by
  constructor
  · rintro ⟨effect, member, rfl, rfl, rfl, rfl, rfl⟩
    rw [mem_effects, statusResults, List.mem_append, List.mem_map, List.mem_map] at member
    -- embedded objects were verified with the attestations, supplied ones are verified here
    rcases member with ⟨⟨id, status⟩, inVerified, done⟩ | ⟨⟨supplied, i⟩, inSupplied, done⟩
    · obtain ⟨asserts, issuerIs, issuedAtIs⟩ := asserts_of_statusEffect done
      exact ⟨status, .inl ⟨id, List.mem_of_mem_filter inVerified⟩, asserts, issuerIs.symm, issuedAtIs.symm⟩
    · simp only [suppliedEffect] at done
      split at done
      · rename_i status verified
        obtain ⟨asserts, issuerIs, issuedAtIs⟩ := asserts_of_statusEffect done
        exact ⟨status, .inr ⟨supplied, List.fst_mem_of_mem_zipIdx inSupplied, verified⟩, asserts,
          issuerIs.symm, issuedAtIs.symm⟩
      · cases done
  · rintro ⟨status, authentic, asserts, rfl, rfl⟩
    rcases authentic with ⟨id, inVerified⟩ | ⟨supplied, inSupplied, verified⟩
    · have embedded : (id, status) ∈ embeddedStatus (verifiedSet primitives ctx proof) :=
        List.mem_filter.mpr ⟨inVerified, by simp [asserts.isStatus]⟩
      exact ⟨_, mem_effects.mpr (List.mem_append_left _ (List.mem_map.mpr
        ⟨_, embedded, statusEffect_of_asserts asserts _⟩)), rfl, rfl, rfl, rfl, rfl⟩
    · obtain ⟨i, found⟩ := List.getElem?_of_mem inSupplied
      have done : suppliedEffect primitives ctx ("status:" ++ toString (i + 1)) supplied =
          statusEffect ("status:" ++ toString (i + 1)) status := by
        simp only [suppliedEffect, verified]
      exact ⟨_, mem_effects.mpr (List.mem_append_right _ (List.mem_map.mpr
        ⟨_, List.mk_mem_zipIdx_iff_getElem?.mpr found, done.trans (statusEffect_of_asserts asserts _)⟩)),
        rfl, rfl, rfl, rfl, rfl⟩

theorem isAuthority_iff {issuer : String} :
    isAuthority ctx issuer = true ↔ issuer ∈ ctx.revocationAuthorities := by
  rw [isAuthority, List.contains_iff_mem]

theorem issuerByAttId_eq_some {verified : VerifiedSet} (functional : Functional verified) {id issuer : String} :
    issuerByAttId verified id = some issuer ↔ ∃ content, (id, content) ∈ verified ∧ content.issuer = issuer := by
  simp only [issuerByAttId, Option.map_eq_some_iff, lastValue_eq_some functional]

theorem mayEnd_iff {verified : VerifiedSet} (functional : Functional verified) {issuer target : String} :
    mayEnd ctx verified issuer target = true ↔ issuer ∈ ctx.revocationAuthorities ∨
      ∃ content, (target, content) ∈ verified ∧ claimKind content = .statement ∧ content.issuer = issuer := by
  -- the map of statements keeps the last one of an id; an id names one content
  have lookup : ∀ content, statementById verified target = some content ↔
      (target, content) ∈ verified ∧ claimKind content = .statement := fun content => by
    rw [statementById, statements, lastValue_eq_some (functional.filter _), List.mem_filter, isStatement,
      decide_eq_true_eq]
  simp only [mayEnd, ← isAuthority_iff, ← and_assoc, ← lookup]
  cases statementById verified target with
  | none => simp
  | some content => simp [or_comm]

theorem mayWithdraw_iff {verified : VerifiedSet} (functional : Functional verified) {issuer target : String} :
    mayWithdraw primitives ctx proof verified issuer target = true ↔
      issuer ∈ ctx.revocationAuthorities ∨
      (∃ content, (target, content) ∈ verified ∧ content.issuer = issuer) ∨
      (∀ content, (target, content) ∉ verified) ∧
        ∃ evidence ∈ proof.evidence, evidenceMemberId primitives evidence = target ∧
          ∃ backing content, evidence.attestationRef = some backing ∧ (backing, content) ∈ verified ∧
            content.issuer = issuer := by
  have bound : ∀ evidence : Evidence, evidence.attestationRef.bind (issuerByAttId verified) = some issuer ↔
      ∃ backing content, evidence.attestationRef = some backing ∧ (backing, content) ∈ verified ∧
        content.issuer = issuer := fun evidence => by
    simp only [Option.bind_eq_some_iff, issuerByAttId_eq_some functional, exists_and_left]
  -- backing is looked at only when the target is no verified attestation
  have absent : issuerByAttId verified target = none ↔ ∀ content, (target, content) ∉ verified := by
    rw [issuerByAttId, Option.map_eq_none_iff, lastValue_eq_none]
  simp only [← bound, ← absent, ← issuerByAttId_eq_some functional, ← isAuthority_iff]
  simp only [mayWithdraw, proofEvidence, ← List.map_prod_left_eq_zip]
  split
  · rename_i authority
    simp only [authority, true_or]
  · rename_i other
    cases issuerByAttId verified target with
    | none => simp [other]
    | some own => simp [other]

theorem empowered_iff (functional : Functional (verifiedSet primitives ctx proof)) {effect : StatusEffect}
    (status : effect.kind ≠ .statement) :
    empowered primitives ctx proof (verifiedSet primitives ctx proof) effect = true ↔
      effect.issuer ∈ ctx.revocationAuthorities ∨
        OwnPower primitives ctx proof effect.issuer effect.target effect.kind := by
  cases kind : effect.kind with
  | statement => exact absurd kind status
  | compromise => simp only [empowered, kind, OwnPower, Bool.or_eq_true, decide_eq_true_eq,
      isAuthority_iff, or_comm]
  | withdraw =>
    simp only [empowered, kind, OwnPower]
    exact mayWithdraw_iff functional
  | revoke =>
    simp only [empowered, kind, OwnPower]
    exact mayEnd_iff functional
  | supersede =>
    simp only [empowered, kind, OwnPower]
    exact mayEnd_iff functional

theorem effect_isStatus {effect : StatusEffect}
    (member : effect ∈ effects primitives ctx (verifiedSet primitives ctx proof)) :
    effect.kind ≠ .statement := by
  obtain ⟨status, _, asserts, _⟩ := exists_effect_iff.mp ⟨effect, member, rfl, rfl, rfl, rfl, rfl⟩
  intro kind
  rw [kind] at asserts
  cases asserts

/-- The effects the code lets through are the status objects that count. -/
theorem exists_counting_iff (functional : Functional (verifiedSet primitives ctx proof)) {kind : ClaimKind}
    {target : String} {atTime : Option UInt64} :
    (∃ effect ∈ counting primitives ctx proof (verifiedSet primitives ctx proof), effect.kind = kind ∧
        effect.target = target ∧ effect.atTime = atTime) ↔
      ∃ status, Counts primitives ctx proof status kind target atTime := by
  simp only [counting, List.mem_filter, Bool.and_eq_true]
  constructor
  · rintro ⟨effect, ⟨member, power, inTime⟩, rfl, rfl, rfl⟩
    rw [empowered_iff functional (effect_isStatus member)] at power
    simp only [timely, ne_eq, Bool.and_eq_true, decide_eq_true_eq] at inTime
    obtain ⟨status, authentic, asserts, issuerIs, issuedAtIs⟩ :=
      exists_effect_iff.mp ⟨effect, member, rfl, rfl, rfl, rfl, rfl⟩
    exact ⟨status, authentic, asserts, issuerIs ▸ power, inTime.1, issuedAtIs ▸ inTime.2⟩
  · rintro ⟨status, authentic, asserts, power, clock, known⟩
    obtain ⟨effect, member, rfl, rfl, issuerIs, issuedAtIs, rfl⟩ :=
      exists_effect_iff.mpr ⟨status, authentic, asserts, rfl, rfl⟩
    refine ⟨effect, ⟨member, (empowered_iff functional (effect_isStatus member)).mpr (issuerIs ▸ power), ?_⟩,
      rfl, rfl, rfl⟩
    simp only [timely, ne_eq, Bool.and_eq_true, decide_eq_true_eq]
    exact ⟨clock, issuedAtIs ▸ known⟩

theorem compromised_iff (functional : Functional (verifiedSet primitives ctx proof)) {id : String}
    {content : AttestationContent} :
    ((compromises primitives ctx proof (verifiedSet primitives ctx proof)).any fun (target, atTime) =>
        (target = content.issuer || target = id) && atTime ≤ content.issuedAt) = true ↔
      StatusApplies primitives ctx proof id content .compromised := by
  simp only [compromises, List.any_eq_true, List.mem_filterMap, Prod.exists, Bool.and_eq_true,
    Bool.or_eq_true, decide_eq_true_eq, StatusApplies]
  constructor
  · rintro ⟨target, atTime, ⟨effect, member, found⟩, aimed⟩
    split at found
    · rename_i kind
      obtain ⟨instant, instantIs, same⟩ := Option.map_eq_some_iff.mp found
      cases same
      obtain ⟨status, counts⟩ := (exists_counting_iff functional).mp ⟨effect, member, kind, rfl, instantIs⟩
      exact ⟨status, _, _, counts, aimed⟩
    · cases found
  · rintro ⟨status, target, atTime, counts, aimed⟩
    obtain ⟨effect, member, kind, rfl, instantIs⟩ := (exists_counting_iff functional).mpr ⟨status, counts⟩
    exact ⟨effect.target, atTime, ⟨effect, member, by simp [kind, instantIs]⟩, aimed⟩

/-- Only a compromise has an instant. -/
theorem Asserts.atTime_eq_none {status : AttestationContent} {kind : ClaimKind} {target : String}
    {atTime : Option UInt64} (asserts : Asserts status kind target atTime) (other : kind ≠ .compromise) :
    atTime = none := by
  cases asserts with
  | compromise => exact absurd rfl other
  | _ => rfl

theorem applies_iff (functional : Functional (verifiedSet primitives ctx proof)) {id : String}
    {kind : ClaimKind} (other : kind ≠ .compromise) :
    ((applies primitives ctx proof (verifiedSet primitives ctx proof)).any fun (target, applied) =>
        target = id && applied = kind) = true ↔
      ∃ status, Counts primitives ctx proof status kind id none := by
  simp only [applies, List.any_map, List.any_eq_true, Function.comp_apply, Bool.and_eq_true,
    decide_eq_true_eq]
  constructor
  · rintro ⟨effect, member, rfl, rfl⟩
    obtain ⟨status, counts⟩ := (exists_counting_iff functional).mp ⟨effect, member, rfl, rfl, rfl⟩
    -- only a compromise carries an instant
    rw [counts.wellFormed.atTime_eq_none other] at counts
    exact ⟨status, counts⟩
  · rintro ⟨status, counts⟩
    obtain ⟨effect, member, kindIs, targetIs, _⟩ := (exists_counting_iff functional).mpr ⟨status, counts⟩
    exact ⟨effect, member, targetIs, kindIs⟩

/-! ## Clocks -/

theorem saturatingAdd_lt {left right bound : UInt64} :
    saturatingAdd left right < bound ↔ left.toNat + right.toNat < bound.toNat := by
  rw [UInt64.lt_iff_toNat_lt, toNat_saturatingAdd]
  have := bound.toNat_lt
  omega

theorem isTimely_iff {id : String} {content : AttestationContent} :
    isTimely ctx content = false ↔ StatusApplies primitives ctx proof id content .expired := by
  simp only [StatusApplies, ← saturatingAdd_lt, isTimely, timeValidity]
  -- without a clock nothing is in time
  by_cases clock : ctx.verifiedAt = 0
  · simp [clock, Except.isOk, Except.toBool]
  · by_cases early : saturatingAdd ctx.verifiedAt ctx.clockSkewLeeway < content.issuedAt
    · simp [clock, early, Except.isOk, Except.toBool]
    · cases expires : content.expiresAt with
      | none => simp [clock, early, Except.isOk, Except.toBool]
      | some expiry =>
        by_cases late : saturatingAdd expiry ctx.clockSkewLeeway < ctx.verifiedAt
        · simp [clock, early, late, Except.isOk, Except.toBool]
        · simp [clock, early, late, Except.isOk, Except.toBool]

/-- The set of late ids says of a statement whether it is late itself. -/
theorem timeFailed_iff {verified : VerifiedSet} (functional : Functional verified) {id : String}
    {content : AttestationContent} (member : (id, content) ∈ statements verified) :
    (timeFailed ctx verified).contains id = true ↔ isTimely ctx content = false := by
  simp only [timeFailed, List.contains_iff_mem, List.mem_map, List.mem_filter, Prod.exists,
    exists_and_right, exists_eq_right, Bool.not_eq_true']
  constructor
  · rintro ⟨other, otherMember, late⟩
    rw [functional.filter _ id content other member otherMember]
    exact late
  · intro late
    exact ⟨content, member, late⟩

theorem revocationStale_iff {id : String} {content : AttestationContent} :
    revocationStale ctx (verifiedSet primitives ctx proof) = true ↔
      StatusApplies primitives ctx proof id content .unknown := by
  -- embedded and supplied objects are counted together
  have nothing : totalStatusInputs ctx (verifiedSet primitives ctx proof) = 0 ↔ ctx.statusObjects = [] ∧
      ∀ entry ∈ verifiedSet primitives ctx proof, claimKind entry.2 = .statement := by
    rw [totalStatusInputs, Nat.add_eq_zero_iff, List.length_eq_zero_iff, List.length_eq_zero_iff, and_comm,
      embeddedStatus, List.filter_eq_nil_iff]
    simp [isStatement]
  have old : ∀ known : UInt64, ctx.clockSkewLeeway < saturatingSub ctx.verifiedAt known ↔
      ctx.clockSkewLeeway.toNat < ctx.verifiedAt.toNat - known.toNat := fun known => by
    rw [UInt64.lt_iff_toNat_lt, toNat_saturatingSub]
  simp only [revocationStale, StatusApplies, Bool.or_eq_true, Bool.and_eq_true, decide_eq_true_eq, nothing,
    old]
  cases ctx.revocationsKnownAt with
  | none => simp
  | some known => simp

/-! ## The characterisation -/

/-- The conditions of the code, one for each status. -/
def decided (primitives : Primitives) (ctx : VerifyCtx) (proof : Proof) (id : String)
    (content : AttestationContent) : LifecycleStatus → Bool
  | .compromised => (compromises primitives ctx proof (verifiedSet primitives ctx proof)).any
      fun (target, atTime) => (target = content.issuer || target = id) && atTime ≤ content.issuedAt
  | .revoked => (applies primitives ctx proof (verifiedSet primitives ctx proof)).any
      fun (target, kind) => target = id && kind = .revoke
  | .superseded => (applies primitives ctx proof (verifiedSet primitives ctx proof)).any
      fun (target, kind) => target = id && kind = .supersede
  | .expired => (timeFailed ctx (verifiedSet primitives ctx proof)).contains id
  | .unknown => revocationStale ctx (verifiedSet primitives ctx proof)
  | .active => true

theorem decided_iff (functional : Functional (verifiedSet primitives ctx proof)) {id : String}
    {content : AttestationContent}
    (member : (id, content) ∈ statements (verifiedSet primitives ctx proof)) (status : LifecycleStatus) :
    decided primitives ctx proof id content status = true ↔
      StatusApplies primitives ctx proof id content status := by
  cases status with
  | compromised => exact compromised_iff functional
  | revoked => exact applies_iff functional (by decide)
  | superseded => exact applies_iff functional (by decide)
  | expired => exact (timeFailed_iff functional member).trans isTimely_iff
  | unknown => exact revocationStale_iff
  | active => exact ⟨fun _ => trivial, fun _ => rfl⟩

/-- The chain of conditions is a search in the order of precedence. -/
theorem find_lifecycleStatus (primitives : Primitives) (ctx : VerifyCtx) (proof : Proof) (id : String)
    (content : AttestationContent) :
    precedence.find? (decided primitives ctx proof id content) =
      some (lifecycleStatus primitives ctx proof (verifiedSet primitives ctx proof) (id, content)) := by
  simp only [precedence, List.find?_cons, decided, lifecycleStatus]
  -- one branch for each prefix of conditions that fail
  repeat' split
  all_goals simp_all

theorem lifecycleStatus_first (functional : Functional (verifiedSet primitives ctx proof)) {id : String}
    {content : AttestationContent}
    (member : (id, content) ∈ statements (verifiedSet primitives ctx proof)) :
    FirstApplying (StatusApplies primitives ctx proof id content)
      (lifecycleStatus primitives ctx proof (verifiedSet primitives ctx proof) (id, content)) := by
  obtain ⟨holds, earlier, later, order, first⟩ :=
    List.find?_eq_some_iff_append.mp (find_lifecycleStatus primitives ctx proof id content)
  refine ⟨earlier, later, order, (decided_iff functional member _).mp holds, fun other otherMember => ?_⟩
  rw [← decided_iff functional member]
  simpa using first other otherMember

/-- One record for each verified statement, in order, with the first status that applies. -/
theorem lifecycle_first (functional : Functional (verifiedSet primitives ctx proof)) :
    List.Forall₂ (fun entry record => record.object = "att:" ++ entry.1 ∧
        FirstApplying (StatusApplies primitives ctx proof entry.1 entry.2) record.status)
      (statements (verifiedSet primitives ctx proof))
      (lifecycle primitives ctx proof (verifiedSet primitives ctx proof)) := by
  rw [lifecycle, List.forall₂_map_right_iff, List.forall₂_same]
  exact fun entry member => ⟨rfl, lifecycleStatus_first functional member⟩

end

end ProofEngine
