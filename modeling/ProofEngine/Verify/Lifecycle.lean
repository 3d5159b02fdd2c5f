import ProofEngine.Verify.Signatures

/-! # TIME and REVOCATION

Status effects come from embedded status attestations of the verified set and from supplied status
objects.  The ones that count decide, by precedence, the lifecycle status of every verified
statement. -/

namespace ProofEngine

open Text LastMap

def isStatement (content : AttestationContent) : Bool := claimKind content = .statement

/-- The verified attestations that are statements. -/
def statements (verified : VerifiedSet) : VerifiedSet := verified.filter fun entry => isStatement entry.2

/-- The verified attestations that are status claims. -/
def embeddedStatus (verified : VerifiedSet) : VerifiedSet := verified.filter fun entry => !isStatement entry.2

/-! ## TIME -/

section
variable (ctx : VerifyCtx)

/-- Timeliness against the verifier's clock, with leeway on both bounds. -/
def timeValidity (content : AttestationContent) : Except String Unit :=
  let now := ctx.verifiedAt
  let skew := ctx.clockSkewLeeway
  if now = 0 then .error "no trustworthy clock: verified_at=0 (timeliness cannot be established)"
  else if saturatingAdd now skew < content.issuedAt then
    .error ("attestation issued_at " ++ toString content.issuedAt ++ " > verifier clock " ++ toString now ++
      " + skew " ++ toString skew ++ " (not yet valid)")
  else
    match content.expiresAt with
    | none => .ok ()
    | some exp =>
      if saturatingAdd exp skew < now then
        .error ("attestation expired at " ++ toString exp ++ " before verifier clock " ++ toString now ++
          " (skew " ++ toString skew ++ ")")
      else .ok ()

def timeCheck (entry : String × AttestationContent) : CheckRecord :=
  let object := "att:" ++ entry.1
  match timeValidity ctx entry.2 with
  | .ok () =>
    .pass .time object
      ("issued " ++ toString entry.2.issuedAt ++ " .. " ++ (entry.2.expiresAt.map toString).getD "∞" ++
        " within verifier clock " ++ toString ctx.verifiedAt ++ " ± " ++ toString ctx.clockSkewLeeway ++ "s")
  | .error message => .fail .time object .expired (message ++ " (code EXPIRED, fail closed)")

def timeChecks (verified : VerifiedSet) : List CheckRecord := (statements verified).map (timeCheck ctx)

def isTimely (content : AttestationContent) : Bool := (timeValidity ctx content).isOk

/-- Ids of the statements that failed TIME. -/
def timeFailed (verified : VerifiedSet) : List String :=
  ((statements verified).filter fun entry => !isTimely ctx entry.2).map Prod.fst

end

/-! ## Status effects -/

structure StatusEffect where
  target : String
  kind : ClaimKind
  issuer : String
  issuedAt : UInt64
  object : String
  /-- The instant of a compromise. -/
  atTime : Option UInt64
  deriving DecidableEq, Repr

/-- The effect of a status claim, or the failed check of a malformed one. -/
def statusEffect (object : String) (content : AttestationContent) : Except CheckRecord StatusEffect :=
  let effect (kind : ClaimKind) (target : String) (atTime : Option UInt64) : StatusEffect :=
    { target, kind, issuer := content.issuer, issuedAt := content.issuedAt, object, atTime }
  let malformed (kind : String) (error : ProofError) : CheckRecord :=
    .fail .status object error.code ("malformed " ++ kind ++ " claim: " ++ error.message)
  match claimKind content with
  | .statement =>
    .error (.fail .status object .schemaViolation
      "supplied object is not a status claim (revoke/supersede/withdraw/compromise)")
  | .revoke =>
    match revocationTarget content with
    | .ok target => .ok (effect .revoke target none)
    | .error error => .error (malformed "revoke" error)
  | .supersede =>
    match supersessionPair content with
    | .ok (old, _) => .ok (effect .supersede old none)
    | .error error => .error (malformed "supersede" error)
  | .withdraw =>
    match withdrawalTarget content with
    | .ok target => .ok (effect .withdraw target none)
    | .error error => .error (malformed "withdraw" error)
  | .compromise =>
    match compromiseMark content with
    | .ok (target, atTime) => .ok (effect .compromise target (some atTime))
    | .error error => .error (malformed "compromise" error)

section
variable (primitives : Primitives) (ctx : VerifyCtx)

def suppliedEffect (label : String) (status : SignedStatus) : Except CheckRecord StatusEffect :=
  match verifyStatusObject primitives status.sign1 status.content.issuer ctx.allowedAlgs ctx.limits with
  | .ok content => statusEffect label content
  | .error error => .error (.fail .status label error.code ("status object rejected: " ++ error.message))

/-- The two loops over status objects: embedded ones, then supplied ones counted from 1. -/
def statusResults (verified : VerifiedSet) : List (Except CheckRecord StatusEffect) :=
  (embeddedStatus verified).map (fun entry => statusEffect ("att:" ++ entry.1) entry.2) ++
    ctx.statusObjects.zipIdx.map fun (status, i) =>
      suppliedEffect primitives ctx ("status:" ++ toString (i + 1)) status

def effects (verified : VerifiedSet) : List StatusEffect :=
  (statusResults primitives ctx verified).filterMap fun result =>
    match result with
    | .ok effect => some effect
    | .error _ => none

def malformedChecks (verified : VerifiedSet) : List CheckRecord :=
  (statusResults primitives ctx verified).filterMap fun result =>
    match result with
    | .ok _ => none
    | .error check => some check

/-! ## Authority -/

def statementById (verified : VerifiedSet) (id : String) : Option AttestationContent :=
  lastValue (statements verified) id

def issuerByAttId (verified : VerifiedSet) (id : String) : Option String :=
  (lastValue verified id).map (·.issuer)

def isAuthority (issuer : String) : Bool := ctx.revocationAuthorities.contains issuer

/-- Evidence members with their ids. -/
def proofEvidence (proof : Proof) : List (Evidence × String) :=
  proof.evidence.zip (proof.evidence.map (evidenceMemberId primitives))

/-- Revoking or superseding: the issuer of the target statement, or an authority. -/
def mayEnd (verified : VerifiedSet) (issuer target : String) : Bool :=
  match statementById verified target with
  | some content => content.issuer = issuer || isAuthority ctx issuer
  | none => isAuthority ctx issuer

/-- Withdrawing: an authority, the issuer of the target attestation, or the issuer of the attestation
    that target evidence is bound to. -/
def mayWithdraw (proof : Proof) (verified : VerifiedSet) (issuer target : String) : Bool :=
  if isAuthority ctx issuer then true
  else
    match issuerByAttId verified target with
    | some own => own = issuer
    | none =>
      (proofEvidence primitives proof).any fun (evidence, id) =>
        id = target && evidence.attestationRef.bind (issuerByAttId verified) = some issuer

/-- Whether the issuer of an effect has power over its target. -/
def empowered (proof : Proof) (verified : VerifiedSet) (effect : StatusEffect) : Bool :=
  match effect.kind with
  | .compromise => effect.issuer = effect.target || isAuthority ctx effect.issuer
  | .withdraw => mayWithdraw primitives ctx proof verified effect.issuer effect.target
  | _ => mayEnd ctx verified effect.issuer effect.target

/-- A status issued after the verifier's clock cannot apply; there is no leeway here. -/
def timely (effect : StatusEffect) : Bool := ctx.verifiedAt ≠ 0 && effect.issuedAt ≤ ctx.verifiedAt

def effectChecks (proof : Proof) (verified : VerifiedSet) (effect : StatusEffect) : List CheckRecord :=
  (if empowered primitives ctx proof verified effect then []
    else [.fail .status effect.object .unauthorizedStatus
      (effect.issuer ++ " has no authority for this status kind over " ++ effect.target ++
        " (needs original issuer, bound-attestation issuer, self-report, or revocation_authorities as applicable)")]) ++
  if timely ctx effect then []
  else [.fail .status effect.object .expired
    ("status object issued at " ++ toString effect.issuedAt ++ " is after verifier clock " ++
      toString ctx.verifiedAt ++
      " (future status cannot apply to historical verification; skew covers drift, not time-travel)")]

/-- The effects that apply. -/
def counting (proof : Proof) (verified : VerifiedSet) : List StatusEffect :=
  (effects primitives ctx verified).filter fun effect =>
    empowered primitives ctx proof verified effect && timely ctx effect

/-- Targets and kinds of the effects that apply. -/
def applies (proof : Proof) (verified : VerifiedSet) : List (String × ClaimKind) :=
  (counting primitives ctx proof verified).map fun effect => (effect.target, effect.kind)

/-- Marked targets with their instants. -/
def compromises (proof : Proof) (verified : VerifiedSet) : List (String × UInt64) :=
  (counting primitives ctx proof verified).filterMap fun effect =>
    if effect.kind = .compromise then effect.atTime.map fun atTime => (effect.target, atTime) else none

/-- Withdrawn targets, each once, in the order of their first withdrawal. -/
def withdrawnTargets (proof : Proof) (verified : VerifiedSet) : List String :=
  (counting primitives ctx proof verified).foldl
    (fun found effect =>
      if effect.kind = .withdraw && !found.contains effect.target then found ++ [effect.target] else found) []

/-! ## Lifecycle -/

def totalStatusInputs (verified : VerifiedSet) : Nat :=
  (embeddedStatus verified).length + ctx.statusObjects.length

/-- Revocation information is missing, too old, or comes from an empty feed. -/
def revocationStale (verified : VerifiedSet) : Bool :=
  ctx.revocationsKnownAt.isNone ||
    decide (ctx.clockSkewLeeway < saturatingSub ctx.verifiedAt (ctx.revocationsKnownAt.getD 0)) ||
    (ctx.requireStatusFeed && totalStatusInputs ctx verified = 0)

def lifecycleStatus (proof : Proof) (verified : VerifiedSet) (entry : String × AttestationContent) :
    LifecycleStatus :=
  let (id, content) := entry
  let applied := applies primitives ctx proof verified
  if (compromises primitives ctx proof verified).any fun (target, atTime) =>
      (target = content.issuer || target = id) && atTime ≤ content.issuedAt then .compromised
  else if applied.any fun (target, kind) => target = id && kind = .revoke then .revoked
  else if applied.any fun (target, kind) => target = id && kind = .supersede then .superseded
  else if (timeFailed ctx verified).contains id then .expired
  else if revocationStale ctx verified then .unknown
  else .active

/-- Code, whether the check passes, and message of a status. -/
def lifecycleOutcome : LifecycleStatus → Option ErrorCode × Bool × String
  | .active => (none, true, "lifecycle ACTIVE at " ++ toString ctx.verifiedAt)
  | .revoked =>
    (some .revoked, false, "lifecycle REVOKED by a valid signed revocation (claim.type=revoke)")
  | .superseded =>
    (none, true, "lifecycle SUPERSEDED — historical record preserved; a signed supersession points to a newer attestation")
  | .compromised =>
    (some .compromised, false, "lifecycle COMPROMISED by a valid signed compromise marking (tainted at/after its instant; history not preserved)")
  | .expired => (some .expired, true, "lifecycle EXPIRED (timeliness failed at TIME stage)")
  | .unknown =>
    (some .revocationUnknown, false, "lifecycle UNKNOWN — no or stale revocation information; fail closed")

def lifecycleRecord (proof : Proof) (verified : VerifiedSet) (entry : String × AttestationContent) :
    LifecycleRecord :=
  let status := lifecycleStatus primitives ctx proof verified entry
  let (code, _, message) := lifecycleOutcome ctx status
  { object := "att:" ++ entry.1, status, code, message }

/-- One record for each verified statement, in order. -/
def lifecycle (proof : Proof) (verified : VerifiedSet) : List LifecycleRecord :=
  (statements verified).map (lifecycleRecord primitives ctx proof verified)

/-- The check an outcome leaves. -/
def outcomeCheck (stage : Stage) (object : String) (code : Option ErrorCode) (ok : Bool) (message : String) :
    CheckRecord :=
  if ok then .pass stage object message
  else .fail stage object (code.getD .revocationUnknown) message

def lifecycleCheck (proof : Proof) (verified : VerifiedSet) (entry : String × AttestationContent) :
    CheckRecord :=
  let (code, ok, message) := lifecycleOutcome ctx (lifecycleStatus primitives ctx proof verified entry)
  outcomeCheck .revocation ("att:" ++ entry.1) code ok message

def revocationNotes (proof : Proof) (verified : VerifiedSet) : List CheckRecord :=
  let object := "proof:" ++ proof.proofId
  let none := totalStatusInputs ctx verified = 0
  [.note .revocation object
    ("lifecycle checked for " ++ toString (statements verified).length ++ " attestation(s); " ++
      toString (embeddedStatus verified).length ++ " + " ++ toString ctx.statusObjects.length ++
      " status object(s); revocation info " ++
      (ctx.revocationsKnownAt.map fun known => "known as of " ++ toString known).getD "UNKNOWN (fail closed)")] ++
  (if none ∧ ctx.revocationsKnownAt.isSome ∧ !revocationStale ctx verified then
    [.note .revocation object
      ("empty status feed explicitly allowed: 0 status objects with revocations known as of " ++
        toString (ctx.revocationsKnownAt.getD 0) ++
        "; lifecycle ACTIVE asserts caller-checked absence, not feed-proved absence")]
    else []) ++
  if ctx.requireStatusFeed ∧ none then
    [.note .revocation object
      "require_status_feed: empty feed fails closed (UNKNOWN) even though freshness was asserted"]
  else []

def revocationChecks (proof : Proof) (verified : VerifiedSet) : List CheckRecord :=
  malformedChecks primitives ctx verified ++
    (effects primitives ctx verified).flatMap (effectChecks primitives ctx proof verified) ++
    (statements verified).map (lifecycleCheck primitives ctx proof verified) ++
    revocationNotes ctx proof verified

end

end ProofEngine
