import ProofEngine.Crypto.Create
import ProofEngine.Crypto.Envelope

/-! # Built status objects

Four builders sign the status claims that the extractors read back.  A builder looks at its target only for being
empty, an extractor also for its shape, so a status object with a target of another shape is signed and never takes
effect. -/

namespace ProofEngine

open Text

/-! ## Builders -/

section
variable (primitives : Primitives)

/-- A status claim about a subject, with no validity window and no evidence. -/
def attestStatus (claimType subject : String) (fields : List (String × MetaValue)) (key : Ed25519Key)
    (issuedAt : UInt64) (limits : Limits) : Result CreatedAttestation :=
  attest primitives
    { v := 1
      issuer := key.keyRef
      subject
      claim := { claimType, fields }
      issuedAt
      expiresAt := none
      evidenceRef := none }
    key limits

/-- The field of an optional reason. -/
def reasonFields (claimType : String) : Option String → Result (List (String × MetaValue))
  | none => .ok []
  | some reason =>
    if reason.isEmpty then schemaError (claimType ++ " reason must not be empty") else .ok [("reason", .text reason)]

/-- A status claim about one target; the reason comes before the other fields. -/
def targetAttestation (claimType target : String) (fields : List (String × MetaValue)) (reason : Option String)
    (key : Ed25519Key) (issuedAt : UInt64) (limits : Limits) : Result CreatedAttestation :=
  if target.isEmpty then schemaError (claimType ++ " target must not be empty")
  else do
    let stated ← reasonFields claimType reason
    attestStatus primitives claimType target (stated ++ fields) key issuedAt limits

def revokeAttestation (target : String) (reason : Option String) (key : Ed25519Key) (issuedAt : UInt64)
    (limits : Limits) : Result CreatedAttestation :=
  targetAttestation primitives ClaimType.revoke target [("target", .text target)] reason key issuedAt limits

def supersedeAttestation (old new : String) (key : Ed25519Key) (issuedAt : UInt64) (limits : Limits) :
    Result CreatedAttestation :=
  if old.isEmpty || new.isEmpty then schemaError "supersede old/new must not be empty"
  else if old = new then schemaError "supersede old == new"
  else
    attestStatus primitives ClaimType.supersede old [("new", .text new), ("old", .text old)] key issuedAt limits

def withdrawAttestation (target : String) (reason : Option String) (key : Ed25519Key) (issuedAt : UInt64)
    (limits : Limits) : Result CreatedAttestation :=
  targetAttestation primitives ClaimType.withdraw target [("target", .text target)] reason key issuedAt limits

def compromiseAttestation (target : String) (atTime : UInt64) (reason : Option String) (key : Ed25519Key)
    (issuedAt : UInt64) (limits : Limits) : Result CreatedAttestation :=
  -- a longer key stands later
  targetAttestation primitives ClaimType.compromise target [("target", .text target), ("at_time", .uint atTime)]
    reason key issuedAt limits

end

/-! ## Requests -/

/-- What a status builder is asked to sign. -/
inductive StatusRequest where
  | revoke (target : String) (reason : Option String)
  | supersede (old new : String)
  | withdraw (target : String) (reason : Option String)
  | compromise (target : String) (atTime : UInt64) (reason : Option String)
  deriving DecidableEq, Repr

namespace StatusRequest

def build (primitives : Primitives) (key : Ed25519Key) (issuedAt : UInt64) (limits : Limits) :
    StatusRequest → Result CreatedAttestation
  | .revoke target reason => revokeAttestation primitives target reason key issuedAt limits
  | .supersede old new => supersedeAttestation primitives old new key issuedAt limits
  | .withdraw target reason => withdrawAttestation primitives target reason key issuedAt limits
  | .compromise target atTime reason => compromiseAttestation primitives target atTime reason key issuedAt limits

/-- The extractor of its kind finds in the content exactly what was asked for. -/
def ReadFrom (content : AttestationContent) : StatusRequest → Prop
  | .revoke target _ => revocationTarget content = .ok target
  | .supersede old new => supersessionPair content = .ok (old, new)
  | .withdraw target _ => withdrawalTarget content = .ok target
  | .compromise target atTime _ => compromiseMark content = .ok (target, atTime)

/-- The targets have the shape that the kind asks for. -/
def Shaped : StatusRequest → Prop
  | .revoke target _ => startsWith target "att:v1:" = true
  | .supersede old new => startsWith old "att:v1:" = true ∧ startsWith new "att:v1:" = true
  | .withdraw target _ => ["evt:v", "att:v", "evd:v", "rel:v", "prf:v"].any (startsWith target) = true
  | .compromise target _ _ => ["key:", "att:v", "evt:v", "evd:v", "rel:v", "did:"].any (startsWith target) = true

end StatusRequest

/-! ## What is built and what is read -/

section
variable {primitives : Primitives} {key : Ed25519Key} {issuedAt : UInt64} {limits : Limits}
  {created : CreatedAttestation}

theorem attest_content {content : AttestationContent} (done : attest primitives content key limits = .ok created) :
    created.content = content := by
  rw [attest] at done
  split at done
  · cases done
  · split at done
    · cases done
    · obtain ⟨canonical, _, done⟩ := bind_eq_ok.mp done
      cases done
      rfl

/-- A built claim about a target: the target is there, and only a reason stands before its other fields. -/
theorem targetAttestation_eq_ok {claimType target : String} {fields : List (String × MetaValue)}
    {reason : Option String}
    (done : targetAttestation primitives claimType target fields reason key issuedAt limits = .ok created) :
    target.isEmpty = false ∧ created.content.claim.claimType = claimType ∧
      ∃ stated, created.content.claim.fields = stated ++ fields ∧ ∀ field ∈ stated, field.1 = "reason" := by
  rw [targetAttestation] at done
  split at done
  · cases done
  · rename_i filled
    obtain ⟨stated, reasoned, done⟩ := bind_eq_ok.mp done
    rw [attest_content done]
    refine ⟨Bool.eq_false_iff.mpr filled, rfl, stated, rfl, ?_⟩
    cases reason with
    | none =>
      cases reasoned
      intro field member
      cases member
    | some reason =>
      rw [reasonFields] at reasoned
      split at reasoned
      · cases reasoned
      · cases reasoned
        intro field member
        rw [List.mem_singleton.mp member]

/-- Fields under another key are passed over. -/
theorem findSome_after {α β : Type} {stated fields : List α} {read : α → Option β}
    (unread : ∀ field ∈ stated, read field = none) : (stated ++ fields).findSome? read = fields.findSome? read := by
  rw [List.findSome?_append, List.findSome?_eq_none_iff.mpr unread, Option.none_or]

theorem claimText_after {claim : Claim} {stated fields : List (String × MetaValue)} {name : String}
    (split : claim.fields = stated ++ fields) (reasons : ∀ field ∈ stated, field.1 = "reason")
    (other : "reason" ≠ name) : claimText claim name = claimText { claim with fields } name := by
  rw [claimText, split]
  refine findSome_after fun field member => ?_
  rw [reasons field member, if_neg other]

theorem claimUint_after {claim : Claim} {stated fields : List (String × MetaValue)} {name : String}
    (split : claim.fields = stated ++ fields) (reasons : ∀ field ∈ stated, field.1 = "reason")
    (other : "reason" ≠ name) : claimUint claim name = claimUint { claim with fields } name := by
  rw [claimUint, split]
  refine findSome_after fun field member => ?_
  rw [reasons field member, if_neg other]

theorem mem_of_startsWith {text lead : String} {char : Char} (starts : startsWith text lead = true)
    (member : char ∈ lead.toList) : char ∈ text.toList := by
  rw [startsWith, List.isPrefixOf_iff_prefix] at starts
  exact starts.subset member

/-- The target of a built claim is found under its name. -/
theorem claimText_target {stated fields : List (String × MetaValue)} {claim : Claim} {target : String}
    (split : claim.fields = stated ++ ("target", .text target) :: fields)
    (reasons : ∀ field ∈ stated, field.1 = "reason") : claimText claim "target" = some target := by
  rw [claimText_after split reasons (by decide)]
  simp [claimText]

theorem revoke_read {target : String} {reason : Option String}
    (done : revokeAttestation primitives target reason key issuedAt limits = .ok created) :
    revocationTarget created.content = .ok target ↔ startsWith target "att:v1:" = true := by
  obtain ⟨filled, claimType, stated, split, reasons⟩ := targetAttestation_eq_ok done
  have kind : claimKind created.content = .revoke := by rw [claimKind, claimType, if_pos rfl]
  simp only [revocationTarget, kind, claimText_target split reasons, filled]
  cases startsWith target "att:v1:" <;> simp [schemaError]

theorem withdraw_read {target : String} {reason : Option String}
    (done : withdrawAttestation primitives target reason key issuedAt limits = .ok created) :
    withdrawalTarget created.content = .ok target ↔
      ["evt:v", "att:v", "evd:v", "rel:v", "prf:v"].any (startsWith target) = true := by
  obtain ⟨filled, claimType, stated, split, reasons⟩ := targetAttestation_eq_ok done
  have kind : claimKind created.content = .withdraw := by
    rw [claimKind, claimType, if_neg (by decide), if_neg (by decide), if_pos rfl]
  -- each of the shapes has a colon
  have colon : ["evt:v", "att:v", "evd:v", "rel:v", "prf:v"].any (startsWith target) = true →
      target.toList.contains ':' = true := by
    intro shaped
    obtain ⟨lead, member, starts⟩ := List.any_eq_true.mp shaped
    have inLead : ∀ lead ∈ ["evt:v", "att:v", "evd:v", "rel:v", "prf:v"], ':' ∈ lead.toList := by decide
    exact List.contains_iff_mem.mpr (mem_of_startsWith starts (inLead lead member))
  simp only [withdrawalTarget, kind, claimText_target split reasons, filled]
  cases shaped : ["evt:v", "att:v", "evd:v", "rel:v", "prf:v"].any (startsWith target) with
  | false => simp [schemaError]
  | true =>
    rw [colon shaped]
    simp

theorem compromise_read {target : String} {atTime : UInt64} {reason : Option String}
    (done : compromiseAttestation primitives target atTime reason key issuedAt limits = .ok created) :
    compromiseMark created.content = .ok (target, atTime) ↔
      ["key:", "att:v", "evt:v", "evd:v", "rel:v", "did:"].any (startsWith target) = true := by
  obtain ⟨filled, claimType, stated, split, reasons⟩ := targetAttestation_eq_ok done
  have kind : claimKind created.content = .compromise := by
    rw [claimKind, claimType, if_neg (by decide), if_neg (by decide), if_neg (by decide), if_pos rfl]
  have instant : claimUint created.content.claim "at_time" = some atTime := by
    rw [claimUint_after split reasons (by decide)]
    simp [claimUint]
  simp only [compromiseMark, kind, claimText_target split reasons, filled, instant]
  cases ["key:", "att:v", "evt:v", "evd:v", "rel:v", "did:"].any (startsWith target) <;> simp [schemaError]

theorem supersede_read {old new : String}
    (done : supersedeAttestation primitives old new key issuedAt limits = .ok created) :
    supersessionPair created.content = .ok (old, new) ↔
      startsWith old "att:v1:" = true ∧ startsWith new "att:v1:" = true := by
  rw [supersedeAttestation] at done
  split at done
  · cases done
  · rename_i filled
    split at done
    · cases done
    · rename_i apart
      rw [attest_content done]
      have oldFound : claimText ⟨ClaimType.supersede, [("new", .text new), ("old", .text old)]⟩ "old" = some old := rfl
      have newFound : claimText ⟨ClaimType.supersede, [("new", .text new), ("old", .text old)]⟩ "new" = some new := rfl
      have kind : ∀ content : AttestationContent, content.claim.claimType = ClaimType.supersede →
          claimKind content = .supersede := by
        intro content claimType
        rw [claimKind, claimType, if_neg (by decide), if_pos rfl]
      rw [supersessionPair, if_neg (not_not.mpr (kind _ rfl)), oldFound, newFound]
      simp only
      rw [if_neg filled, if_neg apart]
      cases startsWith old "att:v1:" <;> cases startsWith new "att:v1:" <;> simp [schemaError]

end

/-- A status object that was built is read back as asked for exactly when its targets have the shape of their kind;
    the builders do not look at it. -/
theorem statusRequest_read_iff (primitives : Primitives) (key : Ed25519Key) (issuedAt : UInt64) (limits : Limits)
    (request : StatusRequest) (created : CreatedAttestation)
    (done : request.build primitives key issuedAt limits = .ok created) :
    request.ReadFrom created.content ↔ request.Shaped := by
  cases request with
  | revoke target reason => exact revoke_read done
  | supersede old new => exact supersede_read done
  | withdraw target reason => exact withdraw_read done
  | compromise target atTime reason => exact compromise_read done

/-- The test key with one signature for everything. -/
def stampingKey : Ed25519Key where
  pubkeyBytes := ⟨testKey, rfl⟩
  sign := fun _ => ⟨secondSignature, rfl⟩

theorem compromisedKey_read :
    ∃ created, (StatusRequest.compromise testIssuer 1700000000 (some "leaked")).build statementPrimitives stampingKey
        1700000100 Limits.default = .ok created ∧
      compromiseMark created.content = .ok (testIssuer, 1700000000) := by
  obtain ⟨created, done⟩ := exists_of_isOk (show ((StatusRequest.compromise testIssuer 1700000000
    (some "leaked")).build statementPrimitives stampingKey 1700000100 Limits.default).isOk = true by decide +kernel)
  have shaped : ["key:", "att:v", "evt:v", "evd:v", "rel:v", "did:"].any (startsWith testIssuer) = true := by decide
  exact ⟨created, done, (statusRequest_read_iff _ _ _ _ _ _ done).mpr shaped⟩

/-- A revocation of an account is signed, and no reader takes it for a revocation of anything. -/
theorem revokedAccount_unread :
    ∃ created, revokeAttestation statementPrimitives "acct:1" none stampingKey 1700000100 Limits.default =
        .ok created ∧
      revocationTarget created.content = schemaError "revoke target acct:1 must start with att:v1:" ∧
      revocationTarget created.content ≠ .ok "acct:1" := by
  have refused : (revokeAttestation statementPrimitives "acct:1" none stampingKey 1700000100 Limits.default).map
      (fun created => revocationTarget created.content) =
        .ok (schemaError "revoke target acct:1 must start with att:v1:") := by decide +kernel
  obtain ⟨created, done, read⟩ := map_eq_ok.mp refused
  refine ⟨created, done, read, ?_⟩
  rw [read]
  simp [schemaError]

end ProofEngine
