import ProofEngine.Policy.State

/-! # Policy evaluation

A function of the verified state, the policy and the caller's trust inputs.  Path searches are loops,
so evaluation is an `Outcome`. -/

namespace ProofEngine

open Text

/-- The caller's unsigned denylist. -/
structure RevocationSet where
  revoked : List String
  nodup : revoked.Nodup

def RevocationSet.empty : RevocationSet := ⟨[], .nil⟩

def RevocationSet.new (ids : List String) : RevocationSet := ⟨ids.dedup, ids.nodup_dedup⟩

structure EvalInputs where
  trustedIssuers : List String
  revocations : RevocationSet
  verifiedAt : UInt64
  skewLeeway : UInt64

def EvalInputs.ofContext (ctx : VerificationContext) : EvalInputs where
  trustedIssuers := ctx.trustedIssuers
  revocations := .empty
  verifiedAt := ctx.verifiedAt
  skewLeeway := ctx.clockSkewLeeway

structure RequirementResult where
  requirement : String
  passed : Bool
  message : String
  deriving DecidableEq, Repr

structure PolicyOutcome where
  policyId : String
  decision : PolicyDecision
  /-- Why the policy was not evaluated. -/
  note : Option String
  results : List RequirementResult
  deriving DecidableEq, Repr

/-! ## Path search -/

/-- The maps and the queue of a breadth-first search. -/
structure Search where
  seen : List String
  prev : List (String × String)
  queue : List String

/-- A neighbour of `current` is queued the first time it is met. -/
def Search.visit (current : String) (search : Search) (node : String) : Search :=
  if search.seen.contains node then search
  else { seen := node :: search.seen, prev := (node, current) :: search.prev, queue := search.queue ++ [node] }

/-- The search loop: the predecessors once the target leaves the queue, `none` when the queue is empty. -/
def searchPath (links : Links) (target : String) : (fuel : Nat) → Search → Outcome (Option (List (String × String)))
  | 0, _ => .error .unfinished
  | fuel + 1, search =>
    match search.queue with
    | [] => .ok none
    | current :: queue =>
      if current = target then .ok (some search.prev)
      else searchPath links target fuel ((links.from current).foldl (Search.visit current) { search with queue })

/-- The loop from the target back to the root; `chain` is what has been collected, nearest node first. -/
def traceBack (prev : List (String × String)) (root : String) :
    (fuel : Nat) → (node : String) → (chain : List String) → Outcome (List String)
  | 0, _, _ => .error .unfinished
  | fuel + 1, node, chain =>
    if node = root then .ok chain
    else
      let parent := (prev.lookup node).getD root
      traceBack prev root fuel parent (parent :: chain)

/-- A path from `root` to `target`, both included. -/
def findPath (links : Links) (root target : String) : Outcome (Option (List String)) :=
  if target = root then .ok (some [root])
  else do
    let found ← searchPath links target (links.length + 2) { seen := [root], prev := [], queue := [root] }
    match found with
    | none => .ok none
    | some prev => do
      let chain ← traceBack prev root (links.length + 2) target [target]
      .ok (some chain)

def isActive (state : VerifiedState) (id : String) : Bool := state.activeAttestationIds.contains id

/-- Delegations by active attestations, of the required scope if there is one. -/
def delegationLinks (state : VerifiedState) (scope : Option String) : Links :=
  (state.delegations.filter fun delegation => isActive state delegation.attestationId &&
      (scope.isNone || delegation.scope = scope)).map fun delegation =>
    (delegation.delegator, delegation.delegatee)

def delegationChain (state : VerifiedState) (root target : String) (scope : Option String) :
    Outcome (Option (List String)) :=
  findPath (delegationLinks state scope) root target

/-- Both directions of an identity link. -/
def linkEdge (x y : String) : Links := [(x, y), (y, x)]

/-- An edge that carries identity authority: backed by an active attestation of a trusted attester. -/
def isLiveEdge (state : VerifiedState) (inputs : EvalInputs) (edge : EdgeFact) : Bool :=
  match edge.attestation, edge.attester with
  | some id, some attester => isActive state id && inputs.trustedIssuers.contains attester
  | _, _ => false

def identityLinks (state : VerifiedState) (inputs : EvalInputs) : Links :=
  (state.identityBindings.flatMap fun binding =>
      if inputs.trustedIssuers.contains binding.asserter && isActive state binding.attestationId then
        linkEdge binding.subject binding.equivalent
      else []) ++
    state.edges.flatMap fun edge =>
      if edge.relType = RelType.equivalent && isLiveEdge state inputs edge then
        linkEdge edge.source edge.target
      else []

def identityPath (state : VerifiedState) (inputs : EvalInputs) (a b : String) :
    Outcome (Option (List String)) :=
  findPath (identityLinks state inputs) a b

/-- The receipt bound to an active checkpoint of `log`, if there is one. -/
def transparencyBinding (state : VerifiedState) (log : String) : Option String :=
  let checkpoints := (state.claims.filter fun claim =>
    claim.claimType = ClaimType.transparencyCheckpoint && claim.issuer = log &&
      isActive state claim.attestationId).map (·.attestationId)
  (state.evidenceStatuses.find? fun entry =>
    entry.kind = EvidenceKind.transparencyReceipt &&
      entry.attestationRef.any checkpoints.contains).map fun entry =>
    "transparency receipt " ++ entry.id ++ " bound to active checkpoint by " ++ log

/-! ## Claim fields -/

/-- Comparison of a field; `none` where the types do not match. -/
def fieldMatches (actual : MetaValue) (value : FieldValue) (op : FieldOp) : Option Bool :=
  match actual, value, op with
  | .uint a, .uint b, .eq => some (a = b)
  | .uint a, .uint b, .ne => some (a ≠ b)
  | .uint a, .uint b, .gt => some (b < a)
  | .uint a, .uint b, .gte => some (b ≤ a)
  | .uint a, .uint b, .lt => some (a < b)
  | .uint a, .uint b, .lte => some (a ≤ b)
  | .text a, .text b, .eq => some (a = b)
  | .text a, .text b, .ne => some (a ≠ b)
  | .bool a, .bool b, .eq => some (a = b)
  | .bool a, .bool b, .ne => some (a ≠ b)
  | _, _, _ => none

/-- The active claims of the given type and subject. -/
def claimsInScope (state : VerifiedState) (claimType subject : Option String) : List ClaimSummary :=
  state.claims.filter fun claim => isActive state claim.attestationId &&
    claimType.all (· = claim.claimType) && subject.all (· = claim.subject)

def satisfiesField (field : String) (op : FieldOp) (value : FieldValue) (claim : ClaimSummary) : Bool :=
  match claim.fields.find? fun entry => entry.1 = field with
  | none => false
  | some (_, actual) => (fieldMatches actual value op).getD false

def passWith (name message : String) : RequirementResult := { requirement := name, passed := true, message }

def failWith (name message : String) : RequirementResult := { requirement := name, passed := false, message }

def evalClaimField (state : VerifiedState) (name : String) (claimType subject : Option String)
    (field : String) (op : FieldOp) (value : FieldValue) : RequirementResult :=
  let inScope := claimsInScope state claimType subject
  match inScope.find? (satisfiesField field op value) with
  | some claim =>
    passWith name ("claim_field: ACTIVE claim " ++ claim.attestationId ++ " (" ++ claim.claimType ++ ") has " ++
      field ++ " satisfying " ++ op.asStr ++ " " ++ value.render)
  | none =>
    if inScope.isEmpty then
      failWith name "claim_field: no ACTIVE claim in scope (type/subject filter matched nothing)"
    else
      failWith name ("claim_field: " ++ toString inScope.length ++ " ACTIVE claim(s) in scope, none satisfied " ++
        field ++ " " ++ op.asStr)

/-! ## Requirements -/

/-- The first attestation outside its validity window, with the failure's text. -/
def firstUntimely (inputs : EvalInputs) : List (String × UInt64 × Option UInt64) → Option String
  | [] => none
  | (id, issued, expires) :: rest =>
    if saturatingAdd inputs.verifiedAt inputs.skewLeeway < issued then
      some ("attestation " ++ id ++ " issued in the future relative to verifier clock")
    else if expires.any fun expiry => saturatingAdd expiry inputs.skewLeeway < inputs.verifiedAt then
      some ("attestation " ++ id ++ " expired")
    else firstUntimely inputs rest

def evalNotExpired (state : VerifiedState) (inputs : EvalInputs) (name : String) : RequirementResult :=
  match firstUntimely inputs (state.attestationIds.zip state.attestationTimes) with
  | some message => failWith name message
  | none =>
    passWith name (toString state.attestationIds.length ++ " attestation(s) within validity at " ++
      toString inputs.verifiedAt)

def evalVocabulary (state : VerifiedState) (name ns : String) (maxVersion : UInt64) : RequirementResult :=
  let declared := (state.vocabulariesDeclared.filter fun declared => declared.ns = ns).map (·.version)
  if declared.any (maxVersion < ·) then
    failWith name ("vocabulary `" ++ ns ++ "` declared above accepted max " ++ toString maxVersion)
  else if state.vocabulariesUsed.contains ns && !declared.any (· ≤ maxVersion) then
    failWith name ("vocabulary `" ++ ns ++ "` used but not declared within accepted max " ++
      toString maxVersion)
  else passWith name ("vocabulary `" ++ ns ++ "` within accepted max " ++ toString maxVersion)

def evalDelegated (state : VerifiedState) (inputs : EvalInputs) (name root issuer : String)
    (scope : Option String) : Outcome RequirementResult :=
  if !inputs.trustedIssuers.contains root then
    .ok (failWith name ("delegation root " ++ root ++ " not in trust list"))
  else if !state.verifiedIssuers.contains issuer then
    .ok (failWith name ("issuer " ++ issuer ++ " has no verified attestation here"))
  else do
    let chain ← delegationChain state root issuer scope
    match chain with
    | some chain =>
      .ok (passWith name ("issuer " ++ issuer ++ " authorized by " ++ root ++ " via " ++
        toString (chain.length - 1) ++ " active link(s)" ++
        (scope.map fun scope => " (scope " ++ scope ++ ")").getD ""))
    | none =>
      .ok (failWith name (match scope with
        | some scope =>
          "no active delegation chain from " ++ root ++ " to " ++ issuer ++
            " (every link must carry scope " ++ scope ++
            "; check each link's scope, link-attestation lifecycle, and root trust-listing)"
        | none =>
          "no active delegation chain from " ++ root ++ " to " ++ issuer ++
            " (check link-attestation lifecycle and root trust-listing)"))

/-- Ids of the evidence of a kind that is available. -/
def availableEvidence (state : VerifiedState) (kind : String) : List String :=
  (state.evidenceStatuses.filter fun entry => entry.kind = kind && entry.status = .available).map (·.id)

def passIf (condition : Bool) (name passed failed : String) : RequirementResult :=
  if condition then passWith name passed else failWith name failed

def evalOne (state : VerifiedState) (inputs : EvalInputs) (requirement : Requirement) :
    Outcome RequirementResult :=
  let name := requirement.describe
  match requirement with
  | .signatureValid => .ok (passWith name "pipeline established cryptographic validity for this proof")
  | .issuerTrusted issuer =>
    if !inputs.trustedIssuers.contains issuer then
      .ok (failWith name ("issuer " ++ issuer ++ " not in trust list"))
    else if state.verifiedIssuers.contains issuer then
      .ok (passWith name ("issuer " ++ issuer ++ " verified and trusted"))
    else .ok (failWith name ("trusted issuer " ++ issuer ++ " has no verified attestation here"))
  | .issuerExcluded issuer =>
    .ok (passIf (!state.verifiedIssuers.contains issuer) name
      ("excluded issuer " ++ issuer ++ " absent from this proof")
      ("excluded issuer " ++ issuer ++ " has a verified attestation in this proof"))
  | .relationshipExists relationship =>
    .ok (passIf (state.relTypes.contains relationship) name
      ("edge " ++ relationship ++ " present in validated graph")
      ("no " ++ relationship ++ " edge in validated graph"))
  | .notExpired => .ok (evalNotExpired state inputs name)
  | .notRevoked =>
    match state.attestationIds.find? inputs.revocations.revoked.contains with
    | some id => .ok (failWith name ("attestation " ++ id ++ " revoked"))
    | none =>
      .ok (passWith name ("no known revocation among " ++ toString state.attestationIds.length ++
        " attestation(s)"))
  | .notSuperseded =>
    .ok (passIf state.supersededIds.isEmpty name "no attestation in this proof is superseded"
      ("superseded attestation(s) present: " ++ String.intercalate ", " state.supersededIds))
  | .evidencePresent kind =>
    .ok (passIf (state.evidenceKinds.contains kind) name ("evidence " ++ kind ++ " present")
      ("evidence " ++ kind ++ " missing"))
  | .transparencyPresent =>
    .ok (passIf state.hasTransparency name "transparency_receipt present" "no transparency_receipt in proof")
  | .proofFresh maxAgeSeconds =>
    if inputs.verifiedAt = 0 then .ok (failWith name "no trustworthy verifier clock (verified_at=0)")
    else
      let age := saturatingSub inputs.verifiedAt state.proofCreatedAt
      .ok (passIf (age ≤ maxAgeSeconds) name
        ("proof age " ++ toString age ++ "s <= " ++ toString maxAgeSeconds ++
          "s (created_at bound by proof_id; self-declared age)")
        ("proof too old: " ++ toString age ++ "s > " ++ toString maxAgeSeconds ++ "s"))
  | .delegatedAuthority root issuer scope => evalDelegated state inputs name root issuer scope
  | .identityBound a b => do
    let path ← identityPath state inputs a b
    match path with
    | some path =>
      .ok (passWith name (a ++ " ≡ " ++ b ++ " via " ++ toString (path.length - 1) ++ " trusted binding(s)"))
    | none => .ok (failWith name ("no trusted identity path between " ++ a ++ " and " ++ b))
  | .transparencyInclusion log =>
    match transparencyBinding state log with
    | some detail => .ok (passWith name detail)
    | none => .ok (failWith name ("no receipt bound to a currently-valid checkpoint by " ++ log))
  | .noConflictingEvidence =>
    .ok (passIf state.conflicts.isEmpty name "no conflicts recorded"
      (toString state.conflicts.length ++ " conflicting group(s) recorded — adjudication required"))
  | .vocabularyAccepted ns maxVersion => .ok (evalVocabulary state name ns maxVersion)
  | .evidenceUsable kind =>
    .ok (passIf (!(availableEvidence state kind).isEmpty) name
      ("evidence " ++ kind ++ " usable (AVAILABLE)")
      ("no AVAILABLE evidence of kind " ++ kind ++ " (present-but-unusable is not enough)"))
  | .evidenceBound kind =>
    .ok (passIf (state.evidenceBindings.any fun binding =>
        (availableEvidence state kind).contains binding.evidenceId) name
      ("evidence " ++ kind ++ " cryptographically bound (evidence_digest matches)")
      ("no bound AVAILABLE evidence of kind " ++ kind ++ " (bind via claim evidence_digest + evidence_ref)"))
  | .requiresReference id =>
    .ok (passIf (state.referencedProofs.contains id) name ("composition linkage names " ++ id)
      ("composition linkage does not name " ++ id))
  | .forbidsReference id =>
    .ok (passIf (!state.referencedProofs.contains id) name ("composition linkage omits " ++ id)
      ("composition linkage names forbidden " ++ id))
  | .claimField claimType subject field op value =>
    .ok (evalClaimField state name claimType subject field op value)

/-! ## Expressions and policies -/

mutual

/-- Truth of an expression and the results of all its leaves, left to right; no leaf is skipped. -/
def evalExpr (state : VerifiedState) (inputs : EvalInputs) :
    PolicyExpr → Outcome (Bool × List RequirementResult)
  | .leaf requirement => do
    let result ← evalOne state inputs requirement
    .ok (result.passed, [result])
  | .all children => do
    let results ← evalExprs state inputs children
    .ok (results.all Prod.fst, results.flatMap Prod.snd)
  | .any children => do
    let results ← evalExprs state inputs children
    .ok (results.any Prod.fst, results.flatMap Prod.snd)
  | .not child => do
    let (passed, results) ← evalExpr state inputs child
    .ok (!passed, results)
  | .threshold k options => do
    let results ← evalExprs state inputs options
    .ok (k ≤ results.countP Prod.fst, results.flatMap Prod.snd)

def evalExprs (state : VerifiedState) (inputs : EvalInputs) :
    List PolicyExpr → Outcome (List (Bool × List RequirementResult))
  | [] => .ok []
  | child :: children => do
    let first ← evalExpr state inputs child
    let rest ← evalExprs state inputs children
    .ok (first :: rest)

end

def onoff (valid : Bool) : String := if valid then "valid" else "invalid"

def evaluatePolicy (state : VerifiedState) (policy : Policy) (inputs : EvalInputs) : Outcome PolicyOutcome :=
  if !state.cryptoValid || !state.evidenceValid then
    .ok { policyId := policy.id, decision := .indeterminate
          note := some ("proof not valid (crypto=" ++ onoff state.cryptoValid ++ ", evidence=" ++
            onoff state.evidenceValid ++ "); policy not evaluated")
          results := [] }
  else if policy.version = 2 then
    match policy.expression with
    | some expression => do
      let (passed, results) ← evalExpr state inputs expression
      .ok { policyId := policy.id, decision := if passed then .pass else .fail, note := none, results }
    | none =>
      .ok { policyId := policy.id, decision := .indeterminate
            note := some "v2 policy without expression; policy not evaluated", results := [] }
  else do
    let results ← policy.requirements.mapM (evalOne state inputs)
    .ok { policyId := policy.id, decision := if results.all (·.passed) then .pass else .fail
          note := none, results }

/-! ## What a PASS says -/

/-- A requirement that evaluates to true. -/
def Satisfies (state : VerifiedState) (inputs : EvalInputs) (requirement : Requirement) : Prop :=
  ∃ result, evalOne state inputs requirement = .ok result ∧ result.passed = true

/-- The requirements of a policy, read by its version. -/
def Policy.Holds (policy : Policy) (state : VerifiedState) (inputs : EvalInputs) : Prop :=
  if policy.version = 2 then
    ∃ expression, policy.expression = some expression ∧ expression.Holds (Satisfies state inputs)
  else ∀ requirement ∈ policy.requirements, Satisfies state inputs requirement

theorem le_countP_iff {α : Type} {p : α → Bool} {items : List α} {k : Nat} :
    k ≤ items.countP p ↔ ∃ selected : List α, selected.Sublist items ∧ k ≤ selected.length ∧
      ∀ item ∈ selected, p item = true := by
  constructor
  · intro enough
    refine ⟨items.filter p, List.filter_sublist, ?_, fun item member => List.of_mem_filter member⟩
    rwa [← List.countP_eq_length_filter]
  · rintro ⟨selected, sub, enough, holds⟩
    rw [← List.countP_eq_length.mpr holds] at enough
    exact enough.trans sub.countP_le

section
open scoped Classical

variable {state : VerifiedState} {inputs : EvalInputs}

theorem evalOne_satisfies {requirement : Requirement} {result : RequirementResult}
    (done : evalOne state inputs requirement = .ok result) :
    result.passed = decide (Satisfies state inputs requirement) := by
  -- evaluation is a function, so its one result decides
  have unique : Satisfies state inputs requirement ↔ result.passed = true := by
    constructor
    · rintro ⟨other, otherDone, passed⟩
      rw [done] at otherDone
      cases otherDone
      exact passed
    · intro passed
      exact ⟨result, done, passed⟩
  simp only [unique, Bool.decide_eq_true]

mutual

/-- An expression evaluates to what it means. -/
theorem evalExpr_holds : ∀ {expression : PolicyExpr} {passed : Bool} {results : List RequirementResult},
    evalExpr state inputs expression = .ok (passed, results) →
      passed = decide (expression.Holds (Satisfies state inputs))
  | .leaf requirement, passed, results, done => by
    simp only [evalExpr, bind_eq_ok] at done
    obtain ⟨result, resultDone, done⟩ := done
    cases done
    simp only [PolicyExpr.Holds, evalOne_satisfies resultDone]
  | .all children, passed, results, done => by
    simp only [evalExpr, bind_eq_ok] at done
    obtain ⟨found, foundDone, done⟩ := done
    cases done
    have truths := congrArg (fun truths => truths.all id) (evalExprs_holds foundDone)
    simp only [List.all_map, Function.id_comp] at truths
    rw [truths, Bool.eq_iff_iff]
    simp [PolicyExpr.Holds]
  | .any children, passed, results, done => by
    simp only [evalExpr, bind_eq_ok] at done
    obtain ⟨found, foundDone, done⟩ := done
    cases done
    have truths := congrArg (fun truths => truths.any id) (evalExprs_holds foundDone)
    simp only [List.any_map, Function.id_comp] at truths
    rw [truths, Bool.eq_iff_iff]
    simp [PolicyExpr.Holds]
  | .not child, passed, results, done => by
    simp only [evalExpr, bind_eq_ok] at done
    obtain ⟨⟨childPassed, childResults⟩, childDone, done⟩ := done
    cases done
    simp only [PolicyExpr.Holds, evalExpr_holds childDone, decide_not]
  | .threshold k options, passed, results, done => by
    simp only [evalExpr, bind_eq_ok] at done
    obtain ⟨found, foundDone, done⟩ := done
    cases done
    have truths := congrArg (fun truths => truths.countP id) (evalExprs_holds foundDone)
    simp only [List.countP_map, Function.id_comp] at truths
    simp only [truths, PolicyExpr.Holds, le_countP_iff]
    simp [and_left_comm]

theorem evalExprs_holds : ∀ {children : List PolicyExpr} {results : List (Bool × List RequirementResult)},
    evalExprs state inputs children = .ok results →
      results.map Prod.fst = children.map fun child => decide (child.Holds (Satisfies state inputs))
  | [], results, done => by
    simp only [evalExprs] at done
    cases done
    rfl
  | child :: children, results, done => by
    simp only [evalExprs, bind_eq_ok] at done
    obtain ⟨⟨passed, leaves⟩, childDone, rest, restDone, done⟩ := done
    cases done
    rw [List.map_cons, List.map_cons, evalExprs_holds restDone, evalExpr_holds childDone]

end

/-- PASS means that the proof was valid and the policy holds. -/
theorem evaluatePolicy_pass {policy : Policy} {outcome : PolicyOutcome}
    (done : evaluatePolicy state policy inputs = .ok outcome) (passed : outcome.decision = .pass) :
    state.cryptoValid = true ∧ state.evidenceValid = true ∧ policy.Holds state inputs := by
  simp only [evaluatePolicy] at done
  split at done
  · cases done
    cases passed
  · rename_i valid
    simp only [Bool.or_eq_true, Bool.not_eq_true', not_or, Bool.not_eq_false] at valid
    refine ⟨valid.1, valid.2, ?_⟩
    rw [Policy.Holds]
    split at done
    · rename_i second
      rw [if_pos second]
      split at done
      · rename_i expression found
        simp only [bind_eq_ok] at done
        obtain ⟨⟨truth, results⟩, evaluated, done⟩ := done
        cases done
        have truthIs := evalExpr_holds evaluated
        refine ⟨expression, found, ?_⟩
        cases truth with
        | false => cases passed
        | true => exact of_decide_eq_true truthIs.symm
      · cases done
        cases passed
    · rename_i first
      rw [if_neg first]
      simp only [bind_eq_ok] at done
      obtain ⟨results, evaluated, done⟩ := done
      cases done
      have all : results.all (·.passed) = true := by
        by_contra failed
        rw [if_neg failed] at passed
        cases passed
      intro requirement member
      obtain ⟨result, resultMember, resultDone⟩ := exists_result_of_mem evaluated member
      exact ⟨result, resultDone, List.all_eq_true.mp all result resultMember⟩

end

end ProofEngine
