import ProofEngine.Policy.PathSearch
import ProofEngine.Verify.MemberOrder

/-! # Decisions do not depend on the order of members

A policy reads a verified state through its sets and through searches that only ask whether something is
there.  So states that list the same facts in another order get the same decision, and the states of two
proofs that differ only in the order of their members are such states. -/

namespace ProofEngine

open Relation DirectedGraph StableSort Text LastMap

/-! ## States that list the same facts -/

structure SameView (state state' : VerifiedState) : Prop where
  cryptoValid : state'.cryptoValid = state.cryptoValid
  evidenceValid : state'.evidenceValid = state.evidenceValid
  verifiedIssuers : state'.verifiedIssuers.Perm state.verifiedIssuers
  attestationIds : state'.attestationIds.Perm state.attestationIds
  windows : (state'.attestationIds.zip state'.attestationTimes).Perm
    (state.attestationIds.zip state.attestationTimes)
  activeAttestationIds : state'.activeAttestationIds.Perm state.activeAttestationIds
  supersededIds : state'.supersededIds.Perm state.supersededIds
  relTypes : state'.relTypes.Perm state.relTypes
  evidenceKinds : state'.evidenceKinds.Perm state.evidenceKinds
  proofCreatedAt : state'.proofCreatedAt = state.proofCreatedAt
  claims : state'.claims.Perm state.claims
  edges : state'.edges.Perm state.edges
  delegations : state'.delegations.Perm state.delegations
  identityBindings : state'.identityBindings.Perm state.identityBindings
  evidenceBindings : state'.evidenceBindings.Perm state.evidenceBindings
  vocabulariesUsed : state'.vocabulariesUsed = state.vocabulariesUsed
  vocabulariesDeclared : state'.vocabulariesDeclared = state.vocabulariesDeclared
  conflicts : state'.conflicts = state.conflicts
  referencedProofs : state'.referencedProofs = state.referencedProofs
  evidenceStatuses : state'.evidenceStatuses.Perm state.evidenceStatuses

/-! ## Requirements -/

/-- Both evaluations end, with the same result up to the message. -/
def SamePassed (outcome outcome' : Outcome RequirementResult) : Prop :=
  ∃ result result', outcome = .ok result ∧ outcome' = .ok result' ∧ result'.passed = result.passed

theorem samePassed_ok {result result' : RequirementResult} (same : result'.passed = result.passed) :
    SamePassed (.ok result) (.ok result') :=
  ⟨result, result', rfl, rfl, same⟩

@[simp] theorem passIf_passed (condition : Bool) (name passed failed : String) :
    (passIf condition name passed failed).passed = condition := by
  cases condition <;> rfl

theorem samePassed_passIf {condition condition' : Bool} {name passed failed passed' failed' : String}
    (same : condition' = condition) :
    SamePassed (.ok (passIf condition name passed failed)) (.ok (passIf condition' name passed' failed')) :=
  samePassed_ok (by rw [passIf_passed, passIf_passed, same])

/-- A search for a first match is there or not, whatever the order. -/
theorem isSome_find?_perm {α : Type} {items others : List α} (perm : others.Perm items) (p : α → Bool) :
    (others.find? p).isSome = (items.find? p).isSome := by
  rw [List.isSome_find?, List.isSome_find?, perm.any_eq]

theorem findPath_perm {links links' : Links} (perm : links'.Perm links) (root target : String) :
    ∃ path path', findPath links root target = .ok path ∧ findPath links' root target = .ok path' ∧
      path'.isSome = path.isSome := by
  obtain ⟨path, found, reach⟩ := findPath_spec links root target
  obtain ⟨path', found', reach'⟩ := findPath_spec links' root target
  refine ⟨path, path', found, found', ?_⟩
  rw [Bool.eq_iff_iff, reach, reach', reach_perm perm]

theorem firstUntimely_eq_none {inputs : EvalInputs} {windows : List (String × UInt64 × Option UInt64)} :
    firstUntimely inputs windows = none ↔ ∀ window ∈ windows,
      ¬ saturatingAdd inputs.verifiedAt inputs.skewLeeway < window.2.1 ∧
      ¬ (window.2.2.any fun expiry => saturatingAdd expiry inputs.skewLeeway < inputs.verifiedAt) = true := by
  induction windows with
  | nil => simp [firstUntimely]
  | cons window windows inductionHypothesis =>
    obtain ⟨id, issued, expires⟩ := window
    rw [firstUntimely, List.forall_mem_cons, ← inductionHypothesis]
    split
    · rename_i future
      simp [future]
    · rename_i present
      split
      · rename_i expired
        simp [expired]
      · rename_i running
        exact ⟨fun rest => ⟨⟨present, running⟩, rest⟩, And.right⟩

section
variable {state state' : VerifiedState} (same : SameView state state') (inputs : EvalInputs)
include same

theorem SameView.isActive : isActive state' = isActive state := by
  funext id
  exact same.activeAttestationIds.contains_eq

theorem SameView.delegationLinks (scope : Option String) :
    (delegationLinks state' scope).Perm (delegationLinks state scope) := by
  simp only [ProofEngine.delegationLinks, same.isActive]
  exact (same.delegations.filter _).map _

theorem SameView.identityLinks : (identityLinks state' inputs).Perm (identityLinks state inputs) := by
  -- links from identity claims, then from live EQUIVALENT edges
  have live : isLiveEdge state' inputs = isLiveEdge state inputs := by
    funext edge
    rw [isLiveEdge, isLiveEdge, same.isActive]
  simp only [ProofEngine.identityLinks, same.isActive, live]
  exact (same.identityBindings.flatMap_right _).append (same.edges.flatMap_right _)

theorem SameView.availableEvidence (kind : String) :
    (availableEvidence state' kind).Perm (availableEvidence state kind) :=
  (same.evidenceStatuses.filter _).map _

theorem SameView.transparencyBinding (log : String) :
    (transparencyBinding state' log).isSome = (transparencyBinding state log).isSome := by
  -- a receipt is bound through any active checkpoint of the log
  have checkpoints := (same.claims.filter fun claim =>
    claim.claimType = ClaimType.transparencyCheckpoint && claim.issuer = log &&
      ProofEngine.isActive state claim.attestationId).map (·.attestationId)
  have contains := funext fun id => checkpoints.contains_eq (a := id)
  simp only [ProofEngine.transparencyBinding, Option.isSome_map, same.isActive, contains]
  exact isSome_find?_perm same.evidenceStatuses _

theorem SameView.evalNotExpired (name : String) :
    (evalNotExpired state' inputs name).passed = (evalNotExpired state inputs name).passed := by
  -- which window is named depends on the order, whether there is one does not
  have timely : firstUntimely inputs (state'.attestationIds.zip state'.attestationTimes) = none ↔
      firstUntimely inputs (state.attestationIds.zip state.attestationTimes) = none := by
    rw [firstUntimely_eq_none, firstUntimely_eq_none]
    exact forall_congr' fun window => by rw [same.windows.mem_iff]
  rw [ProofEngine.evalNotExpired, ProofEngine.evalNotExpired]
  split <;> split <;> simp_all [passWith, failWith]

theorem SameView.evalClaimField (name : String) (claimType subject : Option String) (field : String) (op : FieldOp)
    (value : FieldValue) :
    (evalClaimField state' name claimType subject field op value).passed =
      (evalClaimField state name claimType subject field op value).passed := by
  have inScope : (claimsInScope state' claimType subject).Perm (claimsInScope state claimType subject) := by
    simp only [claimsInScope, same.isActive]
    exact same.claims.filter _
  -- the two messages of a failure tell apart an empty scope; the result does not
  have passed : ∀ view : VerifiedState, (ProofEngine.evalClaimField view name claimType subject field op value).passed =
      ((claimsInScope view claimType subject).find? (satisfiesField field op value)).isSome := by
    intro view
    rw [ProofEngine.evalClaimField]
    split
    · rename_i found
      rw [found]
      rfl
    · rename_i missing
      rw [missing]
      split <;> rfl
  rw [passed, passed, isSome_find?_perm inScope]

theorem SameView.evalDelegated (name root issuer : String) (scope : Option String) :
    SamePassed (evalDelegated state inputs name root issuer scope)
      (evalDelegated state' inputs name root issuer scope) := by
  -- the paths found may differ, but there is one in both states or in neither
  obtain ⟨path, path', found, found', isSome⟩ := findPath_perm (same.delegationLinks scope) root issuer
  simp only [ProofEngine.evalDelegated, delegationChain, same.verifiedIssuers.contains_eq, found, found', ok_bind]
  split
  · exact samePassed_ok rfl
  · split
    · exact samePassed_ok rfl
    · cases path with
      | none =>
        obtain rfl : path' = none := by simpa using isSome
        exact samePassed_ok rfl
      | some chain =>
        obtain ⟨chain', rfl⟩ := Option.isSome_iff_exists.mp isSome
        exact samePassed_ok rfl

theorem SameView.evalIdentity (a b : String) :
    SamePassed (evalOne state inputs (.identityBound a b)) (evalOne state' inputs (.identityBound a b)) := by
  obtain ⟨path, path', found, found', isSome⟩ := findPath_perm (same.identityLinks inputs) a b
  simp only [evalOne, identityPath, found, found', ok_bind]
  cases path with
  | none =>
    obtain rfl : path' = none := by simpa using isSome
    exact samePassed_ok rfl
  | some chain =>
    obtain ⟨chain', rfl⟩ := Option.isSome_iff_exists.mp isSome
    exact samePassed_ok rfl

/-- Every requirement is met by both states or by neither. -/
theorem SameView.evalOne (requirement : Requirement) :
    SamePassed (evalOne state inputs requirement) (evalOne state' inputs requirement) := by
  cases requirement with
  | signatureValid => exact samePassed_ok rfl
  | issuerTrusted issuer =>
    simp only [ProofEngine.evalOne, same.verifiedIssuers.contains_eq]
    split
    · exact samePassed_ok rfl
    · split
      · exact samePassed_ok rfl
      · exact samePassed_ok rfl
  | issuerExcluded issuer => exact samePassed_passIf (by rw [same.verifiedIssuers.contains_eq])
  | relationshipExists relationship => exact samePassed_passIf same.relTypes.contains_eq
  | notExpired => exact samePassed_ok (same.evalNotExpired inputs _)
  | notRevoked =>
    have revoked := isSome_find?_perm same.attestationIds inputs.revocations.revoked.contains
    simp only [ProofEngine.evalOne]
    cases found : state.attestationIds.find? inputs.revocations.revoked.contains with
    | none =>
      rw [found, Option.isSome_none, Option.isSome_eq_false_iff, Option.isNone_iff_eq_none] at revoked
      rw [revoked]
      exact samePassed_ok rfl
    | some id =>
      rw [found] at revoked
      obtain ⟨id', found'⟩ := Option.isSome_iff_exists.mp revoked
      rw [found']
      exact samePassed_ok rfl
  | notSuperseded => exact samePassed_passIf (isEmpty_perm same.supersededIds)
  | evidencePresent kind => exact samePassed_passIf same.evidenceKinds.contains_eq
  | transparencyPresent => exact samePassed_passIf same.evidenceKinds.contains_eq
  | proofFresh maxAgeSeconds =>
    simp only [ProofEngine.evalOne, same.proofCreatedAt]
    split
    · exact samePassed_ok rfl
    · exact samePassed_ok rfl
  | delegatedAuthority root issuer scope => exact same.evalDelegated inputs _ root issuer scope
  | identityBound a b => exact same.evalIdentity inputs a b
  | transparencyInclusion log =>
    have bound := same.transparencyBinding log
    simp only [ProofEngine.evalOne]
    cases found : ProofEngine.transparencyBinding state log with
    | none =>
      rw [found, Option.isSome_none, Option.isSome_eq_false_iff, Option.isNone_iff_eq_none] at bound
      rw [bound]
      exact samePassed_ok rfl
    | some detail =>
      rw [found] at bound
      obtain ⟨detail', found'⟩ := Option.isSome_iff_exists.mp bound
      rw [found']
      exact samePassed_ok rfl
  | noConflictingEvidence => exact samePassed_passIf (by rw [same.conflicts])
  | vocabularyAccepted ns maxVersion =>
    simp only [ProofEngine.evalOne, evalVocabulary, same.vocabulariesUsed, same.vocabulariesDeclared]
    exact samePassed_ok rfl
  | evidenceUsable kind => exact samePassed_passIf (by rw [isEmpty_perm (same.availableEvidence kind)])
  | evidenceBound kind =>
    refine samePassed_passIf ?_
    simp only [(same.availableEvidence kind).contains_eq]
    exact same.evidenceBindings.any_eq
  | requiresReference id => exact samePassed_passIf (by rw [same.referencedProofs])
  | forbidsReference id => exact samePassed_passIf (by rw [same.referencedProofs])
  | claimField claimType subject field op value =>
    exact samePassed_ok (same.evalClaimField _ claimType subject field op value)

theorem SameView.satisfies : Satisfies state' inputs = Satisfies state inputs := by
  funext requirement
  obtain ⟨result, result', done, done', passed⟩ := same.evalOne inputs requirement
  rw [Satisfies, Satisfies, done, done']
  simp only [Except.ok.injEq, exists_eq_left', passed]

end

/-! ## Policies -/

section
variable (state : VerifiedState) (inputs : EvalInputs)

theorem SameView.refl : SameView state state :=
  ⟨rfl, rfl, .refl _, .refl _, .refl _, .refl _, .refl _, .refl _, .refl _, rfl, .refl _, .refl _, .refl _, .refl _,
    .refl _, rfl, rfl, rfl, rfl, .refl _⟩

/-- Evaluation of a requirement always ends. -/
theorem evalOne_total (requirement : Requirement) :
    ∃ result, evalOne state inputs requirement = .ok result := by
  obtain ⟨result, _, done, _⟩ := (SameView.refl state).evalOne inputs requirement
  exact ⟨result, done⟩

mutual

theorem evalExpr_total : ∀ expression : PolicyExpr, ∃ truth, evalExpr state inputs expression = .ok truth
  | .leaf requirement => by
    obtain ⟨result, done⟩ := evalOne_total state inputs requirement
    exact ⟨_, by rw [evalExpr, done, ok_bind]⟩
  | .all children => by
    obtain ⟨results, done⟩ := evalExprs_total children
    exact ⟨_, by rw [evalExpr, done, ok_bind]⟩
  | .any children => by
    obtain ⟨results, done⟩ := evalExprs_total children
    exact ⟨_, by rw [evalExpr, done, ok_bind]⟩
  | .not child => by
    obtain ⟨⟨passed, results⟩, done⟩ := evalExpr_total child
    exact ⟨_, by rw [evalExpr, done, ok_bind]⟩
  | .threshold k options => by
    obtain ⟨results, done⟩ := evalExprs_total options
    exact ⟨_, by rw [evalExpr, done, ok_bind]⟩

theorem evalExprs_total : ∀ children : List PolicyExpr, ∃ results, evalExprs state inputs children = .ok results
  | [] => ⟨[], rfl⟩
  | child :: children => by
    obtain ⟨first, firstDone⟩ := evalExpr_total child
    obtain ⟨rest, restDone⟩ := evalExprs_total children
    exact ⟨first :: rest, by rw [evalExprs, firstDone, ok_bind, restDone, ok_bind]⟩

end

open scoped Classical in
theorem mapM_evalOne (requirements : List Requirement) :
    ∃ results, requirements.mapM (evalOne state inputs) = .ok results ∧
      results.all (·.passed) = decide (∀ requirement ∈ requirements, Satisfies state inputs requirement) := by
  induction requirements with
  | nil => exact ⟨[], rfl, by simp⟩
  | cons requirement requirements inductionHypothesis =>
    obtain ⟨result, done⟩ := evalOne_total state inputs requirement
    obtain ⟨results, restDone, truth⟩ := inductionHypothesis
    refine ⟨result :: results, ?_, ?_⟩
    · rw [List.mapM_cons, done, ok_bind, restDone, ok_bind]
      rfl
    · rw [List.all_cons, truth, evalOne_satisfies done, Bool.eq_iff_iff]
      simp

open scoped Classical in
/-- A decision is made from the verdicts and from which requirements are satisfied. -/
theorem evaluatePolicy_decision (policy : Policy) :
    ∃ outcome, evaluatePolicy state policy inputs = .ok outcome ∧
      outcome.decision =
        if !state.cryptoValid || !state.evidenceValid then .indeterminate
        else if policy.version = 2 ∧ policy.expression = none then .indeterminate
        else if policy.Holds state inputs then .pass else .fail := by
  rw [evaluatePolicy]
  split
  · exact ⟨_, rfl, rfl⟩
  · by_cases second : policy.version = 2
    · rw [if_pos second]
      cases found : policy.expression with
      | none => exact ⟨_, rfl, by simp [second]⟩
      | some expression =>
        obtain ⟨⟨truth, results⟩, done⟩ := evalExpr_total state inputs expression
        simp only [done, ok_bind]
        refine ⟨_, rfl, ?_⟩
        simp [second, Policy.Holds, found, evalExpr_holds done]
    · rw [if_neg second]
      obtain ⟨results, done, truth⟩ := mapM_evalOne state inputs policy.requirements
      rw [done]
      refine ⟨_, rfl, ?_⟩
      simp [second, Policy.Holds, truth]

variable {state inputs}

/-- States that list the same facts get the same decision from every policy. -/
theorem SameView.decision {state' : VerifiedState} (same : SameView state state') (policy : Policy) :
    ∃ outcome outcome', evaluatePolicy state policy inputs = .ok outcome ∧
      evaluatePolicy state' policy inputs = .ok outcome' ∧ outcome'.decision = outcome.decision := by
  obtain ⟨outcome, done, decided⟩ := evaluatePolicy_decision state inputs policy
  obtain ⟨outcome', done', decided'⟩ := evaluatePolicy_decision state' inputs policy
  refine ⟨outcome, outcome', done, done', ?_⟩
  have holds : policy.Holds state' inputs ↔ policy.Holds state inputs := by
    rw [Policy.Holds, Policy.Holds, same.satisfies inputs]
  rw [decided, decided', same.cryptoValid, same.evidenceValid]
  by_cases met : policy.Holds state inputs
  · rw [if_pos met, if_pos (holds.mpr met)]
  · rw [if_neg met, if_neg (mt holds.mp met)]

end

/-! ## Verified ids of a report -/

/-- Ids with a passed signature check. -/
def passedIds (checks : List CheckRecord) : List String :=
  (checks.filter fun check => check.ok && check.stage = .signatures).filterMap fun check =>
    strip check.object "att:"

theorem passedIds_append (first second : List CheckRecord) :
    passedIds (first ++ second) = passedIds first ++ passedIds second := by
  rw [passedIds, List.filter_append, List.filterMap_append]
  rfl

theorem EmittedBy.passedIds_eq_nil {checks : List CheckRecord} {stages : List Stage}
    (emitted : EmittedBy stages checks) (apart : .signatures ∉ stages) : passedIds checks = [] := by
  have unsigned : (checks.filter fun check => check.ok && check.stage = .signatures) = [] := by
    rw [List.filter_eq_nil_iff]
    intro check member passed
    simp only [Bool.and_eq_true, decide_eq_true_eq] at passed
    exact apart (passed.2 ▸ emitted check member)
  rw [passedIds, unsigned, List.filterMap_nil]

section
variable {primitives : Primitives} {ctx : VerifyCtx} {proof : Proof}

theorem passedIds_verifyEntries (entries : List (StoredAttestation × String)) :
    passedIds (verifyEntries primitives ctx entries).1 = (verifyEntries primitives ctx entries).2.map Prod.fst := by
  induction entries with
  | nil => rfl
  | cons first entries inductionHypothesis =>
    obtain ⟨entry, id⟩ := first
    simp only [verifyEntries]
    split
    · rename_i failed here
      have dropped : passedIds [failed] = [] := by
        simp [passedIds, (verifyEntry_eq_error here).2]
      rw [← List.singleton_append, passedIds_append, dropped, inductionHypothesis]
      rfl
    · rename_i alg here
      have kept (message message' : String) : passedIds [.pass .signatures ("att:" ++ id) message,
          .pass .keys ("att:" ++ id) message'] = [id] := by
        simp [passedIds, CheckRecord.pass]
      rw [List.map_cons, ← inductionHypothesis, ← List.singleton_append (l := passedIds _), ← kept, ← passedIds_append]
      rfl

theorem passedIds_signatureChecks :
    passedIds (signatureChecks primitives ctx proof) = (verifiedSet primitives ctx proof).map Prod.fst := by
  -- the note about a proof without attestations passes SIGNATURES, but names a proof
  have note : passedIds (if proof.attestations.isEmpty then [CheckRecord.note .signatures ("proof:" ++ proof.proofId)
      "no attestations present (policy decides whether that suffices)"] else []) = [] := by
    split
    · have other : strip ("proof:" ++ proof.proofId) "att:" = none := by
        simp [strip, startsWith]
      simp [passedIds, CheckRecord.note, other]
    · rfl
  rw [signatureChecks, passedIds_append, note, List.append_nil, passedIds_verifyEntries]
  rfl

theorem openingChecks_emittedBy (value : CborValue) (bytes : Bytes) :
    EmittedBy [.parse, .schema, .canonical] (openingChecks ctx proof value bytes) := by
  refine .append (.append ?_ ((vocabularyNotes_emittedBy proof).weaken (by decide))) ?_
  · exact @EmittedBy.append _ [_] [_] (.singleton (by decide)) (.singleton (by simp [schemaCheck, CheckRecord.pass]))
  · exact .singleton (by rw [canonicalCheck_stage]; decide)

end

section
variable {primitives : Primitives} {order : HashOrder} {ctx : VerifyCtx} {bytes : Bytes} {value : CborValue}
  {proof : Proof} {eventIds : List String} {recomputed : String} {graph : List CheckRecord} {report : VerifyReport}

/-- The ids a policy takes as verified from the report are those of the verified set. -/
theorem StagesRan.reportVerified_eq
    (stages : StagesRan primitives order ctx bytes value proof eventIds recomputed graph report) :
    reportVerified report = (verifiedSet primitives ctx proof).map Prod.fst := by
  have checks : reportVerified report = passedIds report.checks := rfl
  have policy : passedIds [policyNote] = [] := rfl
  rw [checks, stages.checks_eq]
  simp only [memberChecks, passedIds_append, passedIds_signatureChecks, policy,
    (openingChecks_emittedBy value bytes).passedIds_eq_nil (by decide),
    (identifierCheck_emittedBy proof recomputed).passedIds_eq_nil (by decide),
    (timeChecks_emittedBy _).passedIds_eq_nil (by decide),
    (revocationChecks_emittedBy proof _).passedIds_eq_nil (by decide),
    (evidenceChecks_emittedBy proof _ _).passedIds_eq_nil (by decide),
    (graphChecks_emittedBy stages.graphDone).passedIds_eq_nil (by decide),
    (referenceChecks_emittedBy proof).passedIds_eq_nil (by decide),
    (contradictionNotes_emittedBy proof _).passedIds_eq_nil (by decide),
    (conflictNotes_emittedBy proof _).passedIds_eq_nil (by decide), List.append_nil, List.nil_append]

end

/-! ## Projected states -/

section
variable {primitives : Primitives} {proof other : Proof}

theorem namedAttestations_perm (permuted : PermutedMembers proof other) :
    (namedAttestations primitives other).Perm (namedAttestations primitives proof) :=
  permuted.attestations.map _

theorem namedAttestations_functional (determined : IdsDetermine primitives proof) :
    Functional (namedAttestations primitives proof) := by
  intro id left right leftMember rightMember
  simp only [namedAttestations, List.mem_map, Prod.mk.injEq] at leftMember rightMember
  obtain ⟨stored, member, named, rfl⟩ := leftMember
  obtain ⟨stored', member', named', rfl⟩ := rightMember
  exact determined.attestations stored member stored' member' (named.trans named'.symm)

theorem vocabulariesUsed_perm (permuted : PermutedMembers proof other) :
    vocabulariesUsed other = vocabulariesUsed proof := by
  rw [vocabulariesUsed, vocabulariesUsed, permuted.proposition]
  apply sortOn_eq_of_perm utf8_injective
  apply List.Perm.dedup
  exact ((((permuted.events.map _).append (permuted.attestations.map _)).append (permuted.evidence.map _)).append
    (permuted.relationships.map _)).append_right _

end

/-- What the projection reads of two reports about the members of the same proof in another order. -/
structure SameSources (primitives : Primitives) (report report' : VerifyReport) (proof other : Proof) : Prop
    extends SameFindings report report' where
  proofId : report.proofId = some proof.proofId
  proofId' : report'.proofId = some other.proofId
  members : PermutedMembers proof other
  determined : IdsDetermine primitives proof
  verified : (reportVerified report').Perm (reportVerified report)
  statusObjects : report'.statusObjects.Perm report.statusObjects
  evidenceStatusById : evidenceStatusById report' = evidenceStatusById report

section
variable {primitives : Primitives} {order order' : HashOrder} {ctx : VerifyCtx} {bytes bytes' : Bytes}
  {value value' : CborValue} {proof other : Proof} {eventIds eventIds' : List String} {recomputed recomputed' : String}
  {graph graph' : List CheckRecord} {report report' : VerifyReport}

/-- Where evidence ids name one item each, so do the reported statuses. -/
theorem StagesRan.evidenceStatus_functional
    (stages : StagesRan primitives order ctx bytes value proof eventIds recomputed graph report)
    (determined : IdsDetermine primitives proof) :
    Functional (report.evidenceStatus.filterMap fun record =>
      (strip record.object "evd:").map fun id => (id, record.status)) := by
  intro id left right leftMember rightMember
  simp only [stages.evidenceStatusRecords_eq, evidenceStatusRecords, proofEvidence_eq, List.map_map,
    List.filterMap_map, List.mem_filterMap, Function.comp, strip_append, Option.map_some, Option.some.injEq,
      Prod.mk.injEq] at leftMember rightMember
  obtain ⟨evidence, member, named, rfl⟩ := leftMember
  obtain ⟨evidence', member', named', rfl⟩ := rightMember
  rw [determined.evidence evidence member evidence' member' (named.trans named'.symm)]

theorem StagesRan.sameSources
    (stages : StagesRan primitives order ctx bytes value proof eventIds recomputed graph report)
    (stages' : StagesRan primitives order' ctx bytes' value' other eventIds' recomputed' graph' report')
    (determined : IdsDetermine primitives proof) (permuted : PermutedMembers proof other) :
    SameSources primitives report report' proof other where
  toSameFindings := stages.sameFindings stages' determined permuted
  proofId := stages.proofId_eq
  proofId' := stages'.proofId_eq
  members := permuted
  determined := determined
  verified := by
    rw [stages.reportVerified_eq, stages'.reportVerified_eq]
    exact (verifiedSet_perm permuted).map _
  statusObjects := by
    rw [stages.statusObjects_eq, stages'.statusObjects_eq]
    exact ((verifiedSet_perm permuted).filter _).map _
  evidenceStatusById :=
    lastValue_perm (stages.evidenceStatus_functional determined)
      ((stages.sameFindings stages' determined permuted).evidenceStatus.filterMap _)

end

section
variable {primitives : Primitives} {proof other : Proof} {report report' : VerifyReport}
  (same : SameSources primitives report report' proof other)
include same

theorem SameSources.reportLifecycle (status : LifecycleStatus) :
    (reportLifecycle report' status).Perm (reportLifecycle report status) :=
  (same.lifecycle.filter _).filterMap _

theorem SameSources.stateStatements :
    (stateStatements primitives report' other).Perm (stateStatements primitives report proof) := by
  simp only [ProofEngine.stateStatements, same.verified.contains_eq, same.statusObjects.contains_eq]
  exact (namedAttestations_perm same.members).filter _

theorem SameSources.attesterOf : attesterOf primitives report' other = attesterOf primitives report proof := by
  funext id
  have functional := namedAttestations_functional same.determined
  simp only [ProofEngine.attesterOf, same.verified.contains_eq,
    lastValue_perm (functional.filter _) ((namedAttestations_perm same.members).filter _)]

theorem SameSources.edgeFact : edgeFact primitives report' other = edgeFact primitives report proof := by
  funext relationship
  rw [ProofEngine.edgeFact, ProofEngine.edgeFact, same.attesterOf]

theorem SameSources.evidenceBindingOf :
    evidenceBindingOf primitives report' other = evidenceBindingOf primitives report proof := by
  funext entry
  simp only [ProofEngine.evidenceBindingOf, same.verified.contains_eq, (same.reportLifecycle .active).contains_eq,
    digestByEvd_perm same.determined same.members]

theorem SameSources.evidenceStatusEntry :
    evidenceStatusEntry primitives report' = evidenceStatusEntry primitives report := by
  funext evidence
  simp only [ProofEngine.evidenceStatusEntry, same.evidenceStatusById]

/-- Both reports have a state, and the states list the same facts. -/
theorem SameSources.sameView :
    ∃ state state', stateFromReportAndProof primitives report proof = .ok state ∧
      stateFromReportAndProof primitives report' other = .ok state' ∧ SameView state state' := by
  have statements := same.stateStatements
  rw [stateFromReportAndProof, stateFromReportAndProof, same.proofId, same.proofId']
  simp only [ne_eq, not_true_eq_false, if_false]
  refine ⟨_, _, rfl, rfl, ?_⟩
  constructor
  case cryptoValid => simp only [same.cryptographicValidity]
  case evidenceValid => simp only [same.evidenceValidity]
  case verifiedIssuers => exact statements.map _
  case attestationIds => exact statements.map _
  case windows =>
    simp only [List.zip_map']
    exact statements.map _
  case activeAttestationIds => exact same.reportLifecycle .active
  case supersededIds => exact same.reportLifecycle .superseded
  case relTypes => exact same.members.relationships.map _
  case evidenceKinds => exact same.members.evidence.map _
  case proofCreatedAt => exact same.members.createdAt
  case claims => exact statements.map _
  case edges =>
    rw [same.edgeFact]
    exact same.members.relationships.map _
  case delegations => exact statements.filterMap _
  case identityBindings => exact statements.filterMap _
  case evidenceBindings =>
    rw [same.evidenceBindingOf]
    exact (namedAttestations_perm same.members).filterMap _
  case vocabulariesUsed => exact vocabulariesUsed_perm same.members
  case vocabulariesDeclared => exact same.members.vocabularies
  case conflicts => exact same.conflicts
  case referencedProofs => exact same.members.referencedProofs
  case evidenceStatuses =>
    rw [same.evidenceStatusEntry]
    exact same.members.evidence.map _

end

/-! ## Proofs with reordered members -/

/-- Bytes that spell the same members in another order give the same proof id, and their runs the same
    verdicts, statuses and conflicts and, under every policy and denylist, the same decision. -/
theorem memberOrder_irrelevant (primitives : Primitives) (order order' : HashOrder) (ctx : VerifyCtx)
    (bytes bytes' : Bytes) (proof other : Proof)
    (read : (decodeStrict bytes ctx.limits >>= cborToProof ctx.limits) = .ok proof)
    (otherRead : (decodeStrict bytes' ctx.limits >>= cborToProof ctx.limits) = .ok other)
    (permuted : PermutedMembers proof other)
    (collisionFree : CollisionFree primitives (hashedInputs primitives proof)) :
    recomputedProofId primitives other = recomputedProofId primitives proof ∧
    ∀ report, verifyProof primitives order ctx bytes = .ok report →
      ∃ report', verifyProof primitives order' ctx bytes' = .ok report' ∧ SameFindings report report' ∧
        ∃ state state', stateFromReportAndProof primitives report proof = .ok state ∧
          stateFromReportAndProof primitives report' other = .ok state' ∧
          ∀ policy inputs, ∃ outcome outcome', evaluatePolicy state policy inputs = .ok outcome ∧
            evaluatePolicy state' policy inputs = .ok outcome' ∧ outcome'.decision = outcome.decision := by
  -- maps keyed by id keep the last of several members; here these are equal
  have determined := idsDetermine_of_read read collisionFree
  constructor
  · obtain ⟨_, _, parsed⟩ := bind_eq_ok.mp read
    obtain ⟨_, _, otherParsed⟩ := bind_eq_ok.mp otherRead
    rw [recomputedProofId_eq primitives (cborToProof_versions parsed),
      recomputedProofId_eq primitives (cborToProof_versions otherParsed), bindingOf_perm permuted]
  · intro report done
    obtain ⟨report', otherDone⟩ := verifyProof_of_inputs primitives order' bytes' (checkInputs_of_done done)
    obtain ⟨_, _, _, _, stages⟩ := stagesRan_of_read read done
    obtain ⟨_, _, _, _, stages'⟩ := stagesRan_of_read otherRead otherDone
    have same := stages.sameSources stages' determined permuted
    obtain ⟨state, state', projected, projected', view⟩ := same.sameView
    exact ⟨report', otherDone, same.toSameFindings, state, state', projected, projected',
      fun policy inputs => view.decision policy⟩

/-- The superseding proof with its events in the other order. -/
def reorderedProof : Proof := { supersedingProof with events := [settledEvent "acct:2", settledEvent "acct:1"] }

def reorderedBytes : Bytes := ((proofToCbor reorderedProof).toOption.map encodeCanonical).getD []

theorem reorderedProof_valid :
    reorderedBytes ≠ supersedingBytes ∧
      ∃ report, verifyProof supersedingPrimitives .inserted VerifyCtx.default reorderedBytes = .ok report ∧
        report.evidenceValidity = .valid := by
  have read : (decodeStrict reorderedBytes VerifyCtx.default.limits >>= cborToProof VerifyCtx.default.limits) =
      .ok reorderedProof := by decide +kernel
  have permuted : PermutedMembers supersedingProof reorderedProof :=
    ⟨rfl, rfl, rfl, .swap .., .refl _, .refl _, .refl _, rfl, rfl, rfl⟩
  have collisionFree : CollisionFree supersedingPrimitives
      (hashedInputs supersedingPrimitives supersedingProof) := by decide +kernel
  obtain ⟨report, done, valid⟩ := supersedingProof_valid
  obtain ⟨_, same⟩ := memberOrder_irrelevant supersedingPrimitives .inserted .inserted VerifyCtx.default _ _ _ _
    supersedingProof_read read permuted collisionFree
  obtain ⟨report', otherDone, findings, _⟩ := same report done
  refine ⟨?_, report', otherDone, findings.evidenceValidity.trans valid⟩
  intro equal
  rw [equal] at read
  -- the bytes differ, since they spell different lists of events
  have events := congrArg (Except.map Proof.events) (read.symm.trans supersedingProof_read)
  revert events
  decide +kernel

end ProofEngine
