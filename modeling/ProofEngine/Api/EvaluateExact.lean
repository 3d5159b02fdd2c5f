import ProofEngine.Api.Evaluate
import ProofEngine.Policy.MemberOrder
import ProofEngine.Policy.Pairing

/-! # When the service fails closed

A trust input of the wrong type is refused by most of the readers.  Flags and the denylist are read
with a default instead, and the denylist is not held to the bound of the library's gate. -/

namespace ProofEngine.Api

/-! ## Documented types -/

inductive FieldType where
  | u64
  | bool
  | strings
  | objects
  deriving DecidableEq, Repr

def isObject : Json → Bool
  | .object _ => true
  | _ => false

def FieldType.admits : FieldType → Json → Bool
  | .u64, value => value.asU64.isSome
  | .bool, value => value.asBool.isSome
  | .strings, .array items => items.all fun item => item.asStr.isSome
  | .objects, .array items => items.all isObject
  | _, _ => false

/-- The readers of these refuse what they cannot read. -/
def checkedInputs : List (String × FieldType) :=
  [("trusted", .strings), ("authority", .strings), ("status", .objects), ("clock", .u64), ("skew", .u64),
   ("revocations_known_at", .u64), ("extra_grounded", .strings), ("accepted_vocab", .strings)]

/-- The readers of these fall back on a default. -/
def defaultedInputs : List (String × FieldType) :=
  [("revoked", .strings), ("production", .bool), ("strict_current", .bool), ("require_acyclic", .bool)]

def trustInputs : List (String × FieldType) := checkedInputs ++ defaultedInputs

/-- One of the fields is there with another type. -/
def Mistyped (fields : List (String × FieldType)) (v : Json) : Prop :=
  ∃ field ∈ fields, ∃ value, v.get field.1 = some value ∧ field.2.admits value = false

/-! ## What has to hold of the service -/

/-- Where the context of the pipeline is the one of the gate. -/
def contextOf (ctx : VerifyCtx) : VerificationContext where
  verifiedAt := ctx.verifiedAt
  clockSkewLeeway := ctx.clockSkewLeeway
  allowedAlgs := ctx.allowedAlgs
  trustedIssuers := ctx.trustedIssuers
  revocationAuthorities := ctx.revocationAuthorities
  statusObjects := ctx.statusObjects
  revocationsKnownAt := ctx.revocationsKnownAt
  limits := ctx.limits
  allowRemote := ctx.allowRemote
  reportAllFailures := ctx.reportAllFailures
  acceptedVocabularies := ctx.acceptedVocabularies
  extraGrounded := ctx.extraGrounded
  requireAcyclicProvenance := ctx.requireAcyclicProvenance
  requireStatusFeed := ctx.requireStatusFeed

def reportedDecision (response : Response) : Option String :=
  ((response.body.get "outcome").bind (·.get "decision")).bind Json.asStr

section
variable (primitives : Primitives) (order : HashOrder)

/-- A mistyped trust input is answered with 400. -/
def FailsClosed (v : Json) : Prop :=
  Mistyped trustInputs v →
    ∃ response, evaluateRoute primitives order v Limits.default = .ok response ∧ response.status = 400

/-- A decision is the one of the gate on the same bytes, policy and context and the given denylist. -/
def AgreesWithGate (v : Json) : Prop :=
  ∀ response, evaluateRoute primitives order v Limits.default = .ok response → response.status = 200 →
    ∀ revoked, strList v "revoked" = .ok revoked →
      ∃ inputs decision, evaluateInputs primitives v Limits.default = .ok inputs ∧
        verifyAndEvaluate primitives order inputs.bytes (contextOf inputs.ctx) inputs.policy (.new revoked) =
          .ok decision ∧
        reportedDecision response = some decision.outcome.decision.asStr

/-- Inputs the pipeline turns down, or bytes that are no proof. -/
def Unanswerable (inputs : EvaluateInputs) : Prop :=
  Misused inputs.ctx ∨
    ∀ proof, (decodeStrict inputs.bytes Limits.default >>= cborToProof Limits.default) ≠ .ok proof

end

/-! ## Readers that refuse -/

section
variable {v value : Json} {name : String} {limits : Limits} {primitives : Primitives}

theorem u64Field_admits {required : Bool} {result : Option UInt64} (done : u64Field v name required = .ok result)
    (present : v.get name = some value) : FieldType.u64.admits value = true := by
  simp only [u64Field, present] at done
  cases number : value.asU64 with
  | none => simp [number] at done
  | some n => simp [FieldType.admits, number]

theorem strItem_isSome {item : Json} {s : String} (done : strItem name item = .ok s) : item.asStr.isSome = true := by
  cases text : item.asStr with
  | none => simp [strItem, text] at done
  | some t => rfl

/-- A loop that got through has passed every item. -/
theorem all_of_mapM {α β : Type} {step : α → Except String β} {test : α → Bool} {items : List α} {results : List β}
    (passes : ∀ item result, step item = .ok result → test item = true) (done : items.mapM step = .ok results) :
    items.all test = true := by
  rw [List.all_eq_true]
  intro item member
  obtain ⟨result, _, itemDone⟩ := exists_result_of_mem done member
  exact passes item result itemDone

theorem strList_admits {result : List String} (done : strList v name = .ok result)
    (present : v.get name = some value) : FieldType.strings.admits value = true := by
  simp only [strList, present] at done
  cases value with
  | array items => exact all_of_mapM (fun _ _ => strItem_isSome) done
  | _ => cases done

theorem mapM_strItem {items : List Json} (each : ∀ item ∈ items, item.asStr.isSome = true) :
    ∃ result, items.mapM (strItem name) = .ok result := by
  induction items with
  | nil => exact ⟨[], rfl⟩
  | cons item items inductionHypothesis =>
    obtain ⟨here, others⟩ := List.forall_mem_cons.mp each
    obtain ⟨s, text⟩ := Option.isSome_iff_exists.mp here
    obtain ⟨rest, done⟩ := inductionHypothesis others
    have first : strItem name item = .ok s := by rw [strItem, text]
    exact ⟨s :: rest, by rw [List.mapM_cons, first, ok_bind, done]; rfl⟩

theorem strList_of_admits (typed : ∀ value, v.get name = some value → FieldType.strings.admits value = true) :
    ∃ result, strList v name = .ok result := by
  cases present : v.get name with
  | none => exact ⟨[], by rw [strList, present]⟩
  | some value =>
    have admitted := typed value present
    cases value with
    | array items =>
      simp only [strList, present]
      exact mapM_strItem (List.all_eq_true.mp admitted)
    | _ => cases admitted

theorem parseStatuses_admits {statuses : List SignedStatus} (done : parseStatuses primitives v limits = .ok statuses)
    (present : v.get "status" = some value) : FieldType.objects.admits value = true := by
  simp only [parseStatuses, present] at done
  cases value with
  | array items =>
    have objects : items.zipIdx.all (fun item => isObject item.1) = true := by
      refine all_of_mapM ?_ done
      rintro ⟨item, i⟩ status parsed
      -- only objects have an issuer
      cases item with
      | object entries => rfl
      | _ => cases parsed
    rw [FieldType.admits, List.all_eq_true]
    intro item member
    rw [← List.zipIdx_map_fst 0 items] at member
    obtain ⟨numbered, inside, rfl⟩ := List.mem_map.mp member
    exact List.all_eq_true.mp objects numbered inside
  | _ => cases done

theorem acceptedVocab_admits {accepted : List VocabularyAccept} (done : acceptedVocab v = .ok accepted)
    (present : v.get "accepted_vocab" = some value) : FieldType.strings.admits value = true := by
  simp only [acceptedVocab, present] at done
  cases value with
  | array items =>
    refine all_of_mapM ?_ done
    intro item accepted parsed
    cases text : item.asStr with
    | none => simp [vocabularyAccept, text] at parsed
    | some s => rfl
  | _ => cases done

/-- A context is read from well-typed fields only. -/
theorem contextFrom_typed {ctx : VerifyCtx} (done : contextFrom primitives v limits = .ok ctx) :
    ¬ Mistyped checkedInputs v := by
  simp only [contextFrom, bind_eq_ok] at done
  obtain ⟨_, vocab, _, clock, _, skew, _, trusted, _, status, _, authority, _, known, _, grounded, _⟩ := done
  rintro ⟨field, member, value, present, mistyped⟩
  refine absurd mistyped ?_
  rw [Bool.not_eq_false]
  simp only [checkedInputs, List.mem_cons, List.not_mem_nil, or_false] at member
  rcases member with rfl | rfl | rfl | rfl | rfl | rfl | rfl | rfl
  · exact strList_admits trusted present
  · exact strList_admits authority present
  · exact parseStatuses_admits status present
  · exact u64Field_admits clock present
  · exact u64Field_admits skew present
  · exact u64Field_admits known present
  · exact strList_admits grounded present
  · exact acceptedVocab_admits vocab present

end

/-! ## Answers -/

section
variable {v : Json} {primitives : Primitives} {order : HashOrder} {inputs : EvaluateInputs}

theorem evaluateInputs_context (read : evaluateInputs primitives v Limits.default = .ok inputs) :
    contextFrom primitives v Limits.default = .ok inputs.ctx := by
  simp only [evaluateInputs, bind_eq_ok] at read
  obtain ⟨bytes, _, read⟩ := read
  split at read
  · cases read
  · simp only [bind_eq_ok] at read
    obtain ⟨policy, _, ctx, context, read⟩ := read
    cases read
    exact context

theorem contextFrom_fields {ctx : VerifyCtx} (done : contextFrom primitives v Limits.default = .ok ctx) :
    ctx.limits = Limits.default ∧ strList v "trusted" = .ok ctx.trustedIssuers := by
  simp only [contextFrom, bind_eq_ok] at done
  obtain ⟨_, _, _, _, _, _, trusted, trustedDone, _, _, _, _, _, _, _, _, done⟩ := done
  cases done
  exact ⟨rfl, trustedDone⟩

theorem toVerifyCtx_contextOf (ctx : VerifyCtx) : (contextOf ctx).toVerifyCtx = ctx := rfl

/-- The policy sees the inputs the gate would give it. -/
theorem evalInputs_eq (read : evaluateInputs primitives v Limits.default = .ok inputs) :
    evalInputs v inputs.ctx =
      { EvalInputs.ofContext (contextOf inputs.ctx) with revocations := .new (denylist v) } := by
  rw [evalInputs, (contextFrom_fields (evaluateInputs_context read)).2]
  rfl

/-- The parts of an answer with a decision. -/
structure Answered (primitives : Primitives) (order : HashOrder) (v : Json) (inputs : EvaluateInputs)
    (report : VerifyReport) (state : VerifiedState) (outcome : PolicyOutcome) : Prop where
  verified : verifyProof primitives order inputs.ctx inputs.bytes = .ok report
  projected : ∃ value proof, decodeStrict inputs.bytes Limits.default = .ok value ∧
    cborToProof Limits.default value = .ok proof ∧ stateFromReportAndProof primitives report proof = .ok state
  evaluated : evaluatePolicy state inputs.policy (evalInputs v inputs.ctx) = .ok outcome
  answer : evaluateRoute primitives order v Limits.default = .ok (decided v report outcome)

theorem proofOf_eq_ok {bytes : Bytes} {limits : Limits} {proof : Proof} :
    proofOf bytes limits = .ok proof ↔ (decodeStrict bytes limits >>= cborToProof limits) = .ok proof := by
  simp only [proofOf, bind_eq_ok, labelled_eq_ok]

/-- A request that was read is answered with 422 or with a decision. -/
theorem evaluateRoute_of_inputs (order : HashOrder) (read : evaluateInputs primitives v Limits.default = .ok inputs) :
    (Unanswerable inputs ∧ ∃ body, evaluateRoute primitives order v Limits.default = .ok { status := 422, body }) ∨
      ¬ Unanswerable inputs ∧ ∃ report state outcome, Answered primitives order v inputs report state outcome := by
  have limits := (contextFrom_fields (evaluateInputs_context read)).1
  obtain ⟨proper, report, verified⟩ | ⟨misused, failure, failed⟩ :=
    verifyProof_cases primitives order inputs.ctx inputs.bytes
  · by_cases spelled :
        ∃ proof, (decodeStrict inputs.bytes Limits.default >>= cborToProof Limits.default) = .ok proof
    · obtain ⟨proof, spelled⟩ := spelled
      have here : (decodeStrict inputs.bytes inputs.ctx.limits >>= cborToProof inputs.ctx.limits) = .ok proof := by
        rwa [limits]
      obtain ⟨value, eventIds, recomputed, graph, stages⟩ := stagesRan_of_read here verified
      obtain ⟨state, projected⟩ : ∃ state, stateFromReportAndProof primitives report proof = .ok state :=
        stateFromReportAndProof_ok_iff.mpr stages.proofId_eq
      obtain ⟨outcome, evaluated, _⟩ := evaluatePolicy_decision state (evalInputs v inputs.ctx) inputs.policy
      have whole : projectedState primitives inputs.bytes Limits.default report = .ok state := by
        rw [projectedState, proofOf_eq_ok.mpr spelled, ok_bind, projected]
        rfl
      refine .inr ⟨?_, report, state, outcome, verified, ?_, evaluated, ?_⟩
      · rintro (misused | unread)
        · exact proper misused
        · exact unread proof spelled
      · obtain ⟨value, decoded, parsed⟩ := bind_eq_ok.mp spelled
        exact ⟨value, proof, decoded, parsed, projected⟩
      · simp only [evaluateRoute, read, verified, whole, evaluated, ok_bind]
    · refine .inl ⟨.inr fun proof here => spelled ⟨proof, here⟩, ?_⟩
      cases reread : proofOf inputs.bytes Limits.default with
      | ok proof => exact absurd ⟨proof, proofOf_eq_ok.mp reread⟩ spelled
      | error message =>
        simp only [evaluateRoute, read, verified, projectedState, reread, error_bind]
        exact ⟨_, rfl⟩
  · refine .inl ⟨.inl misused, ?_⟩
    simp only [evaluateRoute, read, failed]
    exact ⟨_, rfl⟩

theorem checkGateInputs_eq_ok {ctx : VerificationContext} {revocations : RevocationSet}
    (few : ctx.trustedIssuers.length ≤ ctx.limits.maxTrustedIssuers.toNat) :
    checkGateInputs ctx revocations = .ok () ↔
      revocations.revoked.length ≤ ctx.limits.maxStatusObjects.toNat := by
  rw [checkGateInputs, if_neg (not_lt.mpr few)]
  split
  · rename_i tooMany
    simp [tooMany]
  · rename_i fits
    simp [not_lt.mp fits]

/-- An answer is what the gate returns, as long as the gate takes the denylist. -/
theorem Answered.gate {report : VerifyReport} {state : VerifiedState} {outcome : PolicyOutcome}
    (answered : Answered primitives order v inputs report state outcome)
    (read : evaluateInputs primitives v Limits.default = .ok inputs) {decision : VerifiedDecision} :
    verifyAndEvaluate primitives order inputs.bytes (contextOf inputs.ctx) inputs.policy (.new (denylist v)) =
        .ok decision ↔
      (RevocationSet.new (denylist v)).revoked.length ≤ Limits.default.maxStatusObjects.toNat ∧
        decision = { report, state, outcome } := by
  have limits : (contextOf inputs.ctx).limits = Limits.default :=
    (contextFrom_fields (evaluateInputs_context read)).1
  obtain ⟨value, proof, decoded, parsed, projected⟩ := answered.projected
  have evaluated := answered.evaluated
  rw [evalInputs_eq read] at evaluated
  -- the pipeline has the same bound on the trusted issuers
  have few : (contextOf inputs.ctx).trustedIssuers.length ≤ (contextOf inputs.ctx).limits.maxTrustedIssuers.toNat := by
    obtain ⟨proper, _⟩ | ⟨_, _, failed⟩ := verifyProof_cases primitives order inputs.ctx inputs.bytes
    · exact not_lt.mp fun tooMany => proper (.inr (.inr (.inl tooMany)))
    · cases answered.verified.symm.trans failed
  have gate := @checkGateInputs_eq_ok _ (.new (denylist v)) few
  rw [limits] at gate
  rw [← gate]
  have passed : checkGateInputs (contextOf inputs.ctx) (.new (denylist v)) = .ok () →
      verifyAndEvaluate primitives order inputs.bytes (contextOf inputs.ctx) inputs.policy (.new (denylist v)) =
        .ok { report, state, outcome } := by
    intro admitted
    simp only [verifyAndEvaluate, admitted, Result.lift, ok_bind, toVerifyCtx_contextOf, answered.verified, limits,
      decoded, parsed, projected, evaluated]
  constructor
  · intro done
    have admitted := done
    simp only [verifyAndEvaluate, bind_eq_ok, Result.lift_eq_ok] at admitted
    obtain ⟨_, admitted, _⟩ := admitted
    cases (passed admitted).symm.trans done
    exact ⟨admitted, rfl⟩
  · rintro ⟨admitted, rfl⟩
    exact passed admitted

theorem reportedDecision_decided (report : VerifyReport) (outcome : PolicyOutcome) :
    reportedDecision (decided v report outcome) = some outcome.decision.asStr := rfl

theorem strList_denylist (typed : ¬ Mistyped defaultedInputs v) : strList v "revoked" = .ok (denylist v) := by
  obtain ⟨revoked, read⟩ : ∃ revoked, strList v "revoked" = .ok revoked := by
    refine strList_of_admits fun value present => ?_
    by_contra mistyped
    exact typed ⟨_, List.mem_cons_self, value, present, Bool.not_eq_true _ ▸ mistyped⟩
  rw [read, denylist, read]
  rfl

theorem Mistyped.of_mem {fields others : List (String × FieldType)} (within : fields ⊆ others)
    (mistyped : Mistyped fields v) : Mistyped others v := by
  obtain ⟨field, member, found⟩ := mistyped
  exact ⟨field, within member, found⟩

/-- A request that was read is not answered with 400. -/
theorem status_of_inputs (read : evaluateInputs primitives v Limits.default = .ok inputs) {response : Response}
    (answer : evaluateRoute primitives order v Limits.default = .ok response) : response.status ≠ 400 := by
  obtain ⟨_, body, refused⟩ | ⟨_, report, state, outcome, answered⟩ := evaluateRoute_of_inputs order read
  · cases answer.symm.trans refused
    exact show 422 ≠ 400 by decide
  · cases answer.symm.trans answered.answer
    exact show 200 ≠ 400 by decide

theorem evaluateRoute_unread {message : String} (unread : evaluateInputs primitives v Limits.default = .error message) :
    evaluateRoute primitives order v Limits.default = .ok { status := 400, body := errJson message } := by
  simp only [evaluateRoute, unread]

end

/-- Trust inputs fail closed and decisions agree with the gate exactly where the request is not read at all,
    or no defaulted field is mistyped and the denylist is within the bound of the gate, unless nothing is
    decided. -/
theorem evaluate_exact (primitives : Primitives) (order : HashOrder) (v : Json) :
    FailsClosed primitives order v ∧ AgreesWithGate primitives order v ↔
      ∀ inputs, evaluateInputs primitives v Limits.default = .ok inputs → ¬ Mistyped defaultedInputs v ∧
        (Unanswerable inputs ∨
          (RevocationSet.new (denylist v)).revoked.length ≤ Limits.default.maxStatusObjects.toNat) := by
  constructor
  · rintro ⟨closed, agrees⟩ inputs read
    have typed : ¬ Mistyped defaultedInputs v := fun mistyped => by
      obtain ⟨response, answer, refused⟩ := closed (mistyped.of_mem (List.subset_append_right _ _))
      exact status_of_inputs read answer refused
    refine ⟨typed, ?_⟩
    obtain ⟨unanswerable, _⟩ | ⟨_, report, state, outcome, answered⟩ := evaluateRoute_of_inputs order read
    · exact .inl unanswerable
    · obtain ⟨again, decision, reread, gate, _⟩ := agrees _ answered.answer rfl _ (strList_denylist typed)
      cases read.symm.trans reread
      exact .inr ((answered.gate read).mp gate).1
  · intro condition
    refine ⟨?_, ?_⟩
    · rintro ⟨field, member, found⟩
      cases read : evaluateInputs primitives v Limits.default with
      | error message => exact ⟨_, evaluateRoute_unread read, rfl⟩
      | ok inputs =>
        rcases List.mem_append.mp member with member | member
        · exact absurd ⟨field, member, found⟩ (contextFrom_typed (evaluateInputs_context read))
        · exact absurd ⟨field, member, found⟩ (condition inputs read).1
    · intro response answer success revoked revokedRead
      cases read : evaluateInputs primitives v Limits.default with
      | error message =>
        cases answer.symm.trans (evaluateRoute_unread read)
        cases success
      | ok inputs =>
        obtain ⟨typed, decidable⟩ := condition inputs read
        cases (strList_denylist typed).symm.trans revokedRead
        obtain ⟨_, body, refused⟩ | ⟨answerable, report, state, outcome, answered⟩ := evaluateRoute_of_inputs order read
        · cases answer.symm.trans refused
          cases success
        · cases answer.symm.trans answered.answer
          have fits := decidable.resolve_left answerable
          exact ⟨inputs, _, rfl, (answered.gate read).mpr ⟨fits, rfl⟩, reportedDecision_decided report outcome⟩

/-! ## A denylist that is not looked at -/

/-- The policy that no attestation is denied. -/
def undeniedPolicy : Json :=
  .object [("policy_id", .string "undenied"), ("policy_version", .number "1"),
    ("requirements", .array [.object [("type", .string "not_revoked")]])]

/-- A request to evaluate a proof that is valid on its own. -/
def leafRequest (revoked : Json) : Json :=
  .object [("clock", .number "1700000100"), ("policy", undeniedPolicy),
    ("proof", .object [("cbor_hex", .string (Hex.encode (bytesOf leafProof)))]), ("revoked", revoked)]

def leafInputs : EvaluateInputs where
  bytes := bytesOf leafProof
  policy := { version := 1, id := "undenied", requirements := [.notRevoked], expression := none }
  ctx := { VerifyCtx.default with verifiedAt := 1700000100 }

/-- Bytes in hex without a claimed id are taken as they are. -/
theorem proofBytes_of_hex {v : Json} {bytes : Bytes}
    (given : v.get "proof" = some (.object [("cbor_hex", .string (Hex.encode bytes))])) :
    proofBytes v = .ok bytes := by
  simp only [proofBytes, given]
  simp [Json.get, List.lookup_cons, Json.asStr, hexDecode, checkClaimed]

theorem leafRequest_read (revoked : Json) :
    evaluateInputs linkedPrimitives (leafRequest revoked) Limits.default = .ok leafInputs := by
  have bytes : proofBytes (leafRequest revoked) = .ok (bytesOf leafProof) := proofBytes_of_hex rfl
  have policy : parsePolicy linkedPrimitives Limits.default undeniedPolicy = .ok leafInputs.policy := rfl
  have context : contextFrom linkedPrimitives (leafRequest revoked) Limits.default = .ok leafInputs.ctx := rfl
  have given : (leafRequest revoked).get "policy" = some undeniedPolicy := rfl
  simp only [evaluateInputs, bytes, given, policy, context, labelled, ok_bind]
  rfl

/-- More ids than the gate takes. -/
def deniedIds : List String := (List.range 65).map fun n => String.ofList (List.replicate n 'x')

theorem deniedIds_nodup : deniedIds.Nodup := by
  refine (List.nodup_range).map fun left right same => ?_
  have lengths := congrArg (fun s : String => s.toList.length) same
  simpa using lengths

theorem mapM_strItem_string (name : String) (ids : List String) :
    (ids.map Json.string).mapM (strItem name) = .ok ids := by
  induction ids with
  | nil => rfl
  | cons id ids inductionHypothesis =>
    rw [List.map_cons, List.mapM_cons, inductionHypothesis]
    rfl

theorem revoked_new {ids : List String} (distinct : ids.Nodup) : (RevocationSet.new ids).revoked = ids :=
  distinct.dedup

/-- A denylist that is no list is answered as if there were none, and one over the bound of the gate is
    decided on. -/
theorem leafRequest_diverges :
    ¬ FailsClosed linkedPrimitives .inserted (leafRequest (.string leafId)) ∧
      ¬ AgreesWithGate linkedPrimitives .inserted (leafRequest (.array (deniedIds.map .string))) := by
  constructor
  · intro closed
    obtain ⟨response, answer, refused⟩ :=
      closed ⟨("revoked", .strings), by decide, .string leafId, rfl, rfl⟩
    exact status_of_inputs (leafRequest_read _) answer refused
  · intro agrees
    have read := leafRequest_read (.array (deniedIds.map .string))
    have denied : strList (leafRequest (.array (deniedIds.map .string))) "revoked" = .ok deniedIds :=
      mapM_strItem_string "revoked" deniedIds
    obtain ⟨unanswerable, _⟩ | ⟨_, report, state, outcome, answered⟩ := evaluateRoute_of_inputs .inserted read
    · rcases unanswerable with misused | unread
      · exact absurd misused (by simp [Misused, leafInputs, VerifyCtx.default])
      · exact unread leafProof leafProof_reads.1
    · obtain ⟨again, decision, reread, gate, _⟩ := agrees _ answered.answer rfl _ denied
      cases read.symm.trans reread
      have list : denylist (leafRequest (.array (deniedIds.map .string))) = deniedIds := by rw [denylist, denied]; rfl
      rw [← list] at gate
      have fits := ((answered.gate read).mp gate).1
      have bound : Limits.default.maxStatusObjects.toNat = 64 := rfl
      have count : deniedIds.length = 65 := by simp [deniedIds]
      rw [list, revoked_new deniedIds_nodup, bound, count] at fits
      omega

end ProofEngine.Api
