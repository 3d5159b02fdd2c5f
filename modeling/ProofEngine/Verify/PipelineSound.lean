import ProofEngine.Verify.Pipeline

/-! # What a report contains

A run either ends at PARSE or SCHEMA, or all stages ran on the parsed proof; the early exit after
CANONICAL is never taken. -/

namespace ProofEngine

open StableSort Text LastMap

/-! ## Which stage a check belongs to -/

/-- All checks belong to these stages. -/
def EmittedBy (stages : List Stage) (checks : List CheckRecord) : Prop :=
  ∀ check ∈ checks, check.stage ∈ stages

namespace EmittedBy

variable {stages : List Stage}

theorem append {first second : List CheckRecord} (firstBy : EmittedBy stages first)
    (secondBy : EmittedBy stages second) : EmittedBy stages (first ++ second) := by
  intro check member
  rcases List.mem_append.mp member with member | member
  · exact firstBy check member
  · exact secondBy check member

theorem singleton {check : CheckRecord} (inside : check.stage ∈ stages) : EmittedBy stages [check] := by
  intro other member
  rw [List.mem_singleton.mp member]
  exact inside

theorem nil : EmittedBy stages [] := fun _ member => nomatch member

theorem map {α : Type} {items : List α} {record : α → CheckRecord}
    (inside : ∀ item ∈ items, (record item).stage ∈ stages) : EmittedBy stages (items.map record) := by
  intro check member
  obtain ⟨item, itemMember, rfl⟩ := List.mem_map.mp member
  exact inside item itemMember

theorem filterMap {α : Type} {items : List α} {record : α → Option CheckRecord}
    (inside : ∀ item ∈ items, ∀ check, record item = some check → check.stage ∈ stages) :
    EmittedBy stages (items.filterMap record) := by
  intro check member
  obtain ⟨item, itemMember, found⟩ := List.mem_filterMap.mp member
  exact inside item itemMember check found

theorem flatMap {α : Type} {items : List α} {records : α → List CheckRecord}
    (inside : ∀ item ∈ items, EmittedBy stages (records item)) : EmittedBy stages (items.flatMap records) := by
  intro check member
  obtain ⟨item, itemMember, found⟩ := List.mem_flatMap.mp member
  exact inside item itemMember check found

theorem ite {condition : Prop} [Decidable condition] {first second : List CheckRecord}
    (firstBy : EmittedBy stages first) (secondBy : EmittedBy stages second) :
    EmittedBy stages (if condition then first else second) := by
  split
  · exact firstBy
  · exact secondBy

theorem weaken {wider : List Stage} {checks : List CheckRecord} (emitted : EmittedBy stages checks)
    (subset : stages ⊆ wider) : EmittedBy wider checks :=
  fun check member => subset (emitted check member)

end EmittedBy

section
variable {primitives : Primitives} {order : HashOrder} {ctx : VerifyCtx}

theorem vocabularyNotes_emittedBy (proof : Proof) : EmittedBy [.schema] (vocabularyNotes ctx proof) :=
  .map fun _ _ => List.mem_cons_self

theorem identifierCheck_stage (proof : Proof) (recomputed : String) :
    (identifierCheck proof recomputed).stage = .identifiers := by
  unfold identifierCheck
  split <;> rfl

theorem canonicalCheck_stage (proof : Proof) (value : CborValue) (bytes : Bytes) :
    (canonicalCheck proof value bytes).stage = .canonical := by
  unfold canonicalCheck
  split <;> rfl

theorem verifyEntries_emittedBy (entries : List (StoredAttestation × String)) :
    EmittedBy [.signatures, .keys] (verifyEntries primitives ctx entries).1 := by
  induction entries with
  | nil => exact .nil
  | cons first entries inductionHypothesis =>
    simp only [verifyEntries]
    split
    · rename_i failed here
      exact EmittedBy.append (.singleton (verifyEntry_eq_error here).1) inductionHypothesis
    · rename_i alg here
      exact EmittedBy.append (.singleton List.mem_cons_self)
        (EmittedBy.append (.singleton (by simp)) inductionHypothesis)

theorem signatureChecks_emittedBy (proof : Proof) :
    EmittedBy [.signatures, .keys] (signatureChecks primitives ctx proof) :=
  .append (verifyEntries_emittedBy _) (.ite (.singleton List.mem_cons_self) .nil)

theorem timeChecks_emittedBy (verified : VerifiedSet) : EmittedBy [.time] (timeChecks ctx verified) := by
  refine .map fun entry _ => ?_
  unfold timeCheck
  split <;> exact List.mem_cons_self

theorem statusEffect_error {object : String} {content : AttestationContent} {check : CheckRecord}
    (failed : statusEffect object content = .error check) : check.stage = .status ∧ check.ok = false := by
  simp only [statusEffect] at failed
  repeat' split at failed
  all_goals cases failed
  all_goals exact ⟨rfl, rfl⟩

theorem suppliedEffect_error {label : String} {status : SignedStatus} {check : CheckRecord}
    (failed : suppliedEffect primitives ctx label status = .error check) :
    check.stage = .status ∧ check.ok = false := by
  simp only [suppliedEffect] at failed
  split at failed
  · exact statusEffect_error failed
  · cases failed
    exact ⟨rfl, rfl⟩

/-- A status object without an effect leaves a failed STATUS check. -/
theorem statusResults_error {verified : VerifiedSet} {check : CheckRecord}
    (member : .error check ∈ statusResults primitives ctx verified) : check.stage = .status ∧ check.ok = false := by
  rw [statusResults, List.mem_append, List.mem_map, List.mem_map] at member
  rcases member with ⟨entry, _, done⟩ | ⟨supplied, _, done⟩
  · exact statusEffect_error done
  · exact suppliedEffect_error done

theorem mem_malformedChecks {verified : VerifiedSet} {check : CheckRecord} :
    check ∈ malformedChecks primitives ctx verified ↔ .error check ∈ statusResults primitives ctx verified := by
  simp only [malformedChecks, List.mem_filterMap]
  constructor
  · rintro ⟨result, member, found⟩
    cases result with
    | ok effect => cases found
    | error other =>
      cases found
      exact member
  · intro member
    exact ⟨_, member, rfl⟩

theorem malformedChecks_emittedBy (verified : VerifiedSet) :
    EmittedBy [.status] (malformedChecks primitives ctx verified) :=
  fun _ member => List.mem_singleton.mpr (statusResults_error (mem_malformedChecks.mp member)).1

theorem outcomeCheck_stage (stage : Stage) (object : String) (code : Option ErrorCode) (ok : Bool)
    (message : String) : (outcomeCheck stage object code ok message).stage = stage := by
  unfold outcomeCheck
  split <;> rfl

theorem revocationChecks_emittedBy (proof : Proof) (verified : VerifiedSet) :
    EmittedBy [.status, .revocation] (revocationChecks primitives ctx proof verified) := by
  refine .append (.append (.append ?_ ?_) ?_) ?_
  · exact (malformedChecks_emittedBy verified).weaken (by decide)
  · refine .flatMap fun effect _ => ?_
    exact .append (.ite .nil (.singleton List.mem_cons_self)) (.ite .nil (.singleton List.mem_cons_self))
  · refine .map fun entry _ => ?_
    rw [lifecycleCheck, outcomeCheck_stage]
    decide
  · refine .append (.append (.singleton ?_) (.ite (.singleton ?_) .nil)) (.ite (.singleton ?_) .nil) <;> simp

theorem evidenceChecks_emittedBy (proof : Proof) (verified : VerifiedSet) (nodes : NodeSet) :
    EmittedBy [.evidence] (evidenceChecks primitives ctx proof verified nodes) := by
  refine .append (.append (.append ?_ ?_) ?_) (.ite (.singleton List.mem_cons_self) .nil)
  · refine .filterMap fun stored _ check found => ?_
    repeat' split at found
    all_goals cases found
    exact List.mem_cons_self
  · refine .filterMap fun entry _ check found => ?_
    simp only [digestCheck] at found
    repeat' split at found
    all_goals cases found
    all_goals exact List.mem_cons_self
  · refine .map fun item _ => ?_
    rw [outcomeCheck_stage]
    exact List.mem_cons_self

theorem graphCheck_stage (object message : String) (result : Result Unit) :
    (graphCheck object message result).stage = .graph := by
  cases result <;> rfl

theorem graphFailureStage_mem (code : ErrorCode) :
    graphFailureStage code ∈ [Stage.relationships, .graph] := by
  cases code <;> decide

theorem graphChecks_emittedBy {proof : Proof} {nodes : NodeSet} {checks : List CheckRecord}
    (done : graphChecks primitives ctx order proof nodes = .ok checks) :
    EmittedBy [.relationships, .graph] checks := by
  simp only [graphChecks, bind_eq_ok] at done
  obtain ⟨validated, _, done⟩ := done
  split at done
  · cases done
    exact .singleton (graphFailureStage_mem _)
  · simp only [bind_eq_ok] at done
    obtain ⟨derivation, _, provenance, provenanceDone, done⟩ := done
    cases done
    refine .append ?_ ?_
    · intro check member
      simp only [List.mem_cons, List.not_mem_nil, or_false] at member
      rcases member with rfl | rfl | rfl <;> simp [graphCheck_stage]
    · simp only [provenanceChecks] at provenanceDone
      split at provenanceDone
      · simp only [bind_eq_ok] at provenanceDone
        obtain ⟨acyclic, _, provenanceDone⟩ := provenanceDone
        cases provenanceDone
        exact .singleton (by simp [graphCheck_stage])
      · cases provenanceDone
        exact .nil

theorem referenceShapeCheck_emittedBy (object proofId : String) (references : List String) :
    EmittedBy [.graph] (referenceShapeCheck primitives object proofId references) := by
  induction references with
  | nil => exact .nil
  | cons reference references inductionHypothesis =>
    simp only [referenceShapeCheck]
    split
    · exact .singleton List.mem_cons_self
    · exact .ite (.singleton List.mem_cons_self) inductionHypothesis

theorem referenceChecks_emittedBy (proof : Proof) :
    EmittedBy [.graph] (referenceChecks primitives ctx proof) := by
  refine .ite .nil (.append (.append (.append ?_ ?_) ?_) ?_)
  · exact .ite (.singleton List.mem_cons_self) .nil
  · exact .ite (.singleton List.mem_cons_self) .nil
  · exact referenceShapeCheck_emittedBy _ _ _
  · exact .ite (.singleton List.mem_cons_self) .nil

theorem memberChecks_emittedBy {proof : Proof} {eventIds : List String} {recomputed : String}
    {graph : List CheckRecord} (graphBy : EmittedBy [.relationships, .graph] graph) :
    EmittedBy ([.identifiers, .signatures, .keys, .status] ++ evidenceStages)
      (memberChecks primitives ctx proof eventIds recomputed graph) := by
  refine .append (.append (.append (.append (.append (.append (.append (.append ?_ ?_) ?_) ?_) ?_) ?_) ?_) ?_) ?_
  · exact .singleton (by rw [identifierCheck_stage]; decide)
  · exact (signatureChecks_emittedBy proof).weaken (by decide)
  · exact (timeChecks_emittedBy _).weaken (by decide)
  · exact (revocationChecks_emittedBy proof _).weaken (by decide)
  · exact (evidenceChecks_emittedBy proof _ _).weaken (by decide)
  · exact graphBy.weaken (by decide)
  · exact (referenceChecks_emittedBy proof).weaken (by decide)
  · refine .filterMap fun edge _ check found => ?_
    split at found
    · cases found
    · cases found
      rw [CheckRecord.note_stage]
      decide
  · exact .map fun record _ => by rw [conflictNote, CheckRecord.note_stage]; decide

/-! ## Runs -/

/-- All stages ran: `report` holds the checks and findings of every stage on `proof`. -/
structure StagesRan (primitives : Primitives) (order : HashOrder) (ctx : VerifyCtx) (bytes : Bytes)
    (value : CborValue) (proof : Proof) (eventIds : List String) (recomputed : String)
    (graph : List CheckRecord) (report : VerifyReport) : Prop where
  decoded : decodeStrict bytes ctx.limits = .ok value
  parsed : cborToProof ctx.limits value = .ok proof
  events : proof.events.mapM (memberEventId primitives) = .ok eventIds
  named : recomputedProofId primitives proof = .ok recomputed
  graphDone : graphChecks primitives ctx order proof (memberNodes primitives proof eventIds) = .ok graph
  reported : report = finalize (some proof.proofId)
    (openingChecks ctx proof value bytes ++ memberChecks primitives ctx proof eventIds recomputed graph)
    (findings primitives ctx proof) true

/-- How a run ends: at PARSE, at SCHEMA, or after all stages. -/
inductive Ran (primitives : Primitives) (order : HashOrder) (ctx : VerifyCtx) (bytes : Bytes) :
    VerifyReport → Prop where
  | unparsed {failure : ProofError} (failed : decodeStrict bytes ctx.limits = .error failure) :
      Ran primitives order ctx bytes
        (finalize none [.fail .parse "proof:bytes" failure.code failure.message] {} false)
  | misshapen {value : CborValue} {failure : ProofError} (decoded : decodeStrict bytes ctx.limits = .ok value)
      (failed : cborToProof ctx.limits value = .error failure) :
      Ran primitives order ctx bytes
        (finalize none [parseCheck, .fail .schema "proof:bytes" failure.code failure.message] {} false)
  | completed {value : CborValue} {proof : Proof} {eventIds : List String} {recomputed : String}
      {graph : List CheckRecord} {report : VerifyReport}
      (stages : StagesRan primitives order ctx bytes value proof eventIds recomputed graph report) :
      Ran primitives order ctx bytes report

theorem verifyMembers_eq_ok {proof : Proof} {checks : List CheckRecord} {report : VerifyReport}
    (done : verifyMembers primitives order ctx proof checks false = .ok report) :
    ∃ eventIds recomputed graph, proof.events.mapM (memberEventId primitives) = .ok eventIds ∧
      recomputedProofId primitives proof = .ok recomputed ∧
      graphChecks primitives ctx order proof (memberNodes primitives proof eventIds) = .ok graph ∧
      report = finalize (some proof.proofId)
        (checks ++ memberChecks primitives ctx proof eventIds recomputed graph)
        (findings primitives ctx proof) true := by
  simp only [verifyMembers, bind_eq_ok, Result.lift_eq_ok] at done
  obtain ⟨eventIds, events, recomputed, named, graph, graphDone, done⟩ := done
  cases done
  exact ⟨eventIds, recomputed, graph, events, named, graphDone, rfl⟩

/-- The exit after CANONICAL is never taken, since strict decoding accepts only canonical bytes. -/
theorem verifyProof_ran {bytes : Bytes} {report : VerifyReport}
    (done : verifyProof primitives order ctx bytes = .ok report) : Ran primitives order ctx bytes report := by
  simp only [verifyProof, bind_eq_ok] at done
  obtain ⟨_, _, done⟩ := done
  split at done
  · rename_i failure failed
    cases done
    exact .unparsed failed
  · rename_i value decoded
    split at done
    · rename_i failure failed
      cases done
      exact .misshapen decoded failed
    · rename_i proof parsed
      -- strictly decoded bytes are canonical, so the early exit is never taken
      have canonical := (decodeStrict_sound decoded).1
      simp only [← canonical, ne_eq, not_true_eq_false, decide_false, Bool.false_and, Bool.false_eq_true,
        if_false] at done
      obtain ⟨eventIds, recomputed, graph, events, named, graphDone, reported⟩ := verifyMembers_eq_ok done
      exact .completed ⟨decoded, parsed, events, named, graphDone, reported⟩

/-- On bytes that parse, all stages run. -/
theorem stagesRan_of_read {bytes : Bytes} {proof : Proof} {report : VerifyReport}
    (read : (decodeStrict bytes ctx.limits >>= cborToProof ctx.limits) = .ok proof)
    (done : verifyProof primitives order ctx bytes = .ok report) :
    ∃ value eventIds recomputed graph,
      StagesRan primitives order ctx bytes value proof eventIds recomputed graph report := by
  obtain ⟨value, decoded, parsed⟩ := bind_eq_ok.mp read
  cases verifyProof_ran done with
  | unparsed failed =>
    rw [decoded] at failed
    cases failed
  | misshapen otherDecoded failed =>
    rw [decoded] at otherDecoded
    cases otherDecoded
    rw [parsed] at failed
    cases failed
  | completed stages =>
    -- decoding and parsing are functions: the run saw this proof
    have sameValue := Except.ok.inj (stages.decoded.symm.trans decoded)
    subst sameValue
    have sameProof := Except.ok.inj (stages.parsed.symm.trans parsed)
    subst sameProof
    exact ⟨_, _, _, _, stages⟩

/-- A report with an id is about a proof that claims it. -/
theorem claims_of_report {bytes : Bytes} {report : VerifyReport} {id : String}
    (verified : verifyProof primitives order ctx bytes = .ok report) (named : report.proofId = some id) :
    ∃ proof, (decodeStrict bytes ctx.limits >>= cborToProof ctx.limits) = .ok proof ∧ proof.proofId = id := by
  cases verifyProof_ran verified with
  | unparsed failed => cases named
  | misshapen decoded failed => cases named
  | completed stages =>
    rw [stages.reported] at named
    exact ⟨_, bind_eq_ok.mpr ⟨_, stages.decoded, stages.parsed⟩, Option.some.inj named⟩

section
variable {bytes : Bytes} {value : CborValue} {proof : Proof} {eventIds : List String} {recomputed : String}
  {graph : List CheckRecord} {report : VerifyReport}
  (stages : StagesRan primitives order ctx bytes value proof eventIds recomputed graph report)
include stages

theorem StagesRan.proofId_eq : report.proofId = some proof.proofId := by
  rw [stages.reported]
  rfl

theorem StagesRan.cryptographicValidity_eq :
    report.cryptographicValidity = stageValid report.checks cryptoStages := by
  rw [stages.reported]
  rfl

theorem StagesRan.evidenceValidity_eq : report.evidenceValidity = stageValid report.checks evidenceStages := by
  rw [stages.reported]
  rfl

theorem StagesRan.lifecycle_eq :
    report.lifecycle = lifecycle primitives ctx proof (verifiedSet primitives ctx proof) := by
  rw [stages.reported]
  rfl

theorem StagesRan.statusObjects_eq :
    report.statusObjects = (embeddedStatus (verifiedSet primitives ctx proof)).map Prod.fst := by
  rw [stages.reported]
  rfl

theorem StagesRan.evidenceStatusRecords_eq :
    report.evidenceStatus = evidenceStatusRecords primitives ctx proof (verifiedSet primitives ctx proof) := by
  rw [stages.reported]
  rfl

end

/-- Bytes that parse, whose ids are `eventIds` and `recomputed` and whose graph gets a verdict, are
    reported on. -/
theorem verifyProof_of_stages {bytes : Bytes} {value : CborValue} {proof : Proof} {eventIds : List String}
    {recomputed : String} {graph : List CheckRecord} (inputs : checkInputs ctx = .ok ())
    (decoded : decodeStrict bytes ctx.limits = .ok value) (parsed : cborToProof ctx.limits value = .ok proof)
    (events : proof.events.mapM (memberEventId primitives) = .ok eventIds)
    (named : recomputedProofId primitives proof = .ok recomputed)
    (graphDone : graphChecks primitives ctx order proof (memberNodes primitives proof eventIds) = .ok graph) :
    verifyProof primitives order ctx bytes = .ok (finalize (some proof.proofId)
      (openingChecks ctx proof value bytes ++ memberChecks primitives ctx proof eventIds recomputed graph)
      (findings primitives ctx proof) true) := by
  have canonical := (decodeStrict_sound decoded).1
  simp only [verifyProof, inputs, Result.lift, ok_bind, decoded, parsed, ← canonical, ne_eq,
    not_true_eq_false, decide_false, Bool.false_and, Bool.false_eq_true, if_false, verifyMembers, events,
    named, graphDone]

/-! ## CANONICAL cannot fail -/

theorem openingChecks_ok {proof : Proof} {value : CborValue} {bytes : Bytes}
    (decoded : decodeStrict bytes ctx.limits = .ok value) {check : CheckRecord}
    (member : check ∈ openingChecks ctx proof value bytes) : check.ok = true := by
  have canonical := (decodeStrict_sound decoded).1
  rw [openingChecks, List.mem_append, List.mem_append] at member
  rcases member with (member | member) | member
  · simp only [List.mem_cons, List.not_mem_nil, or_false] at member
    rcases member with rfl | rfl <;> rfl
  · obtain ⟨text, _, rfl⟩ := List.mem_map.mp member
    rfl
  · rw [List.mem_singleton.mp member, canonicalCheck, if_neg (by simp [← canonical])]
    rfl

theorem Ran.canonical_ok {bytes : Bytes} {report : VerifyReport} (ran : Ran primitives order ctx bytes report)
    {check : CheckRecord} (member : check ∈ report.checks) (stage : check.stage = .canonical) :
    check.ok = true := by
  cases ran with
  | unparsed failed =>
    simp only [finalize, List.cons_append, List.nil_append, List.mem_cons, List.not_mem_nil, or_false] at member
    rcases member with rfl | rfl
    · cases stage
    · rfl
  | misshapen decoded failed =>
    simp only [finalize, List.cons_append, List.nil_append, List.mem_cons, List.not_mem_nil, or_false] at member
    rcases member with rfl | rfl | rfl
    · rfl
    · cases stage
    · rfl
  | completed stages =>
    simp only [stages.reported, finalize, List.mem_append, List.mem_singleton] at member
    rcases member with (member | member) | rfl
    · exact openingChecks_ok stages.decoded member
    · -- no later stage emits CANONICAL records
      have inside := memberChecks_emittedBy (graphChecks_emittedBy stages.graphDone) check member
      rw [stage] at inside
      exact absurd inside (by decide)
    · rfl

end

/-- Strict decoding accepts only canonical bytes, so the checks for canonical form that follow it never
    fail: neither in the codec nor in the pipeline. -/
theorem decodeStrict_only_canonical (bytes : Bytes) (limits : Limits) :
    (∀ value, decodeStrict bytes limits = .ok value →
      encodeCanonical value = bytes ∧ isCanonical bytes limits = .ok true) ∧
    decodeAndCheckCanonical bytes limits = decodeStrict bytes limits ∧
    ∀ primitives order ctx report, verifyProof primitives order ctx bytes = .ok report →
      ∀ check ∈ report.checks, check.stage = .canonical → check.ok = true := by
  refine ⟨fun value decoded => ?_, decodeAndCheckCanonical_eq bytes limits, ?_⟩
  · have canonical := (decodeStrict_sound decoded).1
    refine ⟨canonical.symm, ?_⟩
    simp only [isCanonical, decoded, ok_bind, ← canonical, beq_self_eq_true]
  · intro primitives order ctx report done check member stage
    exact (verifyProof_ran done).canonical_ok member stage

/-! ## Lifecycle of a report -/

/-- On every proof that parses, the report has one lifecycle record for each verified statement, in
    order, and its status is the first one that applies. -/
theorem verifyProof_lifecycle (primitives : Primitives) (order : HashOrder) (ctx : VerifyCtx) (bytes : Bytes)
    (proof : Proof) (report : VerifyReport)
    (read : (decodeStrict bytes ctx.limits >>= cborToProof ctx.limits) = .ok proof)
    (collisionFree : CollisionFree primitives
      (proof.attestations.map fun stored => encodeCanonical (attestationToCbor stored.content)))
    (done : verifyProof primitives order ctx bytes = .ok report) :
    report.lifecycleChecked = true ∧
      List.Forall₂ (fun entry record => record.object = "att:" ++ entry.1 ∧
          FirstApplying (StatusApplies primitives ctx proof entry.1 entry.2) record.status)
        (statements (verifiedSet primitives ctx proof)) report.lifecycle := by
  obtain ⟨value, eventIds, recomputed, graph, stages⟩ := stagesRan_of_read read done
  rw [stages.reported]
  exact ⟨rfl, lifecycle_first (verifiedSet_functional collisionFree)⟩

/-! ## A proof with one statement -/

/-- The bytes of the proof with one signed statement. -/
def signedProofBytes : Bytes := ((proofToCbor signedProof).toOption.map encodeCanonical).getD []

def signedDigest : Bytes :=
  [0xfd, 0xe0, 0x70, 0x3b, 0x30, 0x1f, 0x36, 0xb2, 0xae, 0x5f, 0xe5, 0x4b, 0xfe, 0x01, 0xcc, 0x11,
   0xa8, 0xcc, 0x92, 0xd3, 0x02, 0x9c, 0x53, 0xf8, 0xc6, 0x41, 0x22, 0x1e, 0xb5, 0xc1, 0x91, 0xd0]

/-- The digests of its statement and of its binding, and the one signature. -/
def signedPrimitives : Primitives :=
  Primitives.ofTable
    [(statementBytes "acct:2", secondDigest),
     (encodeCanonical (bindingOf statementPrimitives signedProof), signedDigest)]
    [(testKey, sigStructure (protectedBytes coseEd25519 testKey) (statementBytes "acct:2"), secondSignature)]

/-- A clock shortly after the statement, with fresh revocation information. -/
def signedContext : VerificationContext :=
  { VerificationContext.default with
    verifiedAt := 1700000100
    trustedIssuers := [testIssuer]
    revocationsKnownAt := some 1700000100
    requireStatusFeed := false }

theorem signedProof_read :
    (decodeStrict signedProofBytes Limits.default >>= cborToProof Limits.default) = .ok signedProof := by
  decide +kernel

end ProofEngine
