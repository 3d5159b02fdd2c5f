import ProofEngine.Verify.FeedLaws

/-! # The feed requirement

A run may ask for status inputs (`requireStatusFeed`).  What it then counts is how many there are, embedded in
the proof or supplied with the context, not whether they take effect.  So an object without effect changes a
report exactly when it is the first input of such a run, and a proof can bring the input along itself. -/

namespace ProofEngine

open Text LastMap

/-! ## Verified attestations by their place in the proof -/

section
variable (primitives : Primitives) (ctx : VerifyCtx) (proof : Proof)

/-- The proof holds `content` under `id` with an envelope that verifies. -/
def Attested (id : String) (content : AttestationContent) : Prop :=
  ∃ stored ∈ proof.attestations, stored.content = content ∧ attestationMemberId primitives content = id ∧
    ∃ alg, verifyEntry primitives ctx stored id = .ok alg

/-- A verified statement that is within its time, as is every other one under its id. -/
structure InTime (id : String) (content : AttestationContent) : Prop where
  attested : Attested primitives ctx proof id content
  isStatement : isStatement content = true
  timely : ∀ other, Attested primitives ctx proof id other → ProofEngine.isStatement other = true →
    isTimely ctx other = true

end

section
variable {primitives : Primitives} {ctx : VerifyCtx} {proof : Proof}

theorem mem_verifyEntries_of {entries : List (StoredAttestation × String)} {entry : StoredAttestation} {id : String}
    {alg : Int64} (member : (entry, id) ∈ entries) (done : verifyEntry primitives ctx entry id = .ok alg) :
    (id, entry.content) ∈ (verifyEntries primitives ctx entries).2 := by
  induction entries with
  | nil => cases member
  | cons first entries inductionHypothesis =>
    obtain ⟨firstEntry, firstId⟩ := first
    simp only [verifyEntries]
    rcases List.mem_cons.mp member with same | member
    · cases same
      rw [done]
      exact List.mem_cons_self
    · have later := inductionHypothesis member
      split
      · exact later
      · exact List.mem_cons_of_mem _ later

theorem mem_verifiedSet {id : String} {content : AttestationContent} :
    (id, content) ∈ verifiedSet primitives ctx proof ↔ Attested primitives ctx proof id content := by
  rw [verifiedSet, proofEntries_eq]
  constructor
  · intro member
    obtain ⟨entry, alg, inEntries, rfl, done⟩ := mem_verifyEntries member
    obtain ⟨_, storedMember, same⟩ := List.mem_map.mp inEntries
    cases same
    exact ⟨entry, storedMember, rfl, rfl, alg, done⟩
  · rintro ⟨stored, storedMember, rfl, rfl, alg, done⟩
    exact mem_verifyEntries_of (List.mem_map.mpr ⟨stored, storedMember, rfl⟩) done

theorem mem_statements {id : String} {content : AttestationContent} :
    (id, content) ∈ statements (verifiedSet primitives ctx proof) ↔
      Attested primitives ctx proof id content ∧ isStatement content = true := by
  rw [statements, List.mem_filter, mem_verifiedSet]

theorem embeddedStatus_eq_nil :
    embeddedStatus (verifiedSet primitives ctx proof) = [] ↔
      ∀ id content, Attested primitives ctx proof id content → isStatement content = true := by
  rw [embeddedStatus, List.filter_eq_nil_iff]
  constructor
  · intro nothing id content attested
    have here := nothing (id, content) (mem_verifiedSet.mpr attested)
    rwa [Bool.not_eq_true', Bool.not_eq_false] at here
  · rintro plain ⟨id, content⟩ member
    rw [Bool.not_eq_true', Bool.not_eq_false]
    exact plain id content (mem_verifiedSet.mp member)

theorem mem_timeFailed {id : String} :
    id ∈ timeFailed ctx (verifiedSet primitives ctx proof) ↔
      ∃ content, Attested primitives ctx proof id content ∧ isStatement content = true ∧
        isTimely ctx content = false := by
  rw [timeFailed, List.mem_map]
  constructor
  · rintro ⟨⟨_, content⟩, member, rfl⟩
    rw [List.mem_filter, mem_statements, Bool.not_eq_true'] at member
    exact ⟨content, member.1.1, member.1.2, member.2⟩
  · rintro ⟨content, attested, plain, late⟩
    refine ⟨(id, content), ?_, rfl⟩
    rw [List.mem_filter, mem_statements, Bool.not_eq_true']
    exact ⟨⟨attested, plain⟩, late⟩

theorem inTime_iff {id : String} {content : AttestationContent} :
    InTime primitives ctx proof id content ↔
      (id, content) ∈ statements (verifiedSet primitives ctx proof) ∧
        id ∉ timeFailed ctx (verifiedSet primitives ctx proof) := by
  rw [mem_statements, mem_timeFailed]
  constructor
  · intro inTime
    refine ⟨⟨inTime.attested, inTime.isStatement⟩, ?_⟩
    rintro ⟨other, attested, plain, late⟩
    rw [inTime.timely other attested plain] at late
    cases late
  · rintro ⟨⟨attested, plain⟩, notLate⟩
    refine ⟨attested, plain, fun other otherAttested otherPlain => ?_⟩
    by_contra late
    exact notLate ⟨other, otherAttested, otherPlain, Bool.not_eq_true _ ▸ late⟩

/-! ## Statements nothing takes effect over -/

theorem lifecycleStatus_eq_active {entry : String × AttestationContent} :
    lifecycleStatus primitives ctx proof (verifiedSet primitives ctx proof) entry = .active ↔
      Untouched primitives ctx proof entry ∧ entry.1 ∉ timeFailed ctx (verifiedSet primitives ctx proof) ∧
        revocationStale ctx (verifiedSet primitives ctx proof) = false := by
  constructor
  · intro isActive
    have decided := lifecycleStatus_decided primitives ctx proof entry
    rw [isActive] at decided
    cases decided with
    | active untouched inTime fresh => exact ⟨untouched, inTime, fresh⟩
  · rintro ⟨untouched, inTime, fresh⟩
    rw [lifecycleStatus_untouched untouched, if_neg inTime, if_neg (by rw [fresh]; decide)]

theorem totalStatusInputs_eq_zero :
    totalStatusInputs ctx (verifiedSet primitives ctx proof) = 0 ↔
      ctx.statusObjects = [] ∧
        ∀ id content, Attested primitives ctx proof id content → isStatement content = true := by
  rw [totalStatusInputs, Nat.add_eq_zero_iff, List.length_eq_zero_iff, List.length_eq_zero_iff,
    embeddedStatus_eq_nil, and_comm]

/-- Without any status input nothing takes effect. -/
theorem untouched_of_noInputs (noInputs : totalStatusInputs ctx (verifiedSet primitives ctx proof) = 0)
    (entry : String × AttestationContent) : Untouched primitives ctx proof entry := by
  obtain ⟨noneSupplied, noneEmbedded⟩ := totalStatusInputs_eq_zero.mp noInputs
  have nothing : ∀ kind target atTime, ¬ TakesEffect primitives ctx proof kind target atTime := by
    intro kind target atTime takes
    obtain ⟨status, authentic, asserts, _⟩ := takesEffect_iff.mp takes
    -- a status object is embedded or supplied, and there is neither
    rcases authentic with ⟨id, member⟩ | ⟨object, member, _⟩
    · have plain := noneEmbedded id status (mem_verifiedSet.mp member)
      rw [asserts.isStatus] at plain
      cases plain
    · rw [noneSupplied] at member
      cases member
  exact ⟨fun ⟨_, _, takes, _⟩ => nothing _ _ _ takes, fun ⟨_, takes⟩ => nothing _ _ _ takes,
    fun ⟨_, takes⟩ => nothing _ _ _ takes⟩

end

/-! ## Objects without effect -/

section
variable (primitives : Primitives) (ctx : VerifyCtx) (proof : Proof)

/-- Why a supplied object has no effect: its signature or encoding is rejected, it is no status claim, its
    claim cannot be read, its issuer has no power over the target, or it is dated after the clock. -/
inductive Ineffective (object : SignedStatus) : Prop where
  | rejected {failure : ProofError}
      (unsigned : verifyStatusObject primitives object.sign1 object.content.issuer ctx.allowedAlgs ctx.limits =
        .error failure)
  | statement {status : AttestationContent}
      (signed : verifyStatusObject primitives object.sign1 object.content.issuer ctx.allowedAlgs ctx.limits =
        .ok status) (plain : isStatement status = true)
  | malformed {status : AttestationContent}
      (signed : verifyStatusObject primitives object.sign1 object.content.issuer ctx.allowedAlgs ctx.limits =
        .ok status) (unreadable : ∀ kind target atTime, ¬ Asserts status kind target atTime)
  | powerless {status : AttestationContent}
      (signed : verifyStatusObject primitives object.sign1 object.content.issuer ctx.allowedAlgs ctx.limits =
        .ok status)
      (denied : ∀ kind target atTime, Asserts status kind target atTime →
        empowered primitives ctx proof (verifiedSet primitives ctx proof) (effectOf status kind target atTime) =
          false)
  | ahead {status : AttestationContent}
      (signed : verifyStatusObject primitives object.sign1 object.content.issuer ctx.allowedAlgs ctx.limits =
        .ok status) (future : ctx.verifiedAt < status.issuedAt)

/-- The run asks for status inputs and has none, its revocation information is fresh, and a statement is in
    time: any object at all then turns UNKNOWN into ACTIVE. -/
structure GateClosed : Prop where
  required : ctx.requireStatusFeed = true
  noneSupplied : ctx.statusObjects = []
  noneEmbedded : ∀ id content, Attested primitives ctx proof id content → isStatement content = true
  fresh : RevocationsFresh ctx
  standing : ∃ id content, InTime primitives ctx proof id content

end

/-- The statuses and the evidence verdict of two reports are the same. -/
structure SameStatuses (report report' : VerifyReport) : Prop where
  lifecycle : (report'.lifecycle.map fun record => (record.object, record.status)) =
    report.lifecycle.map fun record => (record.object, record.status)
  evidence : (report'.evidenceStatus.map fun record => (record.object, record.status)) =
    report.evidenceStatus.map fun record => (record.object, record.status)
  verdict : report'.evidenceValidity = report.evidenceValidity

/-- Only UNKNOWN may have changed, to the status of an item nothing is known against. -/
structure OnlyUnknownChanged (report report' : VerifyReport) : Prop where
  lifecycle : List.Forall₂ (fun record record' => record'.object = record.object ∧
    (record'.status = record.status ∨ record.status = .unknown ∧ record'.status = .active))
    report.lifecycle report'.lifecycle
  evidence : List.Forall₂ (fun record record' => record'.object = record.object ∧
    (record'.status = record.status ∨ record.status = .unknown ∧ record'.status = .available))
    report.evidenceStatus report'.evidenceStatus
  verdict : report.evidenceValidity = .valid → report'.evidenceValidity = .valid

section
variable {primitives : Primitives} {ctx : VerifyCtx} {proof : Proof} {before after : List SignedStatus}
  {object : SignedStatus}

theorem Ineffective.not_effective (ineffective : Ineffective primitives ctx proof object) :
    ¬ Effective primitives ctx proof object := by
  rintro ⟨status, verified, kind, target, atTime, asserts, power, time⟩
  cases ineffective with
  | rejected unsigned =>
    rw [verified] at unsigned
    cases unsigned
  | statement signed plain =>
    rw [verified] at signed
    cases signed
    rw [asserts.isStatus] at plain
    cases plain
  | malformed signed unreadable =>
    rw [verified] at signed
    cases signed
    exact unreadable _ _ _ asserts
  | powerless signed denied =>
    rw [verified] at signed
    cases signed
    rw [denied _ _ _ asserts] at power
    cases power
  | ahead signed future =>
    rw [verified] at signed
    cases signed
    rw [timely, Bool.and_eq_true, decide_eq_true_eq, decide_eq_true_eq] at time
    exact absurd future (UInt64.not_lt.mpr time.2)

/-- An object without effect adds no effect. -/
theorem sameEffects_insert (feed : ctx.statusObjects = before ++ after)
    (ineffective : ¬ Effective primitives ctx proof object) :
    SameEffects primitives proof ctx { ctx with statusObjects := before ++ object :: after } := by
  constructor
  · refine moreEffects_of_objects rfl rfl rfl (UInt64.le_refl _) fun status => .mono rfl rfl fun found member => ?_
    rw [feed] at member
    simp only [List.mem_append, List.mem_cons] at member ⊢
    exact member.imp_right Or.inr
  · intro kind target atTime takes
    obtain ⟨status, authentic, asserts, power, time⟩ := takesEffect_iff.mp takes
    rw [verifiedSet_feed] at power
    refine takesEffect_iff.mpr ⟨status, ?_, asserts, power, time⟩
    rcases authentic with ⟨id, member⟩ | ⟨found, member, signed⟩
    · rw [verifiedSet_feed] at member
      exact Or.inl ⟨id, member⟩
    · -- every other object was in the feed already
      rcases List.mem_append.mp member with early | late
      · exact Or.inr ⟨found, feed ▸ List.mem_append_left _ early, signed⟩
      · rcases List.mem_cons.mp late with rfl | late
        · exact absurd ⟨status, signed, kind, target, atTime, asserts, power, time⟩ ineffective
        · exact Or.inr ⟨found, feed ▸ List.mem_append_right _ late, signed⟩

/-- With an object in the feed only the age of the information matters. -/
theorem revocationStale_insert {verified : VerifiedSet} :
    revocationStale { ctx with statusObjects := before ++ object :: after } verified = false ↔
      RevocationsFresh ctx := by
  rw [revocationStale_eq_false]
  -- the gate counts objects, whether they verify or not
  have counted : totalStatusInputs { ctx with statusObjects := before ++ object :: after } verified ≠ 0 := by
    simp [totalStatusInputs]
  exact ⟨And.left, fun fresh => ⟨fresh, fun gate => counted gate.2⟩⟩

/-- Unless the object is the first input of a run that asks for one, it leaves staleness as it is. -/
theorem revocationStale_insert_eq
    (notFirst : ¬ (ctx.requireStatusFeed = true ∧ totalStatusInputs ctx (verifiedSet primitives ctx proof) = 0 ∧
      RevocationsFresh ctx)) :
    revocationStale { ctx with statusObjects := before ++ object :: after } (verifiedSet primitives ctx proof) =
      revocationStale ctx (verifiedSet primitives ctx proof) := by
  have same : revocationStale { ctx with statusObjects := before ++ object :: after }
      (verifiedSet primitives ctx proof) = false ↔
      revocationStale ctx (verifiedSet primitives ctx proof) = false := by
    rw [revocationStale_insert, revocationStale_eq_false]
    exact ⟨fun fresh => ⟨fresh, fun gate => notFirst ⟨gate.1, gate.2, fresh⟩⟩, And.left⟩
  cases left : revocationStale { ctx with statusObjects := before ++ object :: after }
      (verifiedSet primitives ctx proof) <;>
    cases right : revocationStale ctx (verifiedSet primitives ctx proof) <;> simp_all

/-- Behind a closed gate a statement in time is UNKNOWN, and ACTIVE once any object is there. -/
theorem GateClosed.statuses (closed : GateClosed primitives ctx proof)
    (same : SameEffects primitives proof ctx { ctx with statusObjects := before ++ object :: after }) {id : String}
    {content : AttestationContent} (inTime : InTime primitives ctx proof id content) :
    lifecycleStatus primitives ctx proof (verifiedSet primitives ctx proof) (id, content) = .unknown ∧
      lifecycleStatus primitives { ctx with statusObjects := before ++ object :: after } proof
        (verifiedSet primitives { ctx with statusObjects := before ++ object :: after } proof) (id, content) =
        .active := by
  have empty := totalStatusInputs_eq_zero.mpr ⟨closed.noneSupplied, closed.noneEmbedded⟩
  have untouched := untouched_of_noInputs empty (id, content)
  have notLate := (inTime_iff.mp inTime).2
  -- a required feed without inputs counts as stale, however fresh the information
  have stale : revocationStale ctx (verifiedSet primitives ctx proof) = true := by
    simp [revocationStale, closed.required, empty]
  constructor
  · rw [lifecycleStatus_untouched untouched, if_neg notLate, if_pos stale]
  · refine lifecycleStatus_eq_active.mpr ⟨untouched.mono same.2, ?_, revocationStale_insert.mpr closed.fresh⟩
    rw [verifiedSet_feed]
    exact notLate

/-- Each lifecycle status stays, unless the gate is closed and the statement in time. -/
theorem lifecycleStatus_insert
    (same : SameEffects primitives proof ctx { ctx with statusObjects := before ++ object :: after }) {id : String}
    {content : AttestationContent} (member : (id, content) ∈ statements (verifiedSet primitives ctx proof)) :
    lifecycleStatus primitives { ctx with statusObjects := before ++ object :: after } proof
        (verifiedSet primitives { ctx with statusObjects := before ++ object :: after } proof) (id, content) =
      lifecycleStatus primitives ctx proof (verifiedSet primitives ctx proof) (id, content) ∨
    GateClosed primitives ctx proof ∧ InTime primitives ctx proof id content := by
  by_cases first : ctx.requireStatusFeed = true ∧
      totalStatusInputs ctx (verifiedSet primitives ctx proof) = 0 ∧ RevocationsFresh ctx
  · by_cases late : id ∈ timeFailed ctx (verifiedSet primitives ctx proof)
    · -- EXPIRED is decided before staleness is looked at
      exact Or.inl (lifecycleStatus_congr same (verifiedSet_feed _) rfl (Or.inr late))
    · obtain ⟨required, empty, fresh⟩ := first
      obtain ⟨noneSupplied, noneEmbedded⟩ := totalStatusInputs_eq_zero.mp empty
      have inTime := inTime_iff.mpr ⟨member, late⟩
      exact Or.inr ⟨⟨required, noneSupplied, noneEmbedded, fresh, id, content, inTime⟩, inTime⟩
  · exact Or.inl (lifecycleStatus_congr same (verifiedSet_feed _) rfl (Or.inl (revocationStale_insert_eq first)))

theorem evidenceOutcome_backing (marked withdrawn hasRef : Bool) :
    (evidenceOutcome marked withdrawn hasRef (some .active)).1 =
      (evidenceOutcome marked withdrawn hasRef (some .unknown)).1 ∨
    (evidenceOutcome marked withdrawn hasRef (some .unknown)).1 = .unknown ∧
      (evidenceOutcome marked withdrawn hasRef (some .active)).1 = .available := by
  cases marked <;> cases withdrawn <;> simp [evidenceOutcome]

/-- The status of an evidence item follows the one of its backing statement. -/
theorem evidenceStatus_insert
    (same : SameEffects primitives proof ctx { ctx with statusObjects := before ++ object :: after })
    (item : Evidence × String) :
    (evidenceOutcomeOf primitives { ctx with statusObjects := before ++ object :: after } proof
        (verifiedSet primitives { ctx with statusObjects := before ++ object :: after } proof) item).1 =
      (evidenceOutcomeOf primitives ctx proof (verifiedSet primitives ctx proof) item).1 ∨
    (evidenceOutcomeOf primitives ctx proof (verifiedSet primitives ctx proof) item).1 = .unknown ∧
      (evidenceOutcomeOf primitives { ctx with statusObjects := before ++ object :: after } proof
        (verifiedSet primitives { ctx with statusObjects := before ++ object :: after } proof) item).1 =
        .available := by
  obtain ⟨evidence, id⟩ := item
  simp only [evidenceOutcomeOf, same.compromises_any, same.applies_any, lifecycleByAtt_lifecycle]
  cases evidence.attestationRef with
  | none => exact Or.inl rfl
  | some reference =>
    -- the backing statement is the same in both runs
    have backing : lastValue (statements (verifiedSet primitives
        { ctx with statusObjects := before ++ object :: after } proof)) reference =
        lastValue (statements (verifiedSet primitives ctx proof)) reference := by
      rw [verifiedSet_feed]
    simp only [Option.bind_some, backing]
    cases found : lastValue (statements (verifiedSet primitives ctx proof)) reference with
    | none => exact Or.inl rfl
    | some content =>
      simp only [Option.map_some]
      rcases lifecycleStatus_insert same (mem_of_lastValue found) with kept | ⟨closed, inTime⟩
      · rw [kept]
        exact Or.inl rfl
      · obtain ⟨isUnknown, isActive⟩ := closed.statuses same inTime
        rw [isUnknown, isActive]
        exact evidenceOutcome_backing _ _ _

end

section
variable {primitives : Primitives} {order order' : HashOrder} {ctx : VerifyCtx} {before after : List SignedStatus}
  {object : SignedStatus} {bytes : Bytes} {proof : Proof} {eventIds : List String} {recomputed : String}
  {report report' : VerifyReport}

theorem BothRan.sameStatuses
    (both : BothRan primitives order order' ctx { ctx with statusObjects := before ++ object :: after } bytes proof
      eventIds recomputed report report')
    (same : SameEffects primitives proof ctx { ctx with statusObjects := before ++ object :: after })
    (gateOpen : ¬ GateClosed primitives ctx proof) : SameStatuses report report' := by
  obtain ⟨lifecycles, evidence, verdict⟩ := both.statuses_eq same fun entry member =>
    (lifecycleStatus_insert same member).resolve_right fun changed => gateOpen changed.1
  exact ⟨by rw [lifecycles], by rw [evidence], verdict⟩

theorem BothRan.changes
    (both : BothRan primitives order order' ctx { ctx with statusObjects := before ++ object :: after } bytes proof
      eventIds recomputed report report')
    (same : SameEffects primitives proof ctx { ctx with statusObjects := before ++ object :: after })
    (closed : GateClosed primitives ctx proof) : ¬ SameStatuses report report' := by
  intro kept
  obtain ⟨id, content, inTime⟩ := closed.standing
  obtain ⟨isUnknown, isActive⟩ := closed.statuses same inTime
  obtain ⟨records, records'⟩ := both.lifecycle_eq (verifiedSet_feed _)
  have lifecycles := kept.lifecycle
  -- equal lists of statuses would be equal at the standing statement
  rw [records, records', List.map_map, List.map_map, List.map_inj_left] at lifecycles
  have statuses : lifecycleStatus primitives { ctx with statusObjects := before ++ object :: after } proof
      (verifiedSet primitives { ctx with statusObjects := before ++ object :: after } proof) (id, content) =
      lifecycleStatus primitives ctx proof (verifiedSet primitives ctx proof) (id, content) :=
    congrArg Prod.snd (lifecycles _ (inTime_iff.mp inTime).1)
  rw [isUnknown, isActive] at statuses
  cases statuses

theorem BothRan.onlyUnknownChanged
    (both : BothRan primitives order order' ctx { ctx with statusObjects := before ++ object :: after } bytes proof
      eventIds recomputed report report')
    (same : SameEffects primitives proof ctx { ctx with statusObjects := before ++ object :: after }) :
    OnlyUnknownChanged report report' := by
  obtain ⟨_, _, stages⟩ := both.first
  obtain ⟨_, _, stages'⟩ := both.second
  constructor
  case lifecycle =>
    refine both.forall_lifecycle (verifiedSet_feed _) fun entry member => ⟨rfl, ?_⟩
    rcases lifecycleStatus_insert same member with kept | ⟨closed, inTime⟩
    · exact Or.inl kept
    · exact Or.inr (closed.statuses same inTime)
  case evidence =>
    rw [stages.reported, stages'.reported]
    simp only [finalize, findings, evidenceStatusRecords]
    rw [List.forall₂_map_left_iff, List.forall₂_map_right_iff, List.forall₂_same]
    exact fun item _ => ⟨rfl, evidenceStatus_insert same item⟩
  case verdict =>
    intro valid
    -- behind a closed gate the standing statement is UNKNOWN, which fails
    have gateOpen : ¬ GateClosed primitives ctx proof := by
      intro closed
      obtain ⟨id, content, inTime⟩ := closed.standing
      have passes := (stages.evidenceValid_iff_parts.mp valid).2.lifecycles _ (inTime_iff.mp inTime).1
      rw [(closed.statuses same inTime).1] at passes
      cases passes
    rw [(both.sameStatuses same gateOpen).verdict, valid]

end

/-- An object without effect leaves every status and the evidence verdict as they are, except when it is the
    first status input of a run that asks for one; then it only turns UNKNOWN into ACTIVE. -/
theorem ineffective_inert (primitives : Primitives) (order order' : HashOrder) (ctx : VerifyCtx)
    (before after : List SignedStatus) (object : SignedStatus) (bytes : Bytes) (report report' : VerifyReport)
    (feed : ctx.statusObjects = before ++ after)
    (ineffective : ∀ proof, (decodeStrict bytes ctx.limits >>= cborToProof ctx.limits) = .ok proof →
      Ineffective primitives ctx proof object)
    (done : verifyProof primitives order ctx bytes = .ok report)
    (done' : verifyProof primitives order' { ctx with statusObjects := before ++ object :: after } bytes =
      .ok report') :
    (SameStatuses report report' ↔
      ¬ ∃ proof, (decodeStrict bytes ctx.limits >>= cborToProof ctx.limits) = .ok proof ∧
        GateClosed primitives ctx proof) ∧
    OnlyUnknownChanged report report' := by
  obtain ⟨proof, eventIds, recomputed, both⟩ | ⟨unread, same, _⟩ := verifyProof_pair done done' rfl
  · have same := sameEffects_insert feed (ineffective proof both.read).not_effective
    refine ⟨⟨?_, ?_⟩, both.onlyUnknownChanged same⟩
    · rintro kept ⟨other, read, closed⟩
      rw [both.read] at read
      cases read
      exact both.changes same closed kept
    · intro gateOpen
      exact both.sameStatuses same fun closed => gateOpen ⟨proof, both.read, closed⟩
  · subst same
    refine ⟨⟨fun _ ⟨proof, read, _⟩ => unread proof read, fun _ => ⟨rfl, rfl, rfl⟩⟩, ?_, ?_, id⟩
    · exact List.forall₂_same.mpr fun record _ => ⟨rfl, Or.inl rfl⟩
    · exact List.forall₂_same.mpr fun record _ => ⟨rfl, Or.inl rfl⟩

/-- A status object nobody signed. -/
def unsignedStatus : SignedStatus := { content := settledStatement "acct:2", sign1 := [] }

theorem signedProof_verifiedSet :
    verifiedSet signedPrimitives VerifyCtx.default signedProof =
      [("att:v1:7kq1WwZiKHeuDdR2pU-vaEfo1FhZ-pU0OJo5jc8-9CA", settledStatement "acct:2")] := by
  decide +kernel

theorem unsignedStatus_rejected (algs : AllowedAlgs) :
    ∃ failure, verifyStatusObject signedPrimitives unsignedStatus.sign1 unsignedStatus.content.issuer algs
      Limits.default = .error failure :=
  ⟨_, rfl⟩

/-- Where no feed is asked for, an unsigned object in the feed changes nothing. -/
theorem signedProof_inert :
    ∃ report report', verifyProof signedPrimitives .inserted signedContext.toVerifyCtx signedProofBytes = .ok report ∧
      verifyProof signedPrimitives .inserted
        { signedContext.toVerifyCtx with statusObjects := [] ++ unsignedStatus :: [] } signedProofBytes =
        .ok report' ∧ SameStatuses report report' := by
  obtain ⟨report, done⟩ :=
    @verifyProof_of_inputs signedPrimitives .inserted signedContext.toVerifyCtx signedProofBytes rfl
  obtain ⟨report', done'⟩ := @verifyProof_of_inputs signedPrimitives .inserted
    { signedContext.toVerifyCtx with statusObjects := [] ++ unsignedStatus :: [] } signedProofBytes rfl
  obtain ⟨failure, unsigned⟩ := unsignedStatus_rejected signedContext.toVerifyCtx.allowedAlgs
  have inert := ineffective_inert _ _ _ signedContext.toVerifyCtx [] [] unsignedStatus _ report report' rfl
    (fun proof _ => .rejected unsigned) done done'
  refine ⟨report, report', done, done', inert.1.mpr ?_⟩
  rintro ⟨_, _, closed⟩
  exact absurd closed.required (by decide)

/-- The same clock and freshness, in a run that asks for status inputs. -/
def gatedContext : VerifyCtx := { signedContext.toVerifyCtx with requireStatusFeed := true }

theorem signedProof_gateClosed : GateClosed signedPrimitives gatedContext signedProof := by
  have verified := (@verifiedSet_congr signedPrimitives gatedContext VerifyCtx.default rfl rfl
    signedProof).trans signedProof_verifiedSet
  refine ⟨rfl, rfl, embeddedStatus_eq_nil.mp ?_, ⟨1700000100, rfl, by decide⟩,
    "att:v1:7kq1WwZiKHeuDdR2pU-vaEfo1FhZ-pU0OJo5jc8-9CA", settledStatement "acct:2", inTime_iff.mpr ?_⟩
  · rw [verified]
    decide
  · rw [verified]
    decide

/-- An object nobody signed makes a statement ACTIVE that was UNKNOWN without it. -/
theorem unsignedStatus_changes :
    ∃ report report', verifyProof signedPrimitives .inserted gatedContext signedProofBytes = .ok report ∧
      verifyProof signedPrimitives .inserted { gatedContext with statusObjects := [] ++ unsignedStatus :: [] }
        signedProofBytes = .ok report' ∧
      Ineffective signedPrimitives gatedContext signedProof unsignedStatus ∧ ¬ SameStatuses report report' := by
  obtain ⟨report, done⟩ := @verifyProof_of_inputs signedPrimitives .inserted gatedContext signedProofBytes rfl
  obtain ⟨report', done'⟩ := @verifyProof_of_inputs signedPrimitives .inserted
    { gatedContext with statusObjects := [] ++ unsignedStatus :: [] } signedProofBytes rfl
  obtain ⟨failure, unsigned⟩ := unsignedStatus_rejected gatedContext.allowedAlgs
  have ineffective : Ineffective signedPrimitives gatedContext signedProof unsignedStatus := .rejected unsigned
  refine ⟨report, report', done, done', ineffective, ?_⟩
  obtain ⟨proof, eventIds, recomputed, both⟩ | ⟨unread, _⟩ := verifyProof_pair done done' rfl
  · have read : (decodeStrict signedProofBytes gatedContext.limits >>= cborToProof gatedContext.limits) =
        .ok signedProof := signedProof_read
    have isSigned := Except.ok.inj (both.read.symm.trans read)
    subst isSigned
    exact both.changes (sameEffects_insert rfl ineffective.not_effective) signedProof_gateClosed
  · exact absurd signedProof_read (unread signedProof)

/-! ## Inputs the proof brings along -/

/-- The proof embeds a verified status claim, revocation information is fresh, and a statement in time is left
    alone by the embedded claims. -/
structure EmbeddedFeed (primitives : Primitives) (ctx : VerifyCtx) (proof : Proof) : Prop where
  embedded : ∃ id content, Attested primitives ctx proof id content ∧ isStatement content = false
  fresh : RevocationsFresh ctx
  standing : ∃ id content, InTime primitives ctx proof id content ∧ Untouched primitives ctx proof (id, content)

theorem exists_active_iff {primitives : Primitives} {ctx : VerifyCtx} {proof : Proof}
    (required : ctx.requireStatusFeed = true) (noneSupplied : ctx.statusObjects = []) :
    (∃ entry ∈ statements (verifiedSet primitives ctx proof),
      lifecycleStatus primitives ctx proof (verifiedSet primitives ctx proof) entry = .active) ↔
      EmbeddedFeed primitives ctx proof := by
  -- nothing is supplied, so the inputs are the embedded status claims
  have inputs : totalStatusInputs ctx (verifiedSet primitives ctx proof) ≠ 0 ↔
      ∃ id content, Attested primitives ctx proof id content ∧ isStatement content = false := by
    rw [ne_eq, totalStatusInputs_eq_zero]
    simp only [noneSupplied, true_and, not_forall, exists_prop, Bool.not_eq_true]
  constructor
  · rintro ⟨⟨id, content⟩, member, isActive⟩
    obtain ⟨untouched, notLate, notStale⟩ := lifecycleStatus_eq_active.mp isActive
    -- ACTIVE needs an open gate
    obtain ⟨fresh, counted⟩ := revocationStale_eq_false.mp notStale
    exact ⟨inputs.mp fun empty => counted ⟨required, empty⟩, fresh, id, content,
      inTime_iff.mpr ⟨member, notLate⟩, untouched⟩
  · intro feed
    obtain ⟨id, content, inTime, untouched⟩ := feed.standing
    obtain ⟨member, notLate⟩ := inTime_iff.mp inTime
    exact ⟨(id, content), member, lifecycleStatus_eq_active.mpr ⟨untouched, notLate,
      revocationStale_eq_false.mpr ⟨feed.fresh, fun closed => inputs.mpr feed.embedded closed.2⟩⟩⟩

/-- In a run that asks for status inputs and is given none, a statement is ACTIVE exactly when the proof embeds
    a verified status claim, effective or not, and nothing else stands against the statement. -/
theorem active_iff_embeddedFeed (primitives : Primitives) (order : HashOrder) (ctx : VerifyCtx) (bytes : Bytes)
    (report : VerifyReport) (required : ctx.requireStatusFeed = true) (noneSupplied : ctx.statusObjects = [])
    (done : verifyProof primitives order ctx bytes = .ok report) :
    (∃ record ∈ report.lifecycle, record.status = .active) ↔
      ∃ proof, (decodeStrict bytes ctx.limits >>= cborToProof ctx.limits) = .ok proof ∧
        EmbeddedFeed primitives ctx proof := by
  obtain ⟨proof, eventIds, recomputed, both⟩ | ⟨unread, _, _, noRecords⟩ := verifyProof_pair done done rfl
  · have records := (both.lifecycle_eq rfl).1
    constructor
    · rintro ⟨record, member, isActive⟩
      rw [records, List.mem_map] at member
      obtain ⟨entry, entryMember, rfl⟩ := member
      exact ⟨proof, both.read, (exists_active_iff required noneSupplied).mp ⟨entry, entryMember, isActive⟩⟩
    · rintro ⟨other, read, feed⟩
      rw [both.read] at read
      cases read
      obtain ⟨entry, entryMember, isActive⟩ := (exists_active_iff required noneSupplied).mpr feed
      rw [records]
      exact ⟨_, List.mem_map_of_mem entryMember, isActive⟩
  · rw [noRecords]
    exact ⟨fun ⟨_, member, _⟩ => (nomatch member), fun ⟨proof, read, _⟩ => absurd read (unread proof)⟩

/-- Without an embedded status claim the statement of the signed proof is not ACTIVE. -/
theorem signedProof_notActive :
    ∃ report, verifyProof signedPrimitives .inserted gatedContext signedProofBytes = .ok report ∧
      ¬ ∃ record ∈ report.lifecycle, record.status = .active := by
  obtain ⟨report, done⟩ := @verifyProof_of_inputs signedPrimitives .inserted gatedContext signedProofBytes rfl
  refine ⟨report, done, ?_⟩
  rw [active_iff_embeddedFeed _ _ gatedContext _ _ rfl rfl done]
  rintro ⟨proof, read, feed⟩
  have isSigned := Except.ok.inj
    ((show (decodeStrict signedProofBytes gatedContext.limits >>= cborToProof gatedContext.limits) =
      .ok signedProof from signedProof_read).symm.trans read)
  subst isSigned
  obtain ⟨id, content, attested, isStatus⟩ := feed.embedded
  rw [signedProof_gateClosed.noneEmbedded id content attested] at isStatus
  cases isStatus

/-- A revocation by the test key of a statement that is not in the proof. -/
def strayRevocation : AttestationContent where
  v := 1
  issuer := testIssuer
  subject := "acct:1"
  claim :=
    { claimType := "revoke"
      fields := [("target", .text "att:v1:EQB6Ylr9Kh3zUX-5cJsv6vjTYeMpcGrTKJ6z-c15wt4")] }
  issuedAt := 1700000050
  expiresAt := none
  evidenceRef := none

def strayBytes : Bytes := encodeCanonical (attestationToCbor strayRevocation)

def strayDigest : Bytes :=
  [0xe9, 0x8c, 0x04, 0xee, 0xa7, 0x5d, 0x2e, 0xc2, 0xb6, 0xd3, 0x3f, 0x84, 0xff, 0x36, 0x1c, 0x45,
   0x1a, 0x66, 0xb5, 0x15, 0x1f, 0x31, 0x00, 0x11, 0x5e, 0xe2, 0xd2, 0xe0, 0x38, 0x6a, 0x7d, 0x26]

/-- The test key's signature over the revocation. -/
def straySignature : Bytes :=
  [0x76, 0x71, 0x6d, 0x6e, 0xf5, 0x9e, 0x2c, 0x50, 0xc3, 0xb4, 0x26, 0x97, 0x5c, 0x83, 0x34, 0xa5,
   0x65, 0x58, 0xc6, 0xba, 0xc4, 0x71, 0x19, 0x2e, 0x3b, 0xbc, 0x71, 0x06, 0x26, 0x8b, 0xe1, 0x9f,
   0xca, 0x9a, 0x74, 0x12, 0x45, 0x82, 0xf8, 0xf4, 0xac, 0x52, 0x0d, 0x55, 0xba, 0xc0, 0x98, 0xb1,
   0x4a, 0x4a, 0x77, 0xe7, 0x6e, 0x7e, 0xce, 0x70, 0x82, 0xfb, 0x54, 0xfc, 0x23, 0x5f, 0xed, 0x0b]

/-- The signed proof with the revocation as a second member. -/
def strayProof : Proof :=
  { signedProof with
    proofId := "prf:v1:lcAP3gO_Zevpb-_t0RGKJE8F8mKNZJAVcCZQ54ww3o4"
    attestations := signedProof.attestations ++
      [{ content := strayRevocation
         sign1 := sign1Bytes (protectedBytes coseEd25519 testKey) strayBytes straySignature }] }

def strayMemberDigests : List (Bytes × Bytes) := [(statementBytes "acct:2", secondDigest), (strayBytes, strayDigest)]

def strayBindingDigest : Bytes :=
  [0x95, 0xc0, 0x0f, 0xde, 0x03, 0xbf, 0x65, 0xeb, 0xe9, 0x6f, 0xef, 0xed, 0xd1, 0x11, 0x8a, 0x24,
   0x4f, 0x05, 0xf2, 0x62, 0x8d, 0x64, 0x90, 0x15, 0x70, 0x26, 0x50, 0xe7, 0x8c, 0x30, 0xde, 0x8e]

/-- The digests of its two members and of its binding, and both signatures. -/
def strayPrimitives : Primitives :=
  Primitives.ofTable
    (strayMemberDigests ++
      [(encodeCanonical (bindingOf (Primitives.ofTable strayMemberDigests []) strayProof), strayBindingDigest)])
    [(testKey, sigStructure (protectedBytes coseEd25519 testKey) (statementBytes "acct:2"), secondSignature),
     (testKey, sigStructure (protectedBytes coseEd25519 testKey) strayBytes, straySignature)]

def strayProofBytes : Bytes := ((proofToCbor strayProof).toOption.map encodeCanonical).getD []

theorem strayProof_read :
    (decodeStrict strayProofBytes Limits.default >>= cborToProof Limits.default) = .ok strayProof := by
  decide +kernel

theorem strayProof_verifiedSet :
    verifiedSet strayPrimitives VerifyCtx.default strayProof =
      [("att:v1:7kq1WwZiKHeuDdR2pU-vaEfo1FhZ-pU0OJo5jc8-9CA", settledStatement "acct:2"),
        ("att:v1:6YwE7qddLsK20z-E_zYcRRpmtRUfMQARXuLS4DhqfSY", strayRevocation)] := by
  decide +kernel

/-- A proof that embeds a revocation without effect satisfies the feed requirement by itself. -/
theorem strayProof_active :
    gatedContext.requireStatusFeed = true ∧ gatedContext.statusObjects = [] ∧
      ∃ report, verifyProof strayPrimitives .inserted gatedContext strayProofBytes = .ok report ∧
        ∃ record ∈ report.lifecycle, record.status = .active := by
  obtain ⟨report, done⟩ := @verifyProof_of_inputs strayPrimitives .inserted gatedContext strayProofBytes rfl
  refine ⟨rfl, rfl, report, done, ?_⟩
  obtain ⟨_, _, _, _, stages⟩ :=
    @stagesRan_of_read strayPrimitives .inserted gatedContext _ _ _ strayProof_read done
  have verified := (@verifiedSet_congr strayPrimitives gatedContext VerifyCtx.default rfl rfl
    strayProof).trans strayProof_verifiedSet
  rw [stages.reported]
  simp only [finalize, findings, verified]
  decide +kernel

end ProofEngine
