import ProofEngine.Verify.EvidencePrecedence
import ProofEngine.Verify.MemberOrder

/-! # What the conflict records say

Divergent claims, denials and contradictions are grouped, merged and sorted together.  Read back by kind they are
exactly the oppositions among the verified statements, and recording them changes no verdict. -/

namespace ProofEngine

open StableSort Text LastMap

/-! ## Oppositions -/

/-- What a record is about. -/
def ConflictRecord.topic (record : ConflictRecord) : String × String := (record.claimType, record.subject)

/-- The type and the subject of a statement. -/
def topicOf (content : AttestationContent) : String × String := (content.claim.claimType, content.subject)

section
variable (verified : VerifiedSet)

/-- The verified statements on a topic. -/
def topicMembers (topic : String × String) : VerifiedSet :=
  (statements verified).filter fun entry => topicOf entry.2 = topic

/-- The CONTRADICTS relationships between two verified statements. -/
def opposedEdges (proof : Proof) : List Relationship :=
  proof.relationships.filter fun edge => edge.relType = RelType.contradicts ∧
    edge.source ∈ (statements verified).map Prod.fst ∧ edge.target ∈ (statements verified).map Prod.fst

/-- The record of a contradiction is about the claim of the target. -/
structure RecordsContradiction (edge : Relationship) (record : ConflictRecord) : Prop where
  kind : record.kind = .contradiction
  topic : ∃ denied, statementById verified edge.target = some denied ∧ record.topic = topicOf denied
  ids : ∀ id, id ∈ record.attestationIds ↔ id = "att:" ++ edge.source ∨ id = "att:" ++ edge.target

/-- The topic of a denial: that of the denied statement or, where the target is none, the target as stated. -/
def denialTopic (denying : AttestationContent) (target : String) : String × String :=
  match statementById verified target with
  | some denied => topicOf denied
  | none => (denying.claim.claimType, "external:" ++ target)

/-- A verified statement denies the target. -/
def Denying (entry : String × AttestationContent) (target : String) : Prop :=
  entry ∈ statements verified ∧ denialTarget entry.2 = some target

structure ConflictsExact (proof : Proof) (records : List ConflictRecord) : Prop where
  divergent : ∀ topic, (∃ record ∈ records, record.kind = .divergentClaims ∧ record.topic = topic) ↔
    ∃ left ∈ topicMembers verified topic, ∃ right ∈ topicMembers verified topic, left.2.claim ≠ right.2.claim
  divergentIds : ∀ record ∈ records, record.kind = .divergentClaims →
    record.attestationIds = sortOn utf8 ((topicMembers verified record.topic).map fun entry => "att:" ++ entry.1)
  contradictions : ∃ matched, (records.filter fun record => record.kind = .contradiction).Perm matched ∧
    List.Forall₂ (RecordsContradiction verified) (opposedEdges verified proof) matched
  denied : ∀ entry target, Denying verified entry target →
    ∃! record, record ∈ records ∧ record.kind = .denial ∧ record.topic = denialTopic verified entry.2 target
  denialIds : ∀ record ∈ records, record.kind = .denial → ∀ id, id ∈ record.attestationIds ↔
    ∃ entry target, Denying verified entry target ∧ denialTopic verified entry.2 target = record.topic ∧
      (id = "att:" ++ entry.1 ∨ id = "att:" ++ target ∧ target ∈ (statements verified).map Prod.fst)
  contributed : ∀ record ∈ records, record.kind = .denial →
    ∃ entry target, Denying verified entry target ∧ denialTopic verified entry.2 target = record.topic
  once : ∀ kind, kind ≠ .contradiction → ((records.filter fun record => record.kind = kind).map (·.topic)).Nodup

end

/-! ## Groups -/

theorem mem_sortedUnique {ids : List String} {id : String} : id ∈ sortedUnique ids ↔ id ∈ ids := by
  -- the list is sorted by its bytes, which spell the text
  have same : sortedUnique ids = sortDedup utf8 ids := by
    rw [sortedUnique, sortDedup]
    congr!
  rw [same]
  constructor
  · exact mem_of_mem_sortDedup
  · intro member
    obtain ⟨kept, keptMember, sameBytes⟩ := @exists_mem_sortDedup _ _ _ utf8 _ _ member
    rwa [← utf8_injective sameBytes]

section
variable {α β : Type} {items : List ((String × String) × List α)} {key : String × String} {values : List α}

theorem map_fst_grouped : (grouped items).map Prod.fst = sortOn pairKey (items.map Prod.fst).dedup := by
  rw [grouped, List.map_map]
  exact List.map_id _

theorem nodup_grouped : ((grouped items).map Prod.fst).Nodup := by
  rw [map_fst_grouped, (sortOn_perm _ _).nodup_iff]
  exact List.nodup_dedup _

/-- A group for every key, with all that was added under it. -/
theorem mem_grouped :
    (key, values) ∈ grouped items ↔
      key ∈ items.map Prod.fst ∧ values = (items.filter fun item => item.1 = key).flatMap Prod.snd := by
  simp only [grouped, List.mem_map, mem_sortOn, List.mem_dedup, Prod.mk.injEq]
  constructor
  · rintro ⟨_, inside, rfl, rfl⟩
    exact ⟨inside, rfl⟩
  · rintro ⟨inside, rfl⟩
    exact ⟨key, inside, rfl, rfl⟩

theorem map_filterMap_sublist {γ : Type} {read : α → Option β} {label : β → γ} {tag : α → γ} {list : List α}
    (labelled : ∀ item found, read item = some found → label found = tag item) :
    ((list.filterMap read).map label).Sublist (list.map tag) := by
  induction list with
  | nil => exact .slnil
  | cons item list inductionHypothesis =>
    rw [List.filterMap_cons, List.map_cons]
    cases here : read item with
    | none => exact inductionHypothesis.cons _
    | some found =>
      rw [List.map_cons, labelled item found here]
      exact inductionHypothesis.cons_cons _

end

section
variable {verified : VerifiedSet}

/-! ## Divergent claims -/

theorem topicGroup_eq (topic : String × String) :
    (((statements verified).map fun entry => ((entry.2.claim.claimType, entry.2.subject), [entry])).filter
      fun item => item.1 = topic).flatMap Prod.snd = topicMembers verified topic := by
  rw [topicMembers, List.filter_map, List.flatMap_map]
  exact List.flatMap_singleton' _

theorem mem_divergences {record : ConflictRecord} :
    record ∈ divergences verified ↔ record.kind = .divergentClaims ∧
      (∃ left ∈ topicMembers verified record.topic, ∃ right ∈ topicMembers verified record.topic,
        left.2.claim ≠ right.2.claim) ∧
      record.attestationIds =
        sortOn utf8 ((topicMembers verified record.topic).map fun entry => "att:" ++ entry.1) := by
  have opposed : ∀ {first : String × AttestationContent} {others : VerifiedSet},
      (others.isEmpty || (first :: others).all fun member => member.2.claim = first.2.claim) = false ↔
        ∃ left ∈ first :: others, ∃ right ∈ first :: others, left.2.claim ≠ right.2.claim := by
    intro first others
    rw [← Bool.not_eq_true, agrees_iff]
    push Not
    rfl
  rw [divergences, List.mem_filterMap]
  constructor
  · rintro ⟨⟨⟨claimType, subject⟩, members⟩, inside, found⟩
    obtain ⟨_, members_eq⟩ := mem_grouped.mp inside
    rw [topicGroup_eq] at members_eq
    cases members with
    | nil => cases found
    | cons first others =>
      simp only at found
      split at found
      · cases found
      · rename_i differ
        cases found
        rw [ConflictRecord.topic, ← members_eq]
        exact ⟨rfl, opposed.mp (Bool.eq_false_iff.mpr differ), rfl⟩
  · rintro ⟨kind, differ, ids⟩
    refine ⟨(record.topic, topicMembers verified record.topic), mem_grouped.mpr ⟨?_, (topicGroup_eq _).symm⟩, ?_⟩
    · obtain ⟨left, member, _⟩ := differ
      obtain ⟨inStatements, about⟩ := List.mem_filter.mp member
      rw [List.map_map]
      exact List.mem_map.mpr ⟨left, inStatements, of_decide_eq_true about⟩
    · cases listed : topicMembers verified record.topic with
      | nil =>
        rw [listed] at differ
        simp at differ
      | cons first others =>
        rw [listed] at differ ids
        simp only [opposed.mpr differ, Bool.false_eq_true, if_false, Option.some.injEq]
        rw [← ids, ← kind]
        rfl

theorem nodup_divergences : ((divergences verified).map ConflictRecord.topic).Nodup := by
  have topics : ((divergences verified).map ConflictRecord.topic).Sublist
      ((grouped ((statements verified).map fun entry =>
        ((entry.2.claim.claimType, entry.2.subject), [entry]))).map Prod.fst) := by
    apply map_filterMap_sublist
    rintro ⟨⟨claimType, subject⟩, members⟩ record found
    cases members with
    | nil => cases found
    | cons first others =>
      simp only at found
      split at found
      · cases found
      · cases found
        rfl
  exact topics.nodup nodup_grouped

/-! ## Denials -/

theorem isSome_statementById {id : String} :
    (statementById verified id).isSome = true ↔ id ∈ (statements verified).map Prod.fst := by
  rw [← Option.ne_none_iff_isSome, statementById, Ne, lastValue_eq_none]
  simp

/-- What a statement adds to the group of its denial. -/
theorem denialOf_eq_some {entry : String × AttestationContent} {topic : String × String} {ids : List String}
    (found : denialOf verified entry = some (topic, ids)) :
    ∃ target, denialTarget entry.2 = some target ∧ denialTopic verified entry.2 target = topic ∧
      ∀ id, id ∈ ids ↔
        id = "att:" ++ entry.1 ∨ id = "att:" ++ target ∧ target ∈ (statements verified).map Prod.fst := by
  obtain ⟨target, denies, found⟩ := Option.map_eq_some_iff.mp found
  refine ⟨target, denies, ?_⟩
  rw [denialTopic, ← isSome_statementById]
  cases named : statementById verified target with
  | some denied =>
    rw [named] at found
    cases found
    simp [mem_sortedUnique, topicOf]
  | none =>
    rw [named] at found
    cases found
    simp [mem_sortedUnique]

theorem exists_denialOf {entry : String × AttestationContent} {target : String}
    (denies : denialTarget entry.2 = some target) :
    ∃ ids, denialOf verified entry = some (denialTopic verified entry.2 target, ids) := by
  rw [denialOf, denies, denialTopic, Option.map_some]
  cases statementById verified target with
  | some denied => exact ⟨_, rfl⟩
  | none => exact ⟨_, rfl⟩

theorem mem_denials {record : ConflictRecord} :
    record ∈ denials verified ↔ record.kind = .denial ∧
      (∃ entry target, Denying verified entry target ∧ denialTopic verified entry.2 target = record.topic) ∧
      record.attestationIds = sortedUnique ((((statements verified).filterMap (denialOf verified)).filter
        fun item => item.1 = record.topic).flatMap Prod.snd) := by
  rw [denials, List.mem_map]
  constructor
  · rintro ⟨⟨⟨claimType, subject⟩, ids⟩, inside, rfl⟩
    obtain ⟨keyed, rfl⟩ := mem_grouped.mp inside
    obtain ⟨⟨topic, added⟩, item, rfl⟩ := List.mem_map.mp keyed
    obtain ⟨entry, member, found⟩ := List.mem_filterMap.mp item
    obtain ⟨target, denies, about, _⟩ := denialOf_eq_some found
    exact ⟨rfl, ⟨entry, target, ⟨member, denies⟩, about⟩, rfl⟩
  · rintro ⟨kind, ⟨entry, target, ⟨member, denies⟩, about⟩, ids⟩
    obtain ⟨added, found⟩ := @exists_denialOf verified _ _ denies
    refine ⟨(record.topic, _), mem_grouped.mpr ⟨?_, rfl⟩, ?_⟩
    · rw [← about]
      exact List.mem_map.mpr ⟨_, List.mem_filterMap.mpr ⟨entry, member, found⟩, rfl⟩
    · simp only [ConflictRecord.topic] at ids ⊢
      rw [← ids, ← kind]

theorem mem_denialIds {topic : String × String} {id : String} :
    id ∈ sortedUnique ((((statements verified).filterMap (denialOf verified)).filter
        fun item => item.1 = topic).flatMap Prod.snd) ↔
      ∃ entry target, Denying verified entry target ∧ denialTopic verified entry.2 target = topic ∧
        (id = "att:" ++ entry.1 ∨ id = "att:" ++ target ∧ target ∈ (statements verified).map Prod.fst) := by
  rw [mem_sortedUnique, List.mem_flatMap]
  constructor
  · rintro ⟨⟨found, ids⟩, inside, member⟩
    obtain ⟨item, same⟩ := List.mem_filter.mp inside
    obtain ⟨entry, entryMember, denial⟩ := List.mem_filterMap.mp item
    obtain ⟨target, denies, about, adds⟩ := denialOf_eq_some denial
    exact ⟨entry, target, ⟨entryMember, denies⟩, about.trans (of_decide_eq_true same), (adds id).mp member⟩
  · rintro ⟨entry, target, ⟨entryMember, denies⟩, about, named⟩
    obtain ⟨ids, denial⟩ := @exists_denialOf verified _ _ denies
    obtain ⟨other, deniesToo, _, adds⟩ := denialOf_eq_some denial
    obtain rfl : target = other := Option.some.inj (denies.symm.trans deniesToo)
    exact ⟨_, List.mem_filter.mpr ⟨List.mem_filterMap.mpr ⟨entry, entryMember, denial⟩, decide_eq_true about⟩,
      (adds id).mpr named⟩

theorem nodup_denials : ((denials verified).map ConflictRecord.topic).Nodup := by
  rw [denials, List.map_map]
  exact nodup_grouped

/-! ## Contradictions -/

theorem contradictions_recorded (proof : Proof) :
    List.Forall₂ (RecordsContradiction verified) (opposedEdges verified proof)
      ((contradictEdges proof).filterMap (contradictionOf verified)) := by
  rw [opposedEdges, contradictEdges]
  induction proof.relationships with
  | nil => exact .nil
  | cons edge edges inductionHypothesis =>
    by_cases contradicts : edge.relType = RelType.contradicts
    · have either : contradictionOf verified edge = none ∧
          ¬ (edge.source ∈ (statements verified).map Prod.fst ∧ edge.target ∈ (statements verified).map Prod.fst) ∨
          ∃ record, contradictionOf verified edge = some record ∧
            (edge.source ∈ (statements verified).map Prod.fst ∧ edge.target ∈ (statements verified).map Prod.fst) ∧
            RecordsContradiction verified edge record := by
        simp only [contradictionOf, ← isSome_statementById]
        cases source : statementById verified edge.source with
        | none => simp
        | some opposing =>
          cases target : statementById verified edge.target with
          | none => simp
          | some denied =>
            exact .inr ⟨_, rfl, by simp, rfl, ⟨denied, target, rfl⟩, fun id => by simp [mem_sortedUnique]⟩
      obtain ⟨unrecorded, apart⟩ | ⟨record, recorded, together, records⟩ := either
      · rw [List.filter_cons_of_neg (by simpa [contradicts] using apart),
          List.filter_cons_of_pos (by simpa using contradicts), List.filterMap_cons_none unrecorded]
        exact inductionHypothesis
      · rw [List.filter_cons_of_pos (by simpa [contradicts] using together),
          List.filter_cons_of_pos (by simpa using contradicts), List.filterMap_cons_some recorded]
        exact .cons records inductionHypothesis
    · rw [List.filter_cons_of_neg (by simp [contradicts]), List.filter_cons_of_neg (by simp [contradicts])]
      exact inductionHypothesis

/-! ## All records -/

theorem contradictionOf_kind {edge : Relationship} {record : ConflictRecord}
    (found : contradictionOf verified edge = some record) : record.kind = .contradiction := by
  rw [contradictionOf] at found
  split at found
  · cases found
    rfl
  · cases found

/-- Sorting keeps the records of each kind. -/
theorem filter_conflicts (proof : Proof) :
    ((conflicts proof verified).filter fun record => record.kind = .divergentClaims).Perm (divergences verified) ∧
      ((conflicts proof verified).filter fun record => record.kind = .contradiction).Perm
        ((contradictEdges proof).filterMap (contradictionOf verified)) ∧
      ((conflicts proof verified).filter fun record => record.kind = .denial).Perm (denials verified) := by
  have divergent : ∀ record ∈ divergences verified, record.kind = .divergentClaims :=
    fun record member => (mem_divergences.mp member).1
  have denial : ∀ record ∈ denials verified, record.kind = .denial := fun record member => (mem_denials.mp member).1
  have contradiction : ∀ record ∈ (contradictEdges proof).filterMap (contradictionOf verified),
      record.kind = .contradiction := by
    intro record member
    obtain ⟨_, _, found⟩ := List.mem_filterMap.mp member
    exact contradictionOf_kind found
  have keeps : ∀ {records : List ConflictRecord} {kind : ConflictKind},
      (∀ record ∈ records, record.kind = kind) → records.filter (fun record => record.kind = kind) = records := by
    intro records kind all
    exact List.filter_eq_self.mpr fun record member => decide_eq_true (all record member)
  have drops : ∀ {records : List ConflictRecord} {kind other : ConflictKind}, other ≠ kind →
      (∀ record ∈ records, record.kind = other) → records.filter (fun record => record.kind = kind) = [] := by
    intro records kind other apart all
    exact List.filter_eq_nil_iff.mpr fun record member => by simp [all record member, apart]
  have sorted := fun kind => (sortOn_perm conflictKey (divergences verified ++
    (contradictEdges proof).filterMap (contradictionOf verified) ++ denials verified)).filter
      fun record => decide (record.kind = kind)
  refine ⟨(sorted _).trans ?_, (sorted _).trans ?_, (sorted _).trans ?_⟩
  · rw [List.filter_append, List.filter_append, keeps divergent, drops (by decide) contradiction,
      drops (by decide) denial, List.append_nil, List.append_nil]
  · rw [List.filter_append, List.filter_append, drops (by decide) divergent, keeps contradiction,
      drops (by decide) denial, List.append_nil, List.nil_append]
  · rw [List.filter_append, List.filter_append, drops (by decide) divergent, drops (by decide) contradiction,
      keeps denial, List.nil_append, List.nil_append]

theorem conflicts_exact (proof : Proof) (verified : VerifiedSet) :
    ConflictsExact verified proof (conflicts proof verified) := by
  obtain ⟨divergent, contradiction, denial⟩ := @filter_conflicts verified proof
  have mem_of_kind : ∀ {record : ConflictRecord} {kind : ConflictKind} {records : List ConflictRecord},
      ((conflicts proof verified).filter fun record => record.kind = kind).Perm records →
        ((record ∈ conflicts proof verified ∧ record.kind = kind) ↔ record ∈ records) := by
    intro record kind records perm
    rw [← perm.mem_iff, List.mem_filter, decide_eq_true_eq]
  constructor
  case divergent =>
    intro topic
    constructor
    · rintro ⟨record, member, kind, rfl⟩
      exact (mem_divergences.mp ((mem_of_kind divergent).mp ⟨member, kind⟩)).2.1
    · intro opposed
      let record : ConflictRecord :=
        { kind := .divergentClaims
          claimType := topic.1
          subject := topic.2
          attestationIds := sortOn utf8 ((topicMembers verified topic).map fun entry => "att:" ++ entry.1) }
      have listed : record ∈ divergences verified := mem_divergences.mpr ⟨rfl, opposed, rfl⟩
      obtain ⟨member, kind⟩ := (mem_of_kind divergent).mpr listed
      exact ⟨record, member, kind, rfl⟩
  case divergentIds =>
    intro record member kind
    exact (mem_divergences.mp ((mem_of_kind divergent).mp ⟨member, kind⟩)).2.2
  case contradictions => exact ⟨_, contradiction, contradictions_recorded proof⟩
  case denied =>
    intro entry target denying
    let record : ConflictRecord :=
      { kind := .denial
        claimType := (denialTopic verified entry.2 target).1
        subject := (denialTopic verified entry.2 target).2
        attestationIds := sortedUnique ((((statements verified).filterMap (denialOf verified)).filter
          fun item => item.1 = denialTopic verified entry.2 target).flatMap Prod.snd) }
    have listed : record ∈ denials verified := mem_denials.mpr ⟨rfl, ⟨entry, target, denying, rfl⟩, rfl⟩
    refine ⟨record, ⟨((mem_of_kind denial).mpr listed).1, rfl, rfl⟩, ?_⟩
    rintro other ⟨member, kind, about⟩
    exact List.inj_on_of_nodup_map nodup_denials ((mem_of_kind denial).mp ⟨member, kind⟩) listed about
  case denialIds =>
    intro record member kind id
    rw [(mem_denials.mp ((mem_of_kind denial).mp ⟨member, kind⟩)).2.2]
    exact mem_denialIds
  case contributed =>
    intro record member kind
    exact (mem_denials.mp ((mem_of_kind denial).mp ⟨member, kind⟩)).2.1
  case once =>
    intro kind other
    cases kind with
    | divergentClaims => exact (divergent.map _).nodup_iff.mpr nodup_divergences
    | denial => exact (denial.map _).nodup_iff.mpr nodup_denials
    | contradiction => exact absurd rfl other

end

/-! ## Runs -/

/-- The checks the conflict stage leaves in the report. -/
def conflictStage (proof : Proof) (verified : VerifiedSet) : List CheckRecord :=
  contradictionNotes proof verified ++ (conflicts proof verified).map (conflictNote proof)

theorem conflictStage_ok {proof : Proof} {verified : VerifiedSet} {check : CheckRecord}
    (member : check ∈ conflictStage proof verified) : check.ok = true := by
  rw [conflictStage, List.mem_append, List.mem_map] at member
  obtain member | ⟨record, _, rfl⟩ := member
  · obtain ⟨edge, _, found⟩ := List.mem_filterMap.mp member
    split at found
    · cases found
    · cases found
      rfl
  · rfl

/-- Checks that passed say nothing about a verdict. -/
theorem stageValid_passed {earlier passed later : List CheckRecord} (ok : ∀ check ∈ passed, check.ok = true)
    (stages : List Stage) : stageValid (earlier ++ passed ++ later) stages = stageValid (earlier ++ later) stages := by
  have clean : (passed.any fun check => !check.ok && stages.contains check.stage) = false := by
    rw [List.any_eq_false]
    intro check member
    simp [ok check member]
  simp only [stageValid, List.any_append, clean, Bool.or_false]

/-- On every proof that parses, the conflict records are exactly the oppositions among the verified statements,
    and both verdicts are those of the checks without the conflict stage, which fails none. -/
theorem verifyProof_conflicts (primitives : Primitives) (order : HashOrder) (ctx : VerifyCtx) (bytes : Bytes)
    (proof : Proof) (report : VerifyReport)
    (read : (decodeStrict bytes ctx.limits >>= cborToProof ctx.limits) = .ok proof)
    (done : verifyProof primitives order ctx bytes = .ok report) :
    ConflictsExact (verifiedSet primitives ctx proof) proof report.conflicts ∧
      ∃ earlier, report.checks =
          earlier ++ conflictStage proof (verifiedSet primitives ctx proof) ++ [policyNote] ∧
        (∀ check ∈ conflictStage proof (verifiedSet primitives ctx proof), check.ok = true) ∧
        report.cryptographicValidity = stageValid (earlier ++ [policyNote]) cryptoStages ∧
        report.evidenceValidity = stageValid (earlier ++ [policyNote]) evidenceStages := by
  obtain ⟨value, eventIds, recomputed, graph, stages⟩ := stagesRan_of_read read done
  have passed : ∀ check ∈ conflictStage proof (verifiedSet primitives ctx proof), check.ok = true :=
    fun check member => conflictStage_ok member
  have split : ∃ earlier, openingChecks ctx proof value bytes ++
      memberChecks primitives ctx proof eventIds recomputed graph =
        earlier ++ conflictStage proof (verifiedSet primitives ctx proof) := by
    -- the stage comes last
    rw [memberChecks, conflictStage, List.append_assoc _ (contradictionNotes _ _), ← List.append_assoc]
    exact ⟨_, rfl⟩
  obtain ⟨earlier, split⟩ := split
  rw [stages.reported]
  refine ⟨conflicts_exact proof _, earlier, ?_, passed, ?_, ?_⟩
  · simp only [finalize, split]
  · simp only [finalize, split, stageValid_passed passed]
  · simp only [finalize, split, stageValid_passed passed, if_true]

/-- Two statements, one of which denies the other. -/
theorem opposedProof_conflicts :
    ∃ report, verifyProof opposedPrimitives .inserted endedContext opposedProofBytes = .ok report ∧
      ConflictsExact (verifiedSet opposedPrimitives endedContext opposedProof) opposedProof report.conflicts ∧
      ∃ record ∈ report.conflicts, record.kind = .divergentClaims ∧ record.topic = ("settled", "acct:2") := by
  obtain ⟨report, done⟩ := opposedProof_reported
  have exact := (verifyProof_conflicts _ _ endedContext _ _ _ opposedProof_read done).1
  refine ⟨report, done, exact, (exact.divergent _).mpr ?_⟩
  rw [opposedProof_verified]
  exact ⟨("att:v1:7kq1WwZiKHeuDdR2pU-vaEfo1FhZ-pU0OJo5jc8-9CA", settledStatement "acct:2"), by decide,
    ("att:v1:whlOmUkTOUHtrec9N9j2iM-lWd9ktgqJJg_2m_7mYWk", denyingStatement), by decide, by decide⟩

end ProofEngine
