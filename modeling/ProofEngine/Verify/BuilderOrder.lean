import ProofEngine.Verify.Builder

/-! # The order of additions

Members with distinct ids and references are put in one order whatever order they were added in.  Declared
vocabularies are sorted by namespace alone and only the first declaration of a namespace is kept, so the order of
additions shows exactly where a namespace is declared at two versions. -/

namespace ProofEngine

open StableSort Text

/-- The same outcome: equal bytes and ids, or two refusals. -/
def SameOutcome : Result BuiltProof → Result BuiltProof → Prop
  | .ok left, .ok right => left.canonical = right.canonical ∧ left.id = right.id
  | .error _, .error _ => True
  | _, _ => False

theorem SameOutcome.refl (outcome : Result BuiltProof) : SameOutcome outcome outcome := by
  cases outcome with
  | ok built => exact ⟨rfl, rfl⟩
  | error failure => exact trivial

/-- Building gives the same outcome for every two orders of the additions. -/
def OrderIndependent (primitives : Primitives) (proposition : Proposition) (createdAt : UInt64) (limits : Limits)
    (calls : List BuilderCall) : Prop :=
  ∀ left right : List BuilderCall, left.Perm calls → right.Perm calls →
    SameOutcome ((builderOf primitives proposition createdAt left).build primitives limits)
      ((builderOf primitives proposition createdAt right).build primitives limits)

/-- No namespace is declared at two versions, refused declarations aside. -/
def ConsistentVersions (calls : List BuilderCall) : Prop :=
  ∀ ns version other, .addVocabulary ns version ∈ calls → .addVocabulary ns other ∈ calls →
    checkVocabularyNs ns = .ok () → version = other

/-- In no order do the additions build a proof. -/
def NoOrderBuilds (primitives : Primitives) (proposition : Proposition) (createdAt : UInt64) (limits : Limits)
    (calls : List BuilderCall) : Prop :=
  ∀ order built, order.Perm calls →
    (builderOf primitives proposition createdAt order).build primitives limits ≠ .ok built

/-! ## Consistent versions: one outcome -/

/-- Two builders that hold the same things in different orders. -/
structure ProofBuilder.Permuted (left right : ProofBuilder) : Prop where
  proposition : left.proposition = right.proposition
  createdAt : left.createdAt = right.createdAt
  events : left.events.Perm right.events
  attestations : left.attestations.Perm right.attestations
  evidence : left.evidence.Perm right.evidence
  relationships : left.relationships.Perm right.relationships
  referencedProofs : left.referencedProofs.Perm right.referencedProofs
  vocabularies : left.vocabularies.Perm right.vocabularies

theorem builderOf_permuted (primitives : Primitives) (proposition : Proposition) (createdAt : UInt64)
    {left right : List BuilderCall} (perm : left.Perm right) :
    (builderOf primitives proposition createdAt left).Permuted (builderOf primitives proposition createdAt right) := by
  rw [builderOf_eq, builderOf_eq]
  exact ⟨rfl, rfl, perm.filterMap _, perm.filterMap _, perm.filterMap _, perm.filterMap _, perm.filterMap _,
    perm.filterMap _⟩

section
variable {α : Type} {id : α → String} {items others : List α}

/-- The ids in order do not depend on the order of the members. -/
theorem sortedMemberIds_perm (perm : items.Perm others) :
    (sortOn (fun item => utf8 (id item)) items).map id = (sortOn (fun item => utf8 (id item)) others).map id := by
  rw [← sortOn_map utf8 id, ← sortOn_map utf8 id]
  exact sortOn_eq_of_perm utf8_injective (perm.map id)

/-- Members with distinct ids have one order. -/
theorem sortedMembers_perm (perm : items.Perm others)
    (distinct : ((sortOn (fun item => utf8 (id item)) others).map id).Nodup) :
    sortOn (fun item => utf8 (id item)) items = sortOn (fun item => utf8 (id item)) others := by
  have ids : (others.map id).Nodup := ((sortOn_perm _ others).map id).nodup_iff.mp distinct
  refine sortOn_eq_of_perm_nodup ?_ perm
  have keys := ids.map utf8_injective
  rwa [List.map_map] at keys

end

namespace ProofBuilder.Permuted

variable {left right : ProofBuilder}

theorem checkMembers_eq (permuted : left.Permuted right) :
    left.arrange.checkMembers = right.arrange.checkMembers := by
  simp only [ProofBuilder.checkMembers, ProofBuilder.arrange, sortedMemberIds_perm permuted.events,
    sortedMemberIds_perm permuted.attestations, sortedMemberIds_perm permuted.evidence,
    sortedMemberIds_perm permuted.relationships]

theorem arrange_eq (permuted : left.Permuted right) (distinct : right.arrange.Distinct)
    (consistent : ∀ declared ∈ right.vocabularies, ∀ other ∈ right.vocabularies,
      declared.ns = other.ns → declared = other) :
    left.arrange = right.arrange := by
  have references : sortDedup utf8 left.referencedProofs = sortDedup utf8 right.referencedProofs :=
    sortDedup_eq_of_mem_iff (fun _ _ _ _ same => utf8_injective same) fun _ => permuted.referencedProofs.mem_iff
  have vocabularies : sortDedup (fun declared => utf8 declared.ns) right.vocabularies =
      sortDedup (fun declared => utf8 declared.ns) left.vocabularies :=
    sortDedup_eq_of_mem_iff (fun declared member other otherMember same =>
      consistent declared member other otherMember (utf8_injective same))
      fun _ => permuted.vocabularies.symm.mem_iff
  rw [ProofBuilder.arrange, ProofBuilder.arrange, permuted.proposition, permuted.createdAt,
    sortedMembers_perm permuted.events distinct.events,
    sortedMembers_perm permuted.attestations distinct.attestations,
    sortedMembers_perm permuted.evidence distinct.evidence,
    sortedMembers_perm permuted.relationships distinct.relationships, references, vocabularies]

/-- The outcome is the same, error texts included. -/
theorem build_eq (permuted : left.Permuted right) (primitives : Primitives) (limits : Limits)
    (consistent : ∀ declared ∈ right.vocabularies, ∀ other ∈ right.vocabularies,
      declared.ns = other.ns → declared = other) :
    left.build primitives limits = right.build primitives limits := by
  have members := permuted.checkMembers_eq
  simp only [ProofBuilder.build, permuted.proposition, members]
  cases checked : right.arrange.checkMembers with
  | error failure => simp only [error_bind]
  | ok _ => rw [permuted.arrange_eq (checkMembers_eq_ok checked) consistent]

end ProofBuilder.Permuted

section
variable {primitives : Primitives} {proposition : Proposition} {createdAt : UInt64} {limits : Limits}
  {calls : List BuilderCall}

theorem mem_vocabularies {declared : VocabularyDecl} :
    declared ∈ (builderOf primitives proposition createdAt calls).vocabularies ↔
      .addVocabulary declared.ns declared.version ∈ calls ∧ checkVocabularyNs declared.ns = .ok () := by
  rw [builderOf_eq, List.mem_filterMap]
  constructor
  · rintro ⟨call, member, isDeclaration⟩
    cases call with
    | addVocabulary ns version =>
      simp only [BuilderCall.vocabulary?] at isDeclaration
      split at isDeclaration
      · rename_i accepted
        cases isDeclaration
        obtain ⟨_, done⟩ := exists_of_isOk accepted
        exact ⟨member, done⟩
      · cases isDeclaration
    | _ => cases isDeclaration
  · rintro ⟨member, accepted⟩
    exact ⟨_, member, by simp [BuilderCall.vocabulary?, accepted, Except.isOk, Except.toBool]⟩

/-- With consistent versions every order builds the same. -/
theorem orderIndependent_of_consistent (consistent : ConsistentVersions calls) :
    OrderIndependent primitives proposition createdAt limits calls := by
  intro left right leftPerm rightPerm
  have permuted := builderOf_permuted primitives proposition createdAt (leftPerm.trans rightPerm.symm)
  rw [permuted.build_eq primitives limits]
  · exact SameOutcome.refl _
  · intro declared member other otherMember sameNs
    obtain ⟨call, accepted⟩ := mem_vocabularies.mp member
    obtain ⟨otherCall, _⟩ := mem_vocabularies.mp otherMember
    rw [← sameNs] at otherCall
    have versions := consistent _ _ _ (rightPerm.mem_iff.mp call) (rightPerm.mem_iff.mp otherCall) accepted
    obtain ⟨ns, version⟩ := declared
    obtain ⟨otherNs, otherVersion⟩ := other
    cases sameNs
    cases versions
    rfl

/-! ## Two versions: the order shows -/

theorem canonical_eq_of_orderIndependent (independent : OrderIndependent primitives proposition createdAt limits calls)
    {left right : List BuilderCall} {built otherBuilt : BuiltProof} (leftPerm : left.Perm calls)
    (rightPerm : right.Perm calls)
    (done : (builderOf primitives proposition createdAt left).build primitives limits = .ok built)
    (otherDone : (builderOf primitives proposition createdAt right).build primitives limits = .ok otherBuilt) :
    built.canonical = otherBuilt.canonical := by
  have outcomes := independent _ _ leftPerm rightPerm
  rw [done, otherDone] at outcomes
  exact outcomes.1

/-- Bytes determine the proof they were built for. -/
theorem proof_eq_of_canonical {builder other : ProofBuilder} {built otherBuilt : BuiltProof}
    (done : builder.build primitives limits = .ok built) (otherDone : other.build primitives limits = .ok otherBuilt)
    (same : built.canonical = otherBuilt.canonical) : built.proof = otherBuilt.proof := by
  obtain ⟨_, _, _, _, _, read⟩ := build_eq_ok done
  obtain ⟨_, _, _, _, _, otherRead⟩ := build_eq_ok otherDone
  rw [same, otherRead] at read
  exact (Except.ok.inj read).symm

/-- A proof built with a declaration in front declares that version. -/
theorem built_declares_first {ns : String} {version : UInt64} {built : BuiltProof}
    (accepted : checkVocabularyNs ns = .ok ())
    (done : (builderOf primitives proposition createdAt (.addVocabulary ns version :: calls)).build primitives limits =
      .ok built) : ⟨ns, version⟩ ∈ built.proof.vocabularies := by
  obtain ⟨_, _, _, proofIs, _, _⟩ := build_eq_ok done
  have first : (builderOf primitives proposition createdAt (.addVocabulary ns version :: calls)).vocabularies =
      ⟨ns, version⟩ :: calls.filterMap BuilderCall.vocabulary? := by
    rw [builderOf_eq]
    simp [BuilderCall.vocabulary?, accepted, Except.isOk, Except.toBool]
  rw [proofIs]
  change _ ∈ sortDedup _ (builderOf primitives proposition createdAt _).vocabularies
  rw [first]
  exact mem_sortDedup_cons _ _ _

/-- If every order builds the same, the version of each accepted declaration is the one the proof declares. -/
theorem version_of_orderIndependent (independent : OrderIndependent primitives proposition createdAt limits calls)
    {order : List BuilderCall} {built : BuiltProof} (perm : order.Perm calls)
    (done : (builderOf primitives proposition createdAt order).build primitives limits = .ok built) {ns : String}
    {version : UInt64} (declared : .addVocabulary ns version ∈ calls) (accepted : checkVocabularyNs ns = .ok ()) :
    ⟨ns, version⟩ ∈ built.proof.vocabularies := by
  -- the order in which this declaration comes first
  have front := (List.perm_cons_erase declared).symm
  have outcomes := independent _ _ perm front
  rw [done] at outcomes
  cases frontDone : (builderOf primitives proposition createdAt
      (.addVocabulary ns version :: calls.erase (.addVocabulary ns version))).build primitives limits with
  | error failure =>
    rw [frontDone] at outcomes
    exact outcomes.elim
  | ok frontBuilt =>
    have same := canonical_eq_of_orderIndependent independent perm front done frontDone
    rw [proof_eq_of_canonical done frontDone same]
    exact built_declares_first accepted frontDone

theorem consistent_of_orderIndependent (independent : OrderIndependent primitives proposition createdAt limits calls)
    {order : List BuilderCall} {built : BuiltProof} (perm : order.Perm calls)
    (done : (builderOf primitives proposition createdAt order).build primitives limits = .ok built) :
    ConsistentVersions calls := by
  intro ns version other declared otherDeclared accepted
  have here := version_of_orderIndependent independent perm done declared accepted
  have there := version_of_orderIndependent independent perm done otherDeclared accepted
  obtain ⟨_, _, _, proofIs, _, _⟩ := build_eq_ok done
  rw [proofIs] at here there
  -- a proof declares a namespace once
  have same := sortDedup_key_inj here there rfl
  exact congrArg VocabularyDecl.version same

end

theorem orderIndependent_of_noOrderBuilds {primitives : Primitives} {proposition : Proposition} {createdAt : UInt64}
    {limits : Limits} {calls : List BuilderCall}
    (refused : NoOrderBuilds primitives proposition createdAt limits calls) :
    OrderIndependent primitives proposition createdAt limits calls := by
  intro left right leftPerm rightPerm
  cases done : (builderOf primitives proposition createdAt left).build primitives limits with
  | ok built => exact absurd done (refused left built leftPerm)
  | error failure =>
    cases otherDone : (builderOf primitives proposition createdAt right).build primitives limits with
    | ok built => exact absurd otherDone (refused right built rightPerm)
    | error otherFailure => exact trivial

/-- Additions build the same in every order exactly if their accepted declarations give every namespace one version,
    or no order of them builds at all. -/
theorem build_orderIndependent_iff (primitives : Primitives) (proposition : Proposition) (createdAt : UInt64)
    (limits : Limits) (calls : List BuilderCall) :
    OrderIndependent primitives proposition createdAt limits calls ↔
      ConsistentVersions calls ∨ NoOrderBuilds primitives proposition createdAt limits calls := by
  constructor
  · intro independent
    by_cases builds : NoOrderBuilds primitives proposition createdAt limits calls
    · exact .inr builds
    · simp only [NoOrderBuilds, not_forall, not_not] at builds
      obtain ⟨order, built, perm, done⟩ := builds
      exact .inl (consistent_of_orderIndependent independent perm done)
  · rintro (consistent | refused)
    · exact orderIndependent_of_consistent consistent
    · exact orderIndependent_of_noOrderBuilds refused

def acmeDigest : Bytes :=
  [0xc4, 0xc0, 0x2a, 0xa4, 0xd9, 0x90, 0x93, 0xf3, 0x46, 0xef, 0xe1, 0xbf, 0x7f, 0x53, 0xba, 0x4d,
   0xac, 0xed, 0x5e, 0xdc, 0x41, 0x2f, 0x16, 0xd4, 0x7d, 0xdd, 0xf2, 0x7e, 0xd1, 0x10, 0x61, 0x3b]

def raisedAcmeDigest : Bytes :=
  [0x1f, 0xd4, 0x83, 0x08, 0xcd, 0x0b, 0x37, 0xb7, 0xd1, 0xbe, 0x99, 0x01, 0x60, 0x9a, 0x46, 0x15,
   0xe1, 0x02, 0x59, 0xaa, 0xd9, 0x03, 0xdb, 0x65, 0xa6, 0x49, 0x82, 0xcf, 0x64, 0xb7, 0x0d, 0x4e]

/-- The binding of a proof that only declares `acme`. -/
def acmeBinding (version : UInt64) : Bytes :=
  encodeCanonical (proofBinding (propositionToCbor bareProof.proposition) 1700000000 [] [] [] [] []
    [{ ns := "acme", version }])

def acmePrimitives : Primitives :=
  Primitives.ofTable [(acmeBinding 1, acmeDigest), (acmeBinding 2, raisedAcmeDigest)] []

def acmeProof (version : UInt64) (proofId : String) : Proof :=
  { bareProof with proofId, vocabularies := [{ ns := "acme", version }] }

def acmeBuilt (version : UInt64) (id : String) : BuiltProof where
  proof := acmeProof version id
  canonical := ((proofToCbor (acmeProof version id)).toOption.map encodeCanonical).getD []
  id := id

theorem acme_builds :
    (builderOf acmePrimitives bareProof.proposition 1700000000
      [.addVocabulary "acme" 1, .addVocabulary "acme" 2]).build acmePrimitives Limits.default =
        .ok (acmeBuilt 1 "prf:v1:xMAqpNmQk_NG7-G_f1O6TaztXtxBLxbUfd3yftEQYTs") := by decide +kernel

theorem raisedAcme_builds :
    (builderOf acmePrimitives bareProof.proposition 1700000000
      [.addVocabulary "acme" 2, .addVocabulary "acme" 1]).build acmePrimitives Limits.default =
        .ok (acmeBuilt 2 "prf:v1:H9SDCM0LN7fRvpkBYJpGFeECWarZA9tlpkmCz2S3DU4") := by decide +kernel

/-- Declaring `acme` at versions 1 and 2: the proof declares whichever came first. -/
theorem acmeVersions_order_shows :
    ∃ first second,
      (builderOf acmePrimitives bareProof.proposition 1700000000
        [.addVocabulary "acme" 1, .addVocabulary "acme" 2]).build acmePrimitives Limits.default = .ok first ∧
      (builderOf acmePrimitives bareProof.proposition 1700000000
        [.addVocabulary "acme" 2, .addVocabulary "acme" 1]).build acmePrimitives Limits.default = .ok second ∧
      first.canonical ≠ second.canonical ∧ first.id ≠ second.id ∧
      ¬ OrderIndependent acmePrimitives bareProof.proposition 1700000000 Limits.default
        [.addVocabulary "acme" 1, .addVocabulary "acme" 2] := by
  have differ : (acmeBuilt 1 "prf:v1:xMAqpNmQk_NG7-G_f1O6TaztXtxBLxbUfd3yftEQYTs").canonical ≠
      (acmeBuilt 2 "prf:v1:H9SDCM0LN7fRvpkBYJpGFeECWarZA9tlpkmCz2S3DU4").canonical := by decide +kernel
  refine ⟨_, _, acme_builds, raisedAcme_builds, differ, by decide +kernel, fun independent => ?_⟩
  have swapped : [BuilderCall.addVocabulary "acme" 2, .addVocabulary "acme" 1].Perm
      [.addVocabulary "acme" 1, .addVocabulary "acme" 2] := List.Perm.swap _ _ _
  exact differ (canonical_eq_of_orderIndependent independent (List.Perm.refl _) swapped acme_builds
    raisedAcme_builds)

/-- One version given twice is no conflict. -/
theorem repeatedAcme_orderIndependent :
    OrderIndependent acmePrimitives bareProof.proposition 1700000000 Limits.default
      [.addVocabulary "acme" 1, .addVocabulary "acme" 1] ∧
    ¬ NoOrderBuilds acmePrimitives bareProof.proposition 1700000000 Limits.default
      [.addVocabulary "acme" 1, .addVocabulary "acme" 1] := by
  have consistent : ConsistentVersions [.addVocabulary "acme" 1, .addVocabulary "acme" 1] := by
    intro ns version other declared otherDeclared _
    simp only [List.mem_cons, List.not_mem_nil, or_false, or_self, BuilderCall.addVocabulary.injEq] at declared
    simp only [List.mem_cons, List.not_mem_nil, or_false, or_self, BuilderCall.addVocabulary.injEq] at otherDeclared
    rw [declared.2, otherDeclared.2]
  obtain ⟨built, done⟩ := exists_of_isOk (show ((builderOf acmePrimitives bareProof.proposition 1700000000
    [.addVocabulary "acme" 1, .addVocabulary "acme" 1]).build acmePrimitives Limits.default).isOk = true by
      decide +kernel)
  exact ⟨(build_orderIndependent_iff acmePrimitives bareProof.proposition 1700000000 Limits.default _).mpr
    (.inl consistent), fun refused => refused _ built (List.Perm.refl _) done⟩

end ProofEngine
