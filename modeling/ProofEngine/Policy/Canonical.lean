import ProofEngine.Crypto.ProofBinding
import ProofEngine.Policy.Parse

/-! # Canonical policy bytes

A policy is named by the hash of its canonical encoding.  Leaves and connectives share one map
representation: a leaf is the map with a `type`.  The encoding determines the policy; a leaf is
read back field by field (`readRequirement`), trees go by recursion. -/

namespace ProofEngine

open StableSort Text

/-! ## Encoding -/

def Requirement.typeStr : Requirement → String
  | .signatureValid => "signature_valid"
  | .issuerTrusted _ => "issuer_trusted"
  | .issuerExcluded _ => "issuer_excluded"
  | .relationshipExists _ => "relationship_exists"
  | .notExpired => "not_expired"
  | .notRevoked => "not_revoked"
  | .notSuperseded => "not_superseded"
  | .evidencePresent _ => "evidence_present"
  | .transparencyPresent => "transparency_present"
  | .proofFresh _ => "proof_fresh"
  | .delegatedAuthority .. => "delegated_authority"
  | .identityBound .. => "identity_bound"
  | .transparencyInclusion _ => "transparency_inclusion"
  | .noConflictingEvidence => "no_conflicting_evidence"
  | .vocabularyAccepted .. => "vocabulary_accepted"
  | .evidenceUsable _ => "evidence_usable"
  | .evidenceBound _ => "evidence_bound"
  | .requiresReference _ => "requires_reference"
  | .forbidsReference _ => "forbids_reference"
  | .claimField .. => "claim_field"

/-- The entry of an optional text, left out where there is none. -/
def optionalField (key : String) : Option String → List (String × CborValue)
  | some text => [(key, .text text)]
  | none => []

def FieldValue.toCbor : FieldValue → CborValue
  | .text s => .text s
  | .uint n => .uint n
  | .bool b => .bool b

/-- The fields of a leaf other than its type. -/
def Requirement.ownFields : Requirement → List (String × CborValue)
  | .issuerTrusted issuer | .issuerExcluded issuer => [("issuer", .text issuer)]
  | .relationshipExists relationship => [("relationship", .text relationship)]
  | .evidencePresent kind | .evidenceUsable kind | .evidenceBound kind => [("kind", .text kind)]
  | .requiresReference id | .forbidsReference id => [("id", .text id)]
  | .proofFresh maxAgeSeconds => [("max_age_seconds", .uint maxAgeSeconds)]
  | .delegatedAuthority root issuer scope =>
    [("root", .text root), ("issuer", .text issuer)] ++ optionalField "scope" scope
  | .identityBound a b => [("a", .text a), ("b", .text b)]
  | .transparencyInclusion log => [("log", .text log)]
  | .vocabularyAccepted ns maxVersion => [("ns", .text ns), ("max_version", .uint maxVersion)]
  | .claimField claimType subject field op value =>
    optionalField "claim_type" claimType ++ optionalField "subject" subject ++
      [("field", .text field), ("op", .text op.asStr), ("value", value.toCbor)]
  | .signatureValid | .notExpired | .notRevoked | .notSuperseded | .transparencyPresent
  | .noConflictingEvidence => []

def Requirement.fields (requirement : Requirement) : List (String × CborValue) :=
  ("type", .text requirement.typeStr) :: requirement.ownFields

/-- The map of a leaf, its entries sorted once here and again by the encoder. -/
def requirementToCbor (requirement : Requirement) : CborValue :=
  .map (sortOn (fun entry => encodeCanonical entry.1)
    (requirement.fields.map fun field => (.text field.1, field.2)))

mutual

def expressionToCbor : PolicyExpr → CborValue
  | .leaf requirement => requirementToCbor requirement
  | .all children => .map [(.text "all", .array (expressionsToCbor children))]
  | .any children => .map [(.text "any", .array (expressionsToCbor children))]
  | .not child => .map [(.text "not", expressionToCbor child)]
  | .threshold k options =>
    .map [(.text "threshold",
      .map [(.text "k", .uint (UInt64.ofNat k)), (.text "of", .array (expressionsToCbor options))])]

def expressionsToCbor : List PolicyExpr → List CborValue
  | [] => []
  | child :: children => expressionToCbor child :: expressionsToCbor children

end

/-- The entry that holds the requirements; a policy of version 2 without an expression has none. -/
def Policy.bodyFields (policy : Policy) : List (String × CborValue) :=
  if policy.version = 2 then
    match policy.expression with
    | some expression => [("expression", expressionToCbor expression)]
    | none => []
  else [("requirements", .array (policy.requirements.map requirementToCbor))]

def policyToCbor (policy : Policy) : CborValue :=
  record ([("policy_id", .text policy.id), ("policy_version", .uint policy.version.toUInt64)] ++ policy.bodyFields)

def policyToCanonicalCbor (policy : Policy) : Bytes := encodeCanonical (policyToCbor policy)

/-- `policy:vN:` and the digest of the canonical bytes. -/
def canonicalPolicyHash (primitives : Primitives) (policy : Policy) : String :=
  "policy:v" ++ toString policy.version ++ ":" ++
    b64uNopad (primitives.sha256 (policyToCanonicalCbor policy)).1

/-! ## Leaves -/

/-- The text of a field. -/
def textOf (field : Option CborValue) : Option String :=
  match field with
  | some (.text text) => some text
  | _ => none

def uintOf (field : Option CborValue) : Option UInt64 :=
  match field with
  | some (.uint n) => some n
  | _ => none

def valueOf (field : Option CborValue) : Option FieldValue :=
  match field with
  | some (.text text) => some (.text text)
  | some (.uint n) => some (.uint n)
  | some (.bool b) => some (.bool b)
  | _ => none

/-- The leaf that a map with these fields spells. -/
def readRequirement (get : String → Option CborValue) : Option Requirement := do
  match ← textOf (get "type") with
  | "signature_valid" => some .signatureValid
  | "issuer_trusted" => (textOf (get "issuer")).map .issuerTrusted
  | "issuer_excluded" => (textOf (get "issuer")).map .issuerExcluded
  | "relationship_exists" => (textOf (get "relationship")).map .relationshipExists
  | "not_expired" => some .notExpired
  | "not_revoked" => some .notRevoked
  | "not_superseded" => some .notSuperseded
  | "evidence_present" => (textOf (get "kind")).map .evidencePresent
  | "transparency_present" => some .transparencyPresent
  | "proof_fresh" => (uintOf (get "max_age_seconds")).map .proofFresh
  | "delegated_authority" =>
    some (.delegatedAuthority (← textOf (get "root")) (← textOf (get "issuer")) (textOf (get "scope")))
  | "identity_bound" => some (.identityBound (← textOf (get "a")) (← textOf (get "b")))
  | "transparency_inclusion" => (textOf (get "log")).map .transparencyInclusion
  | "no_conflicting_evidence" => some .noConflictingEvidence
  | "vocabulary_accepted" => some (.vocabularyAccepted (← textOf (get "ns")) (← uintOf (get "max_version")))
  | "evidence_usable" => (textOf (get "kind")).map .evidenceUsable
  | "evidence_bound" => (textOf (get "kind")).map .evidenceBound
  | "requires_reference" => (textOf (get "id")).map .requiresReference
  | "forbids_reference" => (textOf (get "id")).map .forbidsReference
  | "claim_field" =>
    some (.claimField (textOf (get "claim_type")) (textOf (get "subject")) (← textOf (get "field"))
      (← (textOf (get "op")).bind FieldOp.parse) (← valueOf (get "value")))
  | _ => none

theorem FieldOp.parse_asStr (op : FieldOp) : FieldOp.parse op.asStr = some op := by
  cases op <;> rfl

theorem valueOf_toCbor (value : FieldValue) : valueOf (some value.toCbor) = some value := by
  cases value <;> rfl

theorem readRequirement_fields (requirement : Requirement) :
    readRequirement (fun key => requirement.fields.lookup key) = some requirement := by
  cases requirement with
  | delegatedAuthority root issuer scope => cases scope <;> rfl
  | claimField claimType subject field op value =>
    have common : readRequirement (fun key =>
        (Requirement.claimField claimType subject field op value).fields.lookup key) =
          (FieldOp.parse op.asStr).bind fun op => (valueOf (some value.toCbor)).bind fun value =>
            some (.claimField claimType subject field op value) := by
      cases claimType <;> cases subject <;> rfl
    rw [common, FieldOp.parse_asStr, valueOf_toCbor]
    rfl
  | _ => rfl

section
open CborValue

/-- Values of fields are not containers. -/
theorem Requirement.fields_scalar {requirement : Requirement} {field : String × CborValue}
    (member : field ∈ requirement.fields) :
    (∃ s, field.2 = .text s) ∨ (∃ n, field.2 = .uint n) ∨ ∃ b, field.2 = .bool b := by
  cases requirement with
  | delegatedAuthority root issuer scope =>
    cases scope <;> simp [fields, ownFields, optionalField] at member <;> grind
  | claimField claimType subject name op value =>
    have scalar : (∃ s, value.toCbor = .text s) ∨ (∃ n, value.toCbor = .uint n) ∨ ∃ b, value.toCbor = .bool b := by
      cases value with
      | text s => exact .inl ⟨s, rfl⟩
      | uint n => exact .inr (.inl ⟨n, rfl⟩)
      | bool b => exact .inr (.inr ⟨b, rfl⟩)
    cases claimType <;> cases subject <;> simp [fields, ownFields, optionalField] at member <;> grind
  | _ =>
    simp [fields, ownFields] at member
    grind

theorem Requirement.fields_distinct (requirement : Requirement) : (requirement.fields.map Prod.fst).Nodup := by
  cases requirement with
  | delegatedAuthority root issuer scope => cases scope <;> simp [fields, ownFields, optionalField]
  | claimField claimType subject name op value =>
    cases claimType <;> cases subject <;> simp [fields, ownFields, optionalField]
  | _ => simp [fields, ownFields]

theorem sortMaps_requirementFields (requirement : Requirement) :
    (record requirement.fields).sortMaps = requirementToCbor requirement := by
  rw [sortMaps_record, requirementToCbor]
  congr 2
  refine List.map_congr_left fun field member => ?_
  obtain ⟨_, same⟩ | ⟨_, same⟩ | ⟨_, same⟩ := Requirement.fields_scalar member <;> rw [same] <;> rfl

theorem sortMaps_requirementToCbor (requirement : Requirement) :
    (requirementToCbor requirement).sortMaps = requirementToCbor requirement := by
  rw [← sortMaps_requirementFields]
  exact sortMaps_eq_self (orderedEntries_sortMaps _)

/-- Looking a field up in a leaf's map. -/
theorem findField_requirement {requirement : Requirement} {entries : Entries}
    (mapped : requirementToCbor requirement = .map entries) (key : String) :
    findField entries key = requirement.fields.lookup key := by
  rw [← sortMaps_requirementFields] at mapped
  cases found : requirement.fields.lookup key with
  | none =>
    refine findField_sortMaps_record_none _ mapped rfl fun named => ?_
    obtain ⟨field, member, rfl⟩ := List.mem_map.mp named
    have absent := List.lookup_eq_none_iff.mp found field member
    simp at absent
  | some value =>
    have member : (key, value) ∈ requirement.fields := by
      obtain ⟨before, after, split, _⟩ := List.lookup_eq_some_iff.mp found
      rw [split]
      exact List.mem_append_right _ List.mem_cons_self
    have stored := findField_sortMaps_record _ mapped rfl requirement.fields_distinct _ member
    rw [stored]
    obtain ⟨_, same⟩ | ⟨_, same⟩ | ⟨_, same⟩ := Requirement.fields_scalar member <;>
      (simp only at same; rw [same]; rfl)

theorem requirementToCbor_injective : Function.Injective requirementToCbor := by
  intro requirement other same
  obtain ⟨entries, mapped⟩ : ∃ entries, requirementToCbor requirement = .map entries := ⟨_, rfl⟩
  have lookups : (fun key => requirement.fields.lookup key) = fun key => other.fields.lookup key := by
    funext key
    rw [← findField_requirement mapped key, ← findField_requirement (same.symm.trans mapped) key]
  have read := readRequirement_fields requirement
  rw [lookups, readRequirement_fields other] at read
  exact (Option.some.inj read).symm

/-- A leaf has a `type`, a connective has its own key only. -/
theorem requirementToCbor_ne_connective {requirement : Requirement} {key : String} {operand : CborValue}
    (connective : key ≠ "type") : requirementToCbor requirement ≠ .map [(.text key, operand)] := by
  intro same
  have type := findField_requirement same "type"
  have elsewhere : findField [(CborValue.text key, operand)] "type" = none := by simp [findField, isKey, connective]
  rw [elsewhere] at type
  cases type

/-! ## Expressions -/

/-- Every threshold of the expression is a 64-bit number. -/
inductive PolicyExpr.Fits : PolicyExpr → Prop where
  | leaf (requirement : Requirement) : Fits (.leaf requirement)
  | all {children : List PolicyExpr} (each : ∀ child ∈ children, Fits child) : Fits (.all children)
  | any {children : List PolicyExpr} (each : ∀ child ∈ children, Fits child) : Fits (.any children)
  | not {child : PolicyExpr} (below : Fits child) : Fits (.not child)
  | threshold {k : Nat} {options : List PolicyExpr} (small : k < 2 ^ 64) (each : ∀ child ∈ options, Fits child) :
      Fits (.threshold k options)

/-- A parser whose expressions fit. -/
def ExpressionParser.Fitting (parse : ExpressionParser) : Prop :=
  ∀ json what budget expression rest, parse json what budget = .ok (expression, rest) → expression.Fits

theorem parseOperands_fit {parse : ExpressionParser} (fitting : parse.Fitting) {place : String} {items : List Json} :
    ∀ {index budget rest : Nat} {operands : List PolicyExpr},
      parseOperands parse place index items budget = .ok (operands, rest) → ∀ operand ∈ operands, operand.Fits := by
  induction items with
  | nil =>
    intro index budget rest operands done
    cases done
    simp
  | cons item items inductionHypothesis =>
    intro index budget rest operands done
    simp only [parseOperands, bind_eq_ok] at done
    obtain ⟨⟨_, _⟩, first, ⟨_, _⟩, others, done⟩ := done
    cases done
    exact List.forall_mem_cons.mpr ⟨fitting _ _ _ _ _ first, inductionHypothesis others⟩

theorem NodeParse.fits {parse : ExpressionParser} (fitting : parse.Fitting) {budget rest : Nat}
    {expression : PolicyExpr} (node : NodeParse parse budget expression rest) : expression.Fits := by
  cases node with
  | leaf requirement => exact .leaf requirement
  | all _ parsed => exact .all (parseOperands_fit fitting parsed)
  | any _ parsed => exact .any (parseOperands_fit fitting parsed)
  | not parsed => exact .not (fitting _ _ _ _ _ parsed)
  | threshold k _ _ parsed => exact .threshold k.toNat_lt (parseOperands_fit fitting parsed)

theorem parseExpressionWithin_fitting (primitives : Primitives) (levels : Nat) :
    (parseExpressionWithin primitives levels).Fitting := by
  induction levels with
  | zero =>
    intro json what budget expression rest done
    cases done
  | succ levels inductionHypothesis =>
    intro json what budget expression rest done
    cases budget with
    | zero => cases done
    | succ budget =>
      cases json with
      | object entries => exact (parseNode_cases done).fits inductionHypothesis
      | _ => cases done

theorem expressionsToCbor_eq (children : List PolicyExpr) :
    expressionsToCbor children = children.map expressionToCbor := by
  induction children with
  | nil => rfl
  | cons child children inductionHypothesis => rw [expressionsToCbor, inductionHypothesis, List.map_cons]

theorem sortMaps_single (key : String) (operand : CborValue) :
    (map [(.text key, operand)]).sortMaps = .map [(.text key, operand.sortMaps)] := by
  rw [sortMaps_map]
  rfl

theorem sortMaps_thresholdFields (k : UInt64) (options : CborValue) :
    (map [(.text "k", .uint k), (.text "of", options)]).sortMaps =
      .map [(.text "k", .uint k), (.text "of", options.sortMaps)] := by
  rw [sortMaps_map]
  -- the shorter key comes first
  refine congrArg CborValue.map (sortOn_of_pairwise ?_)
  simp only [List.map_cons, List.map_nil, List.pairwise_cons, List.mem_singleton, forall_eq, List.not_mem_nil,
    false_imp_iff, implies_true, List.Pairwise.nil, and_true]
  decide

/-- The expression in the form the encoder writes. -/
def sortedExpression (expression : PolicyExpr) : CborValue := (expressionToCbor expression).sortMaps

theorem sortedExpression_leaf (requirement : Requirement) :
    sortedExpression (.leaf requirement) = requirementToCbor requirement :=
  sortMaps_requirementToCbor requirement

theorem sortedExpression_all (children : List PolicyExpr) :
    sortedExpression (.all children) = .map [(.text "all", .array (children.map sortedExpression))] := by
  rw [sortedExpression, expressionToCbor, sortMaps_single, sortMaps_array, expressionsToCbor_eq, List.map_map]
  rfl

theorem sortedExpression_any (children : List PolicyExpr) :
    sortedExpression (.any children) = .map [(.text "any", .array (children.map sortedExpression))] := by
  rw [sortedExpression, expressionToCbor, sortMaps_single, sortMaps_array, expressionsToCbor_eq, List.map_map]
  rfl

theorem sortedExpression_not (child : PolicyExpr) :
    sortedExpression (.not child) = .map [(.text "not", sortedExpression child)] := by
  rw [sortedExpression, expressionToCbor, sortMaps_single]
  rfl

theorem sortedExpression_threshold (k : Nat) (options : List PolicyExpr) :
    sortedExpression (.threshold k options) =
      .map [(.text "threshold", .map [(.text "k", .uint (UInt64.ofNat k)),
        (.text "of", .array (options.map sortedExpression))])] := by
  rw [sortedExpression, expressionToCbor, sortMaps_single, sortMaps_thresholdFields, sortMaps_array,
    expressionsToCbor_eq, List.map_map]
  rfl

mutual

theorem sortedExpression_inj : ∀ {expression other : PolicyExpr}, expression.Fits → other.Fits →
    sortedExpression expression = sortedExpression other → expression = other
  | .leaf requirement, other, _, _, same => by
    rw [sortedExpression_leaf] at same
    cases other with
    | leaf found =>
      rw [sortedExpression_leaf] at same
      rw [requirementToCbor_injective same]
    | all => exact absurd (same.trans (sortedExpression_all _)) (requirementToCbor_ne_connective (by decide))
    | any => exact absurd (same.trans (sortedExpression_any _)) (requirementToCbor_ne_connective (by decide))
    | not => exact absurd (same.trans (sortedExpression_not _)) (requirementToCbor_ne_connective (by decide))
    | threshold =>
      exact absurd (same.trans (sortedExpression_threshold _ _)) (requirementToCbor_ne_connective (by decide))
  | .all children, other, fits, otherFits, same => by
    rw [sortedExpression_all] at same
    cases other with
    | all others =>
      cases fits with | all each =>
      cases otherFits with | all otherEach =>
      rw [sortedExpression_all] at same
      simp only [CborValue.map.injEq, List.cons.injEq, Prod.mk.injEq, CborValue.array.injEq, true_and,
        and_true] at same
      rw [sortedExpressions_inj each otherEach same]
    | leaf =>
      exact absurd (same.trans (sortedExpression_leaf _)).symm (requirementToCbor_ne_connective (by decide))
    | any => simp [sortedExpression_any] at same
    | not => simp [sortedExpression_not] at same
    | threshold => simp [sortedExpression_threshold] at same
  | .any children, other, fits, otherFits, same => by
    rw [sortedExpression_any] at same
    cases other with
    | any others =>
      cases fits with | any each =>
      cases otherFits with | any otherEach =>
      rw [sortedExpression_any] at same
      simp only [CborValue.map.injEq, List.cons.injEq, Prod.mk.injEq, CborValue.array.injEq, true_and,
        and_true] at same
      rw [sortedExpressions_inj each otherEach same]
    | leaf =>
      exact absurd (same.trans (sortedExpression_leaf _)).symm (requirementToCbor_ne_connective (by decide))
    | all => simp [sortedExpression_all] at same
    | not => simp [sortedExpression_not] at same
    | threshold => simp [sortedExpression_threshold] at same
  | .not child, other, fits, otherFits, same => by
    rw [sortedExpression_not] at same
    cases other with
    | not found =>
      cases fits with | not below =>
      cases otherFits with | not otherBelow =>
      rw [sortedExpression_not] at same
      simp only [CborValue.map.injEq, List.cons.injEq, Prod.mk.injEq, true_and, and_true] at same
      rw [sortedExpression_inj below otherBelow same]
    | leaf =>
      exact absurd (same.trans (sortedExpression_leaf _)).symm (requirementToCbor_ne_connective (by decide))
    | all => simp [sortedExpression_all] at same
    | any => simp [sortedExpression_any] at same
    | threshold => simp [sortedExpression_threshold] at same
  | .threshold k options, other, fits, otherFits, same => by
    rw [sortedExpression_threshold] at same
    cases other with
    | threshold j others =>
      cases fits with | threshold small each =>
      cases otherFits with | threshold otherSmall otherEach =>
      rw [sortedExpression_threshold] at same
      simp only [CborValue.map.injEq, List.cons.injEq, Prod.mk.injEq, CborValue.uint.injEq,
        CborValue.array.injEq, true_and, and_true] at same
      rw [ofNat_extent_inj small otherSmall same.1, sortedExpressions_inj each otherEach same.2]
    | leaf =>
      exact absurd (same.trans (sortedExpression_leaf _)).symm (requirementToCbor_ne_connective (by decide))
    | all => simp [sortedExpression_all] at same
    | any => simp [sortedExpression_any] at same
    | not => simp [sortedExpression_not] at same

theorem sortedExpressions_inj : ∀ {children others : List PolicyExpr}, (∀ child ∈ children, child.Fits) →
    (∀ other ∈ others, other.Fits) → children.map sortedExpression = others.map sortedExpression → children = others
  | [], others, _, _, same => by
    cases others with
    | nil => rfl
    | cons => cases same
  | child :: children, others, each, otherEach, same => by
    cases others with
    | nil => cases same
    | cons other others =>
      obtain ⟨first, rest⟩ := List.forall_mem_cons.mp each
      obtain ⟨otherFirst, otherRest⟩ := List.forall_mem_cons.mp otherEach
      simp only [List.map_cons, List.cons.injEq] at same
      rw [sortedExpression_inj first otherFirst same.1, sortedExpressions_inj rest otherRest same.2]

end

/-! ## Policies -/

theorem negative_requirementToCbor (requirement : Requirement) :
    (requirementToCbor requirement).Everywhere NegativeNint := by
  refine everywhere_map.mpr ⟨trivial, fun entry member => ?_⟩
  obtain ⟨field, fieldMember, rfl⟩ := List.mem_map.mp (mem_sortOn.mp member)
  refine ⟨everywhere_text.mpr trivial, ?_⟩
  obtain ⟨_, same⟩ | ⟨_, same⟩ | ⟨_, same⟩ := Requirement.fields_scalar fieldMember
  · rw [same]
    exact everywhere_text.mpr trivial
  · rw [same]
    exact everywhere_uint.mpr trivial
  · rw [same]
    exact everywhere_bool.mpr trivial

theorem everywhere_negative_single {key : String} {operand : CborValue}
    (negative : operand.Everywhere NegativeNint) :
    (map [(.text key, operand)]).Everywhere NegativeNint :=
  everywhere_map.mpr ⟨trivial, List.forall_mem_singleton.mpr ⟨everywhere_text.mpr trivial, negative⟩⟩

mutual

theorem negative_expressionToCbor : ∀ expression : PolicyExpr,
    (expressionToCbor expression).Everywhere NegativeNint
  | .leaf requirement => negative_requirementToCbor requirement
  | .all children =>
    everywhere_negative_single (everywhere_array.mpr ⟨trivial, negative_expressionsToCbor children⟩)
  | .any children =>
    everywhere_negative_single (everywhere_array.mpr ⟨trivial, negative_expressionsToCbor children⟩)
  | .not child => everywhere_negative_single (negative_expressionToCbor child)
  | .threshold k options => by
    have options := everywhere_array.mpr ⟨trivial, negative_expressionsToCbor options⟩
    refine everywhere_negative_single (everywhere_map.mpr ⟨trivial, ?_⟩)
    simp only [List.mem_cons, List.not_mem_nil, or_false, forall_eq_or_imp, forall_eq]
    exact ⟨⟨everywhere_text.mpr trivial, everywhere_uint.mpr trivial⟩, everywhere_text.mpr trivial, options⟩

theorem negative_expressionsToCbor : ∀ children : List PolicyExpr,
    ∀ item ∈ expressionsToCbor children, item.Everywhere NegativeNint
  | [] => by simp [expressionsToCbor]
  | child :: children => by
    rw [expressionsToCbor]
    exact List.forall_mem_cons.mpr ⟨negative_expressionToCbor child, negative_expressionsToCbor children⟩

end

/-- What a policy that was parsed looks like. -/
inductive Policy.Parsed : Policy → Prop where
  | first (id : String) (requirements : List Requirement) :
      Parsed { version := 1, id, requirements, expression := none }
  | second (id : String) {expression : PolicyExpr} (fits : expression.Fits) :
      Parsed { version := 2, id, requirements := [], expression := some expression }

theorem parsePolicy_parsed {primitives : Primitives} {limits : Limits} {json : Json} {policy : Policy}
    (accepted : parsePolicy primitives limits json = .ok policy) : policy.Parsed := by
  obtain ⟨id, requirements, rfl⟩ | ⟨id, _, expression, _, rfl, parsed⟩ := parsePolicy_cases accepted
  · exact .first id requirements
  · exact .second id (parseExpressionWithin_fitting _ _ _ _ _ _ _ parsed)

theorem negative_policyToCbor (policy : Policy) : (policyToCbor policy).Everywhere NegativeNint := by
  have body : ∀ field ∈ policy.bodyFields, field.2.Everywhere NegativeNint := by
    intro field member
    unfold Policy.bodyFields at member
    split at member
    · split at member
      · rw [List.mem_singleton.mp member]
        exact negative_expressionToCbor _
      · cases member
    · rw [List.mem_singleton.mp member]
      refine everywhere_array.mpr ⟨trivial, fun item itemMember => ?_⟩
      obtain ⟨requirement, _, rfl⟩ := List.mem_map.mp itemMember
      exact negative_requirementToCbor requirement
  refine everywhere_map.mpr ⟨trivial, fun entry member => ?_⟩
  obtain ⟨field, fieldMember, rfl⟩ := List.mem_map.mp member
  refine ⟨everywhere_text.mpr trivial, ?_⟩
  simp only [List.cons_append, List.nil_append, List.mem_cons] at fieldMember
  rcases fieldMember with rfl | rfl | inBody
  · exact everywhere_text.mpr trivial
  · exact everywhere_uint.mpr trivial
  · exact body field inBody

/-- A policy as a machine holds it: lengths of its texts and lists are 64-bit numbers. -/
def MachinePolicy : Type := { policy : Policy // (policyToCbor policy).Everywhere Addressable }

/-- The fields of a policy in its sorted encoding. -/
theorem findField_policy {policy : Policy} (parsed : policy.Parsed) {entries : Entries}
    (sorted : (policyToCbor policy).sortMaps = .map entries) :
    findField entries "policy_id" = some (.text policy.id) ∧
    findField entries "policy_version" = some (.uint policy.version.toUInt64) ∧
    ∀ field ∈ policy.bodyFields, findField entries field.1 = some field.2.sortMaps := by
  have distinct : (([("policy_id", CborValue.text policy.id), ("policy_version", .uint policy.version.toUInt64)] ++
      policy.bodyFields).map Prod.fst).Nodup := by
    cases parsed <;> simp [Policy.bodyFields]
  have found := findField_sortMaps_record _ sorted rfl distinct
  simp only [List.cons_append, List.nil_append, List.forall_mem_cons] at found
  exact found

theorem sortMaps_policyToCbor_inj {policy other : Policy} (parsed : policy.Parsed) (otherParsed : other.Parsed)
    (same : (policyToCbor policy).sortMaps = (policyToCbor other).sortMaps) : policy = other := by
  obtain ⟨entries, sorted⟩ : ∃ entries, (policyToCbor policy).sortMaps = .map entries := ⟨_, sortMaps_record _⟩
  obtain ⟨id, version, body⟩ := findField_policy parsed sorted
  obtain ⟨otherId, otherVersion, otherBody⟩ := findField_policy otherParsed (same.symm.trans sorted)
  have ids := CborValue.text.inj (Option.some.inj (id.symm.trans otherId))
  have versions := CborValue.uint.inj (Option.some.inj (version.symm.trans otherVersion))
  cases parsed with
  | first name requirements =>
    cases otherParsed with
    | first otherName otherRequirements =>
      have here := body _ List.mem_cons_self
      have there := otherBody _ List.mem_cons_self
      have lists := Option.some.inj (here.symm.trans there)
      simp only [sortMaps_array, List.map_map, CborValue.array.injEq] at lists
      have injective : Function.Injective (CborValue.sortMaps ∘ requirementToCbor) := by
        intro left right equal
        simp only [Function.comp_apply, sortMaps_requirementToCbor] at equal
        exact requirementToCbor_injective equal
      rw [List.map_injective_iff.mpr injective lists]
      simp only at ids
      rw [ids]
    | second =>
      simp only at versions
      exact absurd versions (by decide)
  | second name fits =>
    cases otherParsed with
    | first =>
      simp only at versions
      exact absurd versions (by decide)
    | second otherName otherFits =>
      have here := body _ List.mem_cons_self
      have there := otherBody _ List.mem_cons_self
      have expressions := Option.some.inj (here.symm.trans there)
      rw [sortedExpression_inj fits otherFits expressions]
      simp only at ids
      rw [ids]

theorem policyToCanonicalCbor_inj {policy other : MachinePolicy} (parsed : policy.1.Parsed)
    (otherParsed : other.1.Parsed) (same : policyToCanonicalCbor policy.1 = policyToCanonicalCbor other.1) :
    policy.1 = other.1 := by
  have sized : ∀ found : MachinePolicy, Sized (policyToCbor found.1) := fun found part inside =>
    ⟨negative_policyToCbor found.1 part inside, found.2 part inside⟩
  exact sortMaps_policyToCbor_inj parsed otherParsed ((sized policy).sortMaps_eq (sized other) same)

/-- Equal names have equal digests: the versions are one digit each. -/
theorem canonicalPolicyHash_inj {primitives : Primitives} {policy other : Policy} (parsed : policy.Parsed)
    (otherParsed : other.Parsed)
    (same : canonicalPolicyHash primitives policy = canonicalPolicyHash primitives other) :
    primitives.sha256 (policyToCanonicalCbor policy) = primitives.sha256 (policyToCanonicalCbor other) := by
  have first : toString (1 : UInt8) = "1" := rfl
  have second : toString (2 : UInt8) = "2" := rfl
  have lists := congrArg String.toList same
  simp only [canonicalPolicyHash, String.toList_append] at lists
  refine Subtype.ext (Base64Url.encode_injective (String.toList_inj.mp ?_))
  cases parsed <;> cases otherParsed <;> simp [first, second] at lists
  · exact lists
  · exact lists

end

/-- Canonical bytes determine a parsed policy, and so does its name where the hash does not collide. -/
theorem canonicalPolicy_determines (primitives : Primitives) (limits otherLimits : Limits) (json otherJson : Json)
    (policy other : MachinePolicy) (parsed : parsePolicy primitives limits json = .ok policy.1)
    (otherParsed : parsePolicy primitives otherLimits otherJson = .ok other.1) :
    (policyToCanonicalCbor policy.1 = policyToCanonicalCbor other.1 → policy.1 = other.1) ∧
    (CollisionFree primitives [policyToCanonicalCbor policy.1, policyToCanonicalCbor other.1] →
      canonicalPolicyHash primitives policy.1 = canonicalPolicyHash primitives other.1 → policy.1 = other.1) := by
  have shape := parsePolicy_parsed parsed
  have otherShape := parsePolicy_parsed otherParsed
  refine ⟨policyToCanonicalCbor_inj shape otherShape, fun collisionFree same => ?_⟩
  refine policyToCanonicalCbor_inj shape otherShape (collisionFree _ List.mem_cons_self _ ?_ ?_)
  · exact List.mem_cons_of_mem _ List.mem_cons_self
  · exact canonicalPolicyHash_inj shape otherShape same

/-- Delegated authority with and without a scope. -/
def scopedPolicy (scope : JsonMap) : Json :=
  .object [("expression", .object [("all", .array [.object [("type", .string "no_conflicting_evidence")],
      .object ([("type", .string "delegated_authority"), ("root", .string "key:ed25519:root"),
        ("issuer", .string "key:ed25519:issuer")] ++ scope)])]),
    ("policy_id", .string "scoped"), ("policy_version", .number "2")]

def scopedMachinePolicy (scope : Option String) : Policy where
  version := 2
  id := "scoped"
  requirements := []
  expression := some (.all [.leaf .noConflictingEvidence,
    .leaf (.delegatedAuthority "key:ed25519:root" "key:ed25519:issuer" scope)])

/-- An omitted scope is told apart from one that is there. -/
theorem scopedPolicy_bytes :
    policyToCanonicalCbor (scopedMachinePolicy none) ≠ policyToCanonicalCbor (scopedMachinePolicy (some "trade")) := by
  intro same
  have small : (policyToCbor (scopedMachinePolicy none)).Everywhere CborValue.Addressable ∧
      (policyToCbor (scopedMachinePolicy (some "trade"))).Everywhere CborValue.Addressable := by
    decide +kernel
  have equal := (canonicalPolicy_determines (Primitives.ofTable [] []) Limits.default Limits.default
    (scopedPolicy []) (scopedPolicy [("scope", .string "trade")]) ⟨_, small.1⟩ ⟨_, small.2⟩ rfl rfl).1 same
  simp [scopedMachinePolicy] at equal

end ProofEngine
