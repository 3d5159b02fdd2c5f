import ProofEngine.Policy.Eval
import ProofEngine.Policy.Parse

/-! # From version 1 to version 2

A list of requirements becomes the conjunction of its leaves.  The conjunction is a node of its
own and counts against the same limit, so the longest lists do not make it. -/

namespace ProofEngine

open Text

/-- An entry of a version 1 document as version 2 has it. -/
def migrateEntry (entry : String × Json) : String × Json :=
  if entry.1 = "policy_version" then ("policy_version", .number "2")
  else if entry.1 = "requirements" then ("expression", .object [("all", entry.2)])
  else entry

/-- The document with `policy_version` 2 and `expression: {all: R}` for `requirements: R`. -/
def migrate : Json → Json
  | .object root => .object (root.map migrateEntry)
  | json => json

section
variable {primitives : Primitives} {limits : Limits} {root : JsonMap}

/-! ## The document -/

theorem rejectExtraKeys_eq_ok {entries : JsonMap} {allowed : List String} {done : Unit} :
    rejectExtraKeys entries allowed = .ok done ↔ ∀ entry ∈ entries, entry.1 ∈ allowed := by
  unfold rejectExtraKeys
  split
  case h_1 key found =>
    have member := List.mem_of_find?_eq_some found
    have unknown := List.find?_some found
    obtain ⟨entry, entryMember, rfl⟩ := List.mem_map.mp member
    simp only [reduceCtorEq, false_iff, not_forall]
    exact ⟨entry, entryMember, by simpa using unknown⟩
  case h_2 none =>
    simp only [true_iff]
    intro entry member
    have known := List.find?_eq_none.mp none entry.1 (List.mem_map_of_mem member)
    simpa using known

theorem located_eq_ok {α : Type} {what : String} {result : Except String α} {value : α} :
    located what result = .ok value ↔ result = .ok value := by
  cases result <;> simp [located, policyError]

theorem lookup_cons_entry {entry : String × Json} {key : String} :
    (entry :: root).lookup key = if entry.1 = key then some entry.2 else root.lookup key := by
  obtain ⟨name, value⟩ := entry
  by_cases here : name = key
  · simp [here]
  · simp [List.lookup_cons, beq_eq_false_iff_ne.mpr (Ne.symm here), here]

/-- Looking a key up in entries that were rewritten one by one. -/
theorem lookup_map {rewrite : String × Json → String × Json} {key source : String} {change : Json → Json}
    (keys : ∀ entry ∈ root, (rewrite entry).1 = key ↔ entry.1 = source)
    (values : ∀ entry ∈ root, entry.1 = source → (rewrite entry).2 = change entry.2) :
    (root.map rewrite).lookup key = (root.lookup source).map change := by
  induction root with
  | nil => rfl
  | cons entry root inductionHypothesis =>
    obtain ⟨firstKey, otherKeys⟩ := List.forall_mem_cons.mp keys
    obtain ⟨firstValue, otherValues⟩ := List.forall_mem_cons.mp values
    rw [List.map_cons, lookup_cons_entry, lookup_cons_entry, inductionHypothesis otherKeys otherValues]
    by_cases here : entry.1 = source
    · rw [if_pos here, if_pos (firstKey.mpr here), firstValue here, Option.map_some]
    · rw [if_neg here, if_neg (mt firstKey.mp here)]

/-- What version 1 accepts. -/
structure FirstDocument (primitives : Primitives) (limits : Limits) (root : JsonMap) (items : List Json)
    (policy : Policy) : Prop where
  named : reqString root "policy_id" = .ok policy.id
  idBounded : ¬ (policy.id.isEmpty || decide (128 < len policy.id)) = true
  closed : ∀ entry ∈ root, entry.1 ∈ ["policy_version", "policy_id", "requirements"]
  versioned : ∃ version, root.lookup "policy_version" = some version
  listed : root.lookup "requirements" = some (.array items)
  nonempty : items.isEmpty = false
  bounded : items.length ≤ limits.maxPolicyRequirements.toNat
  parsed : parseRequirements primitives 0 items = .ok policy.requirements
  rest : policy.version = 1 ∧ policy.expression = none

theorem policyVersion_eq_ok {version : UInt64} (done : policyVersion root = .ok version) :
    ∃ found, root.lookup "policy_version" = some found := by
  unfold policyVersion at done
  split at done
  case h_1 literal found => exact ⟨_, found⟩
  case h_2 => cases done
  case h_3 => cases done

theorem firstDocument_of_parsePolicy {json : Json} {policy : Policy}
    (accepted : parsePolicy primitives limits json = .ok policy) (first : policy.version = 1) :
    ∃ root items, json = .object root ∧ FirstDocument primitives limits root items policy := by
  cases json with
  | object root =>
    simp only [parsePolicy, bind_eq_ok, located_eq_ok] at accepted
    obtain ⟨version, versioned, id, idFound, accepted⟩ := accepted
    split at accepted
    case isTrue => cases accepted
    case isFalse idBounded =>
      split at accepted
      case isTrue =>
        simp only [parseFirst, bind_eq_ok, located_eq_ok, rejectExtraKeys_eq_ok, objGet, Json.get] at accepted
        obtain ⟨_, closed, found, listed, accepted⟩ := accepted
        split at listed
        case h_2 => cases listed
        case h_1 list listFound =>
          cases listed
          split at accepted
          case h_2 => cases accepted
          case h_1 items =>
            split at accepted
            case isTrue => cases accepted
            case isFalse nonempty =>
              split at accepted
              case isTrue => cases accepted
              case isFalse bounded =>
                obtain ⟨requirements, parsed, accepted⟩ := bind_eq_ok.mp accepted
                cases accepted
                exact ⟨root, items, rfl, idFound, idBounded, closed, policyVersion_eq_ok versioned, listFound,
                  Bool.eq_false_iff.mpr nonempty, not_lt.mp bounded, parsed, rfl, rfl⟩
      case isFalse =>
        split at accepted
        case isFalse => cases accepted
        case isTrue =>
          -- version 2 is recorded as such
          simp only [parseSecond, bind_eq_ok] at accepted
          obtain ⟨_, _, accepted⟩ := accepted
          split at accepted
          case isTrue => cases accepted
          case isFalse =>
            simp only [bind_eq_ok] at accepted
            obtain ⟨_, _, ⟨_, _⟩, _, accepted⟩ := accepted
            cases accepted
            cases first
  | _ => cases accepted

/-! ## The migrated document -/

section
variable {items : List Json} {policy : Policy} (document : FirstDocument primitives limits root items policy)

include document

/-- The four lookups the second parser makes. -/
theorem FirstDocument.migrated_lookups :
    (root.map migrateEntry).lookup "policy_version" = some (.number "2") ∧
    (root.map migrateEntry).lookup "policy_id" = root.lookup "policy_id" ∧
    (root.map migrateEntry).lookup "expression" = some (.object [("all", .array items)]) ∧
    (root.map migrateEntry).lookup "requirements" = none := by
  have keys : ∀ entry ∈ root, entry.1 = "policy_version" ∨ entry.1 = "policy_id" ∨ entry.1 = "requirements" := by
    intro entry member
    simpa using document.closed entry member
  obtain ⟨version, versioned⟩ := document.versioned
  have atVersion := @lookup_map root migrateEntry "policy_version" "policy_version" (fun _ => .number "2")
    (fun entry member => by rcases keys entry member with key | key | key <;> simp [migrateEntry, key])
    (fun entry member key => by simp [migrateEntry, key])
  have atId := @lookup_map root migrateEntry "policy_id" "policy_id" (fun name => name)
    (fun entry member => by rcases keys entry member with key | key | key <;> simp [migrateEntry, key])
    (fun entry member key => by simp [migrateEntry, key])
  have atExpression := @lookup_map root migrateEntry "expression" "requirements" (fun list => .object [("all", list)])
    (fun entry member => by rcases keys entry member with key | key | key <;> simp [migrateEntry, key])
    (fun entry member key => by simp [migrateEntry, key])
  refine ⟨?_, ?_, ?_, ?_⟩
  · rw [atVersion, versioned, Option.map_some]
  · rw [atId, Option.map_id']
  · rw [atExpression, document.listed, Option.map_some]
  · -- nothing is left under the old key
    rw [List.lookup_eq_none_iff]
    intro entry member
    obtain ⟨original, originalMember, rfl⟩ := List.mem_map.mp member
    rcases keys original originalMember with key | key | key <;> simp [migrateEntry, key]

theorem FirstDocument.parseSecond_migrated :
    parsePolicy primitives limits (.object (root.map migrateEntry)) =
      (parseExpression primitives (.object [("all", .array items)]) "expression"
        limits.maxPolicyRequirements.toNat).map fun found =>
          { version := 2, id := policy.id, requirements := [], expression := some found.1 } := by
  obtain ⟨atVersion, atId, atExpression, atRequirements⟩ := document.migrated_lookups
  have version : policyVersion (root.map migrateEntry) = .ok 2 := by
    rw [policyVersion, atVersion]
    decide
  have named : reqString (root.map migrateEntry) "policy_id" = .ok policy.id := by
    rw [reqString, atId, ← reqString]
    exact document.named
  have closed : rejectExtraKeys (root.map migrateEntry) ["policy_version", "policy_id", "expression"] = .ok () := by
    refine rejectExtraKeys_eq_ok.mpr fun entry member => ?_
    obtain ⟨original, originalMember, rfl⟩ := List.mem_map.mp member
    have key := document.closed original originalMember
    simp only [List.mem_cons, List.not_mem_nil, or_false] at key
    rcases key with key | key | key <;> simp [migrateEntry, key]
  simp only [parsePolicy, version, named, located, ok_bind, document.idBounded, parseSecond, closed,
    atRequirements, objGet, Json.get, atExpression]
  cases parseExpression primitives (.object [("all", .array items)]) "expression"
    limits.maxPolicyRequirements.toNat <;> rfl

end

/-! ## The leaves -/

/-- The document of a version 1 requirement. -/
def IsLeaf (primitives : Primitives) (json : Json) (requirement : Requirement) : Prop :=
  ∃ entries, json = .object entries ∧ parseRequirementInner primitives true entries = .ok requirement

theorem parseRequirements_leaves {items : List Json} : ∀ {index : Nat} {requirements : List Requirement},
    parseRequirements primitives index items = .ok requirements →
      List.Forall₂ (IsLeaf primitives) items requirements := by
  induction items with
  | nil =>
    intro index requirements done
    cases done
    exact .nil
  | cons item items inductionHypothesis =>
    intro index requirements done
    simp only [parseRequirements, bind_eq_ok] at done
    obtain ⟨requirement, leaf, others, rest, done⟩ := done
    cases done
    refine .cons ?_ (inductionHypothesis rest)
    cases item with
    | object entries => exact ⟨entries, rfl, located_eq_ok.mp leaf⟩
    | _ => cases leaf

/-- A requirement of version 1 is a leaf of version 2 and costs one node. -/
theorem IsLeaf.parses {json : Json} {requirement : Requirement}
    (leaf : IsLeaf primitives json requirement) (what : String) (budget : Nat) :
    parseExpression primitives json what (budget + 1) = .ok (.leaf requirement, budget) := by
  obtain ⟨entries, rfl, parsed⟩ := leaf
  obtain ⟨type, typed, parsed⟩ := bind_eq_ok.mp parsed
  have present : (entries.lookup "type").isSome = true := by
    unfold reqString at typed
    split at typed
    case h_1 text found => rw [found, Option.isSome_some]
    case h_2 => cases typed
    case h_3 => cases typed
  have second : parseRequirementInner primitives false entries = .ok requirement := by
    split at parsed
    · cases parsed
    · simpa [parseRequirementInner, typed] using parsed
  rw [parseExpression_object, parseNode, if_pos present, second]
  rfl

/-- As many leaves as there are nodes are parsed. -/
theorem parseOperands_leaves {items : List Json} {requirements : List Requirement}
    (leaves : List.Forall₂ (IsLeaf primitives) items requirements) {place : String} :
    ∀ {index budget : Nat}, items.length ≤ budget →
      parseOperands (parseExpression primitives) place index items budget =
        .ok (requirements.map .leaf, budget - items.length) := by
  induction leaves with
  | nil =>
    intro index budget _
    rfl
  | cons leaf _ inductionHypothesis =>
    intro index budget enough
    cases budget with
    | zero => exact absurd enough (Nat.not_succ_le_zero _)
    | succ budget =>
      simp only [parseOperands, leaf.parses, ok_bind, inductionHypothesis (Nat.le_of_succ_le_succ enough)]
      simp

/-- More leaves than nodes are refused. -/
theorem parseOperands_tooLarge {items : List Json} {requirements : List Requirement}
    (leaves : List.Forall₂ (IsLeaf primitives) items requirements) {place : String} :
    ∀ {index budget : Nat}, budget < items.length →
      ∃ what, parseOperands (parseExpression primitives) place index items budget = expressionTooLarge what := by
  induction leaves with
  | nil =>
    intro index budget few
    exact absurd few (Nat.not_lt_zero _)
  | cons leaf _ inductionHypothesis =>
    intro index budget few
    cases budget with
    | zero => exact ⟨_, rfl⟩
    | succ budget =>
      obtain ⟨what, refused⟩ := @inductionHypothesis (index + 1) budget (Nat.lt_of_succ_lt_succ few)
      refine ⟨what, ?_⟩
      simp only [parseOperands, leaf.parses, ok_bind, refused]
      rfl

theorem parseExpression_all {items : List Json} (nonempty : items.isEmpty = false) (what : String) (budget : Nat) :
    parseExpression primitives (.object [("all", .array items)]) what (budget + 1) =
      (parseOperands (parseExpression primitives) (what ++ "." ++ "all") 0 items budget).map
        fun found => (.all found.1, found.2) := by
  rw [parseExpression_object]
  have closed : rejectExtraKeys [("all", Json.array items)] ["all"] = .ok () :=
    rejectExtraKeys_eq_ok.mpr (by simp)
  have connectives : connectivesOf [("all", Json.array items)] = [(.all, .array items)] := rfl
  have untyped : ([("all", Json.array items)].lookup "type").isSome = false := rfl
  simp only [parseNode, untyped, connectives, parseMany, closed, located, ok_bind, nonempty]
  cases parseOperands (parseExpression primitives) (what ++ "." ++ "all") 0 items budget <;> rfl

/-! ## Evaluation -/

variable {state : VerifiedState} {inputs : EvalInputs}

theorem evalExprs_leaves (requirements : List Requirement) :
    evalExprs state inputs (requirements.map .leaf) =
      (requirements.mapM (evalOne state inputs)).map fun results =>
        results.map fun result => (result.passed, [result]) := by
  induction requirements with
  | nil => rfl
  | cons requirement requirements inductionHypothesis =>
    rw [List.map_cons, evalExprs, evalExpr, List.mapM_cons, inductionHypothesis]
    cases evalOne state inputs requirement with
    | error failure => rfl
    | ok result => cases requirements.mapM (evalOne state inputs) <;> rfl

/-- A conjunction of leaves has the outcome of their list. -/
theorem evaluatePolicy_all_leaves {policy : Policy} (first : policy.version = 1) :
    evaluatePolicy state
      { version := 2, id := policy.id, requirements := []
        expression := some (.all (policy.requirements.map .leaf)) } inputs =
      evaluatePolicy state policy inputs := by
  have notSecond : ¬ policy.version = 2 := by rw [first]; decide
  simp only [evaluatePolicy, notSecond, if_true, if_false, evalExpr, evalExprs_leaves]
  cases policy.requirements.mapM (evalOne state inputs) with
  | error failure => rfl
  | ok results =>
    simp only [Except.map, ok_bind]
    simp [List.all_map, List.flatMap_map, Function.comp_def]

end

/-- The policies decide alike and give the same results, for every state and all inputs. -/
def SameDecisions (policy other : Policy) : Prop :=
  ∀ state inputs,
    (evaluatePolicy state other inputs).map (fun outcome => (outcome.decision, outcome.results)) =
      (evaluatePolicy state policy inputs).map fun outcome => (outcome.decision, outcome.results)

/-- The migrated document is accepted, and then decides as the old one did, exactly where the list of
    requirements leaves room for the node of the conjunction. -/
theorem migration_exact (primitives : Primitives) (limits : Limits) (json : Json) (policy : Policy)
    (accepted : parsePolicy primitives limits json = .ok policy) (first : policy.version = 1) :
    (∃ migrated, parsePolicy primitives limits (migrate json) = .ok migrated ∧ SameDecisions policy migrated) ↔
      policy.requirements.length < limits.maxPolicyRequirements.toNat := by
  obtain ⟨root, items, rfl, document⟩ := firstDocument_of_parsePolicy accepted first
  have leaves := parseRequirements_leaves document.parsed
  have count : items.length = policy.requirements.length := leaves.length_eq
  have filled : 0 < items.length := List.length_pos_iff.mpr (by simpa using document.nonempty)
  obtain ⟨budget, limit⟩ : ∃ budget, limits.maxPolicyRequirements.toNat = budget + 1 :=
    Nat.exists_eq_add_one.mpr (filled.trans_le document.bounded)
  have parsed := document.parseSecond_migrated
  rw [limit, parseExpression_all document.nonempty] at parsed
  rw [migrate, parsed, limit, ← count]
  by_cases room : items.length < budget + 1
  · rw [parseOperands_leaves leaves (Nat.le_of_lt_succ room)]
    refine ⟨fun _ => room, fun _ => ⟨_, rfl, fun state inputs => ?_⟩⟩
    rw [evaluatePolicy_all_leaves first]
  · obtain ⟨what, refused⟩ := @parseOperands_tooLarge primitives _ _ leaves ("expression" ++ "." ++ "all") 0 budget
      (by omega)
    rw [refused]
    refine ⟨?_, fun enough => absurd enough room⟩
    rintro ⟨migrated, done, _⟩
    cases done

/-- A policy of `not_expired`, `count` times over. -/
def repeatedPolicy (count : Nat) : Json :=
  .object [("policy_id", .string "timely"), ("policy_version", .number "1"),
    ("requirements", .array (List.replicate count (.object [("type", .string "not_expired")])))]

theorem repeatedPolicy_accepted : ∀ count ∈ [31, 32],
    parsePolicy (Primitives.ofTable [] []) Limits.default (repeatedPolicy count) =
      .ok { version := 1, id := "timely", requirements := List.replicate count .notExpired, expression := none } := by
  intro count member
  simp only [List.mem_cons, List.not_mem_nil, or_false] at member
  rcases member with rfl | rfl <;> rfl

/-- The default limit of 32 leaves room for 31 requirements. -/
theorem repeatedPolicy_migrates :
    ∃ policy migrated, parsePolicy (Primitives.ofTable [] []) Limits.default (repeatedPolicy 31) = .ok policy ∧
      parsePolicy (Primitives.ofTable [] []) Limits.default (migrate (repeatedPolicy 31)) = .ok migrated ∧
      SameDecisions policy migrated := by
  have accepted := repeatedPolicy_accepted 31 (by decide)
  obtain ⟨migrated, done, same⟩ := (migration_exact _ _ _ _ accepted rfl).mpr (by decide)
  exact ⟨_, migrated, accepted, done, same⟩

/-- Thirty-two requirements are accepted in version 1 and refused in version 2. -/
theorem fullPolicy_refused :
    (∃ policy, parsePolicy (Primitives.ofTable [] []) Limits.default (repeatedPolicy 32) = .ok policy ∧
      policy.version = 1) ∧
    parsePolicy (Primitives.ofTable [] []) Limits.default (migrate (repeatedPolicy 32)) =
      .error (ErrorCode.limitExceeded.err "expression.all[31]: policy expression too large") :=
  ⟨⟨_, repeatedPolicy_accepted 32 (by decide), rfl⟩, rfl⟩

end ProofEngine
