import ProofEngine.Core.Json
import ProofEngine.Crypto.Cose
import ProofEngine.Crypto.Id
import ProofEngine.Policy.Policy

/-! # Policy documents

Version 1 lists requirements, version 2 has an expression tree.  Messages about a leaf start with
its place in the document; the leaf parsers leave the place out and `located` puts it in front. -/

namespace ProofEngine

open Text

def policyError {α : Type} (message : String) : Result α := .error (ErrorCode.policyInvalid.err message)

/-- The outcome of a parser at the place `what` of the document. -/
def located {α : Type} (what : String) : Except String α → Result α
  | .ok value => .ok value
  | .error message => policyError (what ++ ": " ++ message)

def objGet (json : Json) (key : String) : Result Json :=
  match json.get key with
  | some value => .ok value
  | none => policyError ("policy missing field " ++ key)

def rejectExtraKeys (entries : JsonMap) (allowed : List String) : Except String Unit :=
  match (entries.map Prod.fst).find? fun key => !allowed.contains key with
  | some key => .error ("unknown field " ++ key)
  | none => .ok ()

def reqString (entries : JsonMap) (key : String) : Except String String :=
  match entries.lookup key with
  | some (.string text) => .ok text
  | some _ => .error ("field " ++ key ++ " must be a string")
  | none => .error ("missing field " ++ key)

/-! ## Leaves -/

def requireKeyref (entries : JsonMap) (key : String) : Except String String := do
  let text ← reqString entries key
  if !isSupportedKeyref text then .error (key ++ " must be a key:* KeyRef") else .ok text

/-- An unsigned number, with the messages for other numbers and for anything else. -/
def requireU64 (entries : JsonMap) (key unfit absent : String) : Except String UInt64 :=
  match entries.lookup key with
  | some (.number literal) =>
    match (Json.number literal).asU64 with
    | some value => .ok value
    | none => .error unfit
  | _ => .error absent

/-- A text that may be missing but not empty. -/
def optionalText (entries : JsonMap) (key : String) : Except String (Option String) :=
  match entries.lookup key with
  | none => .ok none
  | some (.string text) => if text.isEmpty then .error (key ++ " must be a non-empty string") else .ok (some text)
  | some _ => .error (key ++ " must be a non-empty string")

def FieldOp.parse (text : String) : Option FieldOp :=
  [FieldOp.eq, .ne, .gt, .gte, .lt, .lte].find? fun op => op.asStr = text

def fieldValue (entries : JsonMap) : Except String FieldValue :=
  match entries.lookup "value" with
  | some (.string text) => .ok (.text text)
  | some (.number literal) =>
    match (Json.number literal).asU64 with
    | some value => .ok (.uint value)
    | none => .error "numeric value must be a non-negative integer"
  | some (.bool value) => .ok (.bool value)
  | _ => .error "value must be a string, non-negative integer, or bool"

/-- Orderings are for numbers only. -/
def checkOrdering (op : FieldOp) : FieldValue → Except String Unit
  | .uint _ => .ok ()
  | _ =>
    if op = .eq ∨ op = .ne then .ok ()
    else .error ("op " ++ op.asStr ++ " requires a uint value (text/bool allow only eq/ne)")

/-- A leaf without fields of its own. -/
def plainLeaf (requirement : Requirement) (entries : JsonMap) : Except String Requirement := do
  rejectExtraKeys entries ["type"]
  .ok requirement

/-- A leaf with one text field, of which any text will do. -/
def textLeaf (key : String) (make : String → Requirement) (entries : JsonMap) : Except String Requirement := do
  rejectExtraKeys entries ["type", key]
  let text ← reqString entries key
  .ok (make text)

/-- A leaf with one field that names a key. -/
def keyrefLeaf (key : String) (make : String → Requirement) (entries : JsonMap) : Except String Requirement := do
  rejectExtraKeys entries ["type", key]
  let text ← requireKeyref entries key
  .ok (make text)

def proofFreshLeaf (entries : JsonMap) : Except String Requirement := do
  rejectExtraKeys entries ["type", "max_age_seconds"]
  let maxAge ← requireU64 entries "max_age_seconds" "max_age_seconds must be positive" "max_age_seconds required"
  .ok (.proofFresh maxAge)

def delegatedAuthorityLeaf (entries : JsonMap) : Except String Requirement := do
  rejectExtraKeys entries ["type", "root", "issuer", "scope"]
  let scope ← optionalText entries "scope"
  let root ← requireKeyref entries "root"
  let issuer ← requireKeyref entries "issuer"
  .ok (.delegatedAuthority root issuer scope)

def identityBoundLeaf (entries : JsonMap) : Except String Requirement := do
  rejectExtraKeys entries ["type", "a", "b"]
  let a ← reqString entries "a"
  let b ← reqString entries "b"
  if a.isEmpty || b.isEmpty then .error "a/b must not be empty" else .ok (.identityBound a b)

def vocabularyAcceptedLeaf (entries : JsonMap) : Except String Requirement := do
  rejectExtraKeys entries ["type", "ns", "max_version"]
  let ns ← reqString entries "ns"
  if ns.isEmpty || 128 < len ns then .error "ns length out of bounds"
  else
    let maxVersion ← requireU64 entries "max_version" "max_version must be an integer" "max_version required"
    .ok (.vocabularyAccepted ns maxVersion)

def claimFieldLeaf (entries : JsonMap) : Except String Requirement := do
  rejectExtraKeys entries ["type", "claim_type", "subject", "field", "op", "value"]
  let claimType ← optionalText entries "claim_type"
  let subject ← optionalText entries "subject"
  let field ← reqString entries "field"
  if field.isEmpty || 128 < len field then .error "field length out of bounds"
  else if field = "type" then .error "field \"type\" is reserved — use claim_type instead"
  else
    let opText ← reqString entries "op"
    match FieldOp.parse opText with
    | none => .error "op must be one of eq/ne/gt/gte/lt/lte"
    | some op =>
      let value ← fieldValue entries
      checkOrdering op value
      .ok (.claimField claimType subject field op value)

section
variable (primitives : Primitives)

/-- The id of a proof; its shape is checked here so that a typo does not pass for a proof nobody names. -/
def requireProofRef (entries : JsonMap) (key : String) : Except String String := do
  let text ← reqString entries key
  match checkProofRefShape primitives text with
  | .ok () => .ok text
  | .error failure => .error (key ++ " must be a prf:v1: id (" ++ failure.display ++ ")")

/-- A leaf with one field that names a proof. -/
def proofRefLeaf (make : String → Requirement) (entries : JsonMap) : Except String Requirement := do
  rejectExtraKeys entries ["type", "id"]
  let text ← requireProofRef primitives entries "id"
  .ok (make text)

/-- The parser of a leaf by the text of its `type`. -/
def leafParser : String → Option (JsonMap → Except String Requirement)
  | "signature_valid" => some (plainLeaf .signatureValid)
  | "issuer_trusted" => some (keyrefLeaf "issuer" .issuerTrusted)
  | "issuer_excluded" => some (keyrefLeaf "issuer" .issuerExcluded)
  | "relationship_exists" => some (textLeaf "relationship" .relationshipExists)
  | "not_expired" => some (plainLeaf .notExpired)
  | "not_revoked" => some (plainLeaf .notRevoked)
  | "not_superseded" => some (plainLeaf .notSuperseded)
  | "evidence_present" => some (textLeaf "kind" .evidencePresent)
  | "transparency_present" => some (plainLeaf .transparencyPresent)
  | "proof_fresh" => some proofFreshLeaf
  | "delegated_authority" => some delegatedAuthorityLeaf
  | "identity_bound" => some identityBoundLeaf
  | "transparency_inclusion" => some (keyrefLeaf "log" .transparencyInclusion)
  | "no_conflicting_evidence" => some (plainLeaf .noConflictingEvidence)
  | "vocabulary_accepted" => some vocabularyAcceptedLeaf
  | "evidence_usable" => some (textLeaf "kind" .evidenceUsable)
  | "evidence_bound" => some (textLeaf "kind" .evidenceBound)
  | "requires_reference" => some (proofRefLeaf primitives .requiresReference)
  | "forbids_reference" => some (proofRefLeaf primitives .forbidsReference)
  | "claim_field" => some claimFieldLeaf
  | _ => none

/-- The leaves that version 1 does not have. -/
def adjudicationLeaves : List String :=
  ["delegated_authority", "identity_bound", "transparency_inclusion", "no_conflicting_evidence",
   "vocabulary_accepted", "evidence_usable", "evidence_bound", "requires_reference", "forbids_reference",
   "claim_field"]

def parseRequirementInner (firstOnly : Bool) (entries : JsonMap) : Except String Requirement := do
  let type ← reqString entries "type"
  if firstOnly && adjudicationLeaves.contains type then
    .error (type ++ " is v2-only (use policy_version 2)")
  else
    match leafParser primitives type with
    | some parse => parse entries
    | none => .error ("unknown requirement type " ++ type)

/-- A requirement of version 1. -/
def parseRequirement (index : Nat) (json : Json) : Result Requirement :=
  let what := "requirements[" ++ toString index ++ "]"
  match json with
  | .object entries => located what (parseRequirementInner primitives true entries)
  | _ => policyError (what ++ " must be an object")

/-- The loop over the list of version 1. -/
def parseRequirements : (index : Nat) → List Json → Result (List Requirement)
  | _, [] => .ok []
  | index, item :: items => do
    let requirement ← parseRequirement primitives index item
    let requirements ← parseRequirements (index + 1) items
    .ok (requirement :: requirements)

/-! ## Expressions -/

inductive Connective where
  | all
  | any
  | not
  | threshold
  deriving DecidableEq, Repr

def Connective.name : Connective → String
  | .all => "all"
  | .any => "any"
  | .not => "not"
  | .threshold => "threshold"

/-- The connectives an object has keys for, with their operands. -/
def connectivesOf (entries : JsonMap) : List (Connective × Json) :=
  [Connective.all, .any, .not, .threshold].filterMap fun connective =>
    (entries.lookup connective.name).map fun operand => (connective, operand)

end

/-- A parser of expressions: from a document, its place and the nodes that are left to an expression and
    the nodes that are left after it. -/
abbrev ExpressionParser := Json → String → Nat → Result (PolicyExpr × Nat)

/-- The loop over the operands of a connective. -/
def parseOperands (parse : ExpressionParser) (place : String) :
    (index : Nat) → List Json → Nat → Result (List PolicyExpr × Nat)
  | _, [], budget => .ok ([], budget)
  | index, item :: items, budget => do
    let (operand, budget) ← parse item (place ++ "[" ++ toString index ++ "]") budget
    let (operands, budget) ← parseOperands parse place (index + 1) items budget
    .ok (operand :: operands, budget)

/-- `all` and `any`. -/
def parseMany (parse : ExpressionParser) (name : String) (make : List PolicyExpr → PolicyExpr) (entries : JsonMap)
    (operand : Json) (what : String) (budget : Nat) : Result (PolicyExpr × Nat) := do
  located what (rejectExtraKeys entries [name])
  match operand with
  | .array items =>
    if items.isEmpty then policyError (what ++ ": " ++ name ++ " must not be empty")
    else
      let (operands, budget) ← parseOperands parse (what ++ "." ++ name) 0 items budget
      .ok (make operands, budget)
  | _ => policyError (what ++ ": " ++ name ++ " must be an array")

def parseNot (parse : ExpressionParser) (entries : JsonMap) (operand : Json) (what : String) (budget : Nat) :
    Result (PolicyExpr × Nat) := do
  located what (rejectExtraKeys entries ["not"])
  let (child, budget) ← parse operand (what ++ ".not") budget
  .ok (.not child, budget)

def parseThreshold (parse : ExpressionParser) (entries : JsonMap) (operand : Json) (what : String) (budget : Nat) :
    Result (PolicyExpr × Nat) := do
  located what (rejectExtraKeys entries ["threshold"])
  match operand with
  | .object fields =>
    located (what ++ ".threshold") (rejectExtraKeys fields ["k", "of"])
    match (fields.lookup "k").bind Json.asU64 with
    | none => policyError (what ++ ": threshold.k must be a positive integer")
    | some k =>
      match (fields.lookup "of").bind Json.asArray with
      | none => policyError (what ++ ": threshold.of must be an array")
      | some options =>
        if options.isEmpty then policyError (what ++ ": threshold.of must not be empty")
        else if k = 0 ∨ options.length < k.toNat then
          policyError (what ++ ": threshold.k must satisfy 1 <= k <= len(of) (got k=" ++ toString k ++ ", n=" ++
            toString options.length ++ ")")
        else
          let (operands, budget) ← parseOperands parse (what ++ ".threshold.of") 0 options budget
          .ok (.threshold k.toNat operands, budget)
  | _ => policyError (what ++ ": threshold must be an object")

def expressionTooLarge {α : Type} (what : String) : Result α :=
  .error (ErrorCode.limitExceeded.err (what ++ ": policy expression too large"))

section
variable (primitives : Primitives)

/-- One node of an expression, with a parser for those below it. -/
def parseNode (parse : ExpressionParser) (entries : JsonMap) (what : String) (budget : Nat) :
    Result (PolicyExpr × Nat) :=
  if (entries.lookup "type").isSome then do
    let requirement ← located what (parseRequirementInner primitives false entries)
    .ok (.leaf requirement, budget)
  else
    match connectivesOf entries with
    | [] => policyError (what ++ ": expected one of all|any|not|threshold or a requirement leaf")
    | [(.all, operand)] => parseMany parse "all" .all entries operand what budget
    | [(.any, operand)] => parseMany parse "any" .any entries operand what budget
    | [(.not, operand)] => parseNot parse entries operand what budget
    | [(.threshold, operand)] => parseThreshold parse entries operand what budget
    | _ => policyError (what ++ ": exactly one connective per expression object")

/-- An expression nested at most `levels` deep.  Every level costs a node, so that with as many levels as
    nodes the nodes run out first: `parseExpression_object`. -/
def parseExpressionWithin : (levels : Nat) → ExpressionParser
  | 0, _, what, _ => expressionTooLarge what
  | _ + 1, _, what, 0 => expressionTooLarge what
  | levels + 1, .object entries, what, budget + 1 =>
    parseNode primitives (parseExpressionWithin levels) entries what budget
  | _ + 1, _, what, _ + 1 => policyError (what ++ " must be an object")

def parseExpression : ExpressionParser := fun json what budget =>
  parseExpressionWithin primitives budget json what budget

/-! ## Policies -/

def policyVersion (root : JsonMap) : Result UInt64 :=
  match root.lookup "policy_version" with
  | some (.number literal) =>
    match (Json.number literal).asU64 with
    | some version => .ok version
    | none => policyError "policy_version must be a positive integer"
  | some _ => policyError "policy_version must be a positive integer"
  | none => policyError "policy missing field policy_version"

def parseFirst (limits : Limits) (root : JsonMap) (id : String) : Result Policy := do
  located "policy" (rejectExtraKeys root ["policy_version", "policy_id", "requirements"])
  match ← objGet (.object root) "requirements" with
  | .array items =>
    -- an empty list would pass everything
    if items.isEmpty then policyError "requirements must not be empty"
    else if limits.maxPolicyRequirements.toNat < items.length then
      .error (ErrorCode.limitExceeded.err "too many policy requirements")
    else
      let requirements ← parseRequirements primitives 0 items
      .ok { version := 1, id, requirements, expression := none }
  | _ => policyError "requirements must be an array"

def parseSecond (limits : Limits) (root : JsonMap) (id : String) : Result Policy := do
  located "policy" (rejectExtraKeys root ["policy_version", "policy_id", "expression"])
  if (root.lookup "requirements").isSome then policyError "v2 policy uses expression, not requirements"
  else
    let json ← objGet (.object root) "expression"
    let (expression, _) ← parseExpression primitives json "expression" limits.maxPolicyRequirements.toNat
    .ok { version := 2, id, requirements := [], expression := some expression }

def parsePolicy (limits : Limits) : Json → Result Policy
  | .object root => do
    let version ← policyVersion root
    let id ← located "policy" (reqString root "policy_id")
    if id.isEmpty || 128 < len id then policyError "policy_id length out of bounds"
    else if version = 1 then parseFirst primitives limits root id
    else if version = 2 then parseSecond primitives limits root id
    else .error (ErrorCode.unsupportedVersion.err "only policy_version 1 and 2 are supported")
  | _ => policyError "policy must be a JSON object"

end

/-! ## Levels and nodes -/

/-- A parser that leaves no more nodes than it was given. -/
def ExpressionParser.Shrinks (parse : ExpressionParser) : Prop :=
  ∀ json what budget expression rest, parse json what budget = .ok (expression, rest) → rest ≤ budget

/-- Parsers that agree while there are at most `bound` nodes. -/
def ExpressionParser.AgreeTo (bound : Nat) (parse other : ExpressionParser) : Prop :=
  ∀ json what budget, budget ≤ bound → parse json what budget = other json what budget

section
variable {primitives : Primitives} {parse other : ExpressionParser} {bound budget rest : Nat}
  {entries : JsonMap} {operand : Json} {what : String} {expression : PolicyExpr}

theorem parseOperands_le (shrinks : parse.Shrinks) {place : String} {items : List Json} :
    ∀ {index budget : Nat} {operands : List PolicyExpr},
      parseOperands parse place index items budget = .ok (operands, rest) → rest ≤ budget := by
  induction items with
  | nil =>
    intro index budget operands done
    cases done
    exact le_rfl
  | cons item items inductionHypothesis =>
    intro index budget operands done
    simp only [parseOperands, bind_eq_ok] at done
    obtain ⟨⟨_, left⟩, first, ⟨_, _⟩, others, done⟩ := done
    cases done
    exact (inductionHypothesis others).trans (shrinks _ _ _ _ _ first)

/-- What an accepted node can be, and how its operands were parsed. -/
inductive NodeParse (parse : ExpressionParser) (budget : Nat) : PolicyExpr → Nat → Prop where
  | leaf (requirement : Requirement) : NodeParse parse budget (.leaf requirement) budget
  | all {place : String} {items : List Json} {operands : List PolicyExpr} {rest : Nat} (nonempty : items ≠ [])
      (parsed : parseOperands parse place 0 items budget = .ok (operands, rest)) :
      NodeParse parse budget (.all operands) rest
  | any {place : String} {items : List Json} {operands : List PolicyExpr} {rest : Nat} (nonempty : items ≠ [])
      (parsed : parseOperands parse place 0 items budget = .ok (operands, rest)) :
      NodeParse parse budget (.any operands) rest
  | not {place : String} {operand : Json} {child : PolicyExpr} {rest : Nat}
      (parsed : parse operand place budget = .ok (child, rest)) : NodeParse parse budget (.not child) rest
  | threshold {place : String} {options : List Json} {operands : List PolicyExpr} {rest : Nat} (k : UInt64)
      (positive : k ≠ 0) (reachable : k.toNat ≤ options.length)
      (parsed : parseOperands parse place 0 options budget = .ok (operands, rest)) :
      NodeParse parse budget (.threshold k.toNat operands) rest

theorem parseMany_cases {name : String} {make : List PolicyExpr → PolicyExpr}
    (done : parseMany parse name make entries operand what budget = .ok (expression, rest)) :
    ∃ items operands, items ≠ [] ∧ expression = make operands ∧
      parseOperands parse (what ++ "." ++ name) 0 items budget = .ok (operands, rest) := by
  obtain ⟨_, _, done⟩ := bind_eq_ok.mp done
  split at done
  · split at done
    · cases done
    · rename_i items _ nonempty
      obtain ⟨⟨operands, _⟩, parsed, done⟩ := bind_eq_ok.mp done
      cases done
      exact ⟨items, operands, fun empty => nonempty (by rw [empty]; rfl), rfl, parsed⟩
  · cases done

theorem parseThreshold_cases
    (done : parseThreshold parse entries operand what budget = .ok (expression, rest)) :
    NodeParse parse budget expression rest := by
  obtain ⟨_, _, done⟩ := bind_eq_ok.mp done
  split at done
  · obtain ⟨_, _, done⟩ := bind_eq_ok.mp done
    split at done
    · cases done
    · rename_i k _
      split at done
      · cases done
      · split at done
        · cases done
        · split at done
          · cases done
          · rename_i within
            obtain ⟨positive, reachable⟩ := not_or.mp within
            obtain ⟨⟨_, _⟩, parsed, done⟩ := bind_eq_ok.mp done
            cases done
            exact .threshold k positive (Nat.not_lt.mp reachable) parsed
  · cases done

theorem parseNode_cases (done : parseNode primitives parse entries what budget = .ok (expression, rest)) :
    NodeParse parse budget expression rest := by
  unfold parseNode at done
  split at done
  · obtain ⟨requirement, _, done⟩ := bind_eq_ok.mp done
    cases done
    exact .leaf requirement
  · split at done
    · cases done
    · obtain ⟨_, _, nonempty, rfl, parsed⟩ := parseMany_cases done
      exact .all nonempty parsed
    · obtain ⟨_, _, nonempty, rfl, parsed⟩ := parseMany_cases done
      exact .any nonempty parsed
    · simp only [parseNot, bind_eq_ok] at done
      obtain ⟨_, _, ⟨_, _⟩, parsed, done⟩ := done
      cases done
      exact .not parsed
    · exact parseThreshold_cases done
    · cases done

theorem NodeParse.le (shrinks : parse.Shrinks) (node : NodeParse parse budget expression rest) : rest ≤ budget := by
  cases node with
  | leaf => exact le_rfl
  | all _ parsed | any _ parsed => exact parseOperands_le shrinks parsed
  | not parsed => exact shrinks _ _ _ _ _ parsed
  | threshold _ _ _ parsed => exact parseOperands_le shrinks parsed

theorem parseExpressionWithin_shrinks (levels : Nat) : (parseExpressionWithin primitives levels).Shrinks := by
  induction levels with
  | zero =>
    intro json what budget expression rest done
    cases done
  | succ levels inductionHypothesis =>
    intro json what budget expression rest done
    cases budget with
    | zero => cases done
    | succ budget =>
      cases json with
      | object entries => exact ((parseNode_cases done).le inductionHypothesis).trans (Nat.le_succ budget)
      | _ => cases done

theorem parseOperands_congr (shrinks : parse.Shrinks) (agree : parse.AgreeTo bound other) {place : String}
    {items : List Json} : ∀ {index budget : Nat}, budget ≤ bound →
      parseOperands parse place index items budget = parseOperands other place index items budget := by
  induction items with
  | nil =>
    intro index budget within
    rfl
  | cons item items inductionHypothesis =>
    intro index budget within
    rw [parseOperands, parseOperands, ← agree item _ budget within]
    cases first : parse item (place ++ "[" ++ toString index ++ "]") budget with
    | error failure => rfl
    | ok found =>
      obtain ⟨operand, left⟩ := found
      simp only [ok_bind]
      rw [inductionHypothesis ((shrinks _ _ _ _ _ first).trans within)]

theorem parseNode_congr (shrinks : parse.Shrinks) (agree : parse.AgreeTo bound other) (within : budget ≤ bound) :
    parseNode primitives parse entries what budget = parseNode primitives other entries what budget := by
  unfold parseNode
  split
  · rfl
  · split
    · rfl
    · simp only [parseMany, parseOperands_congr shrinks agree within]
    · simp only [parseMany, parseOperands_congr shrinks agree within]
    · simp only [parseNot, agree _ _ _ within]
    · simp only [parseThreshold, parseOperands_congr shrinks agree within]
    · rfl

/-- More levels than nodes make no difference. -/
theorem parseExpressionWithin_congr (levels more : Nat) :
    (parseExpressionWithin primitives levels).AgreeTo levels (parseExpressionWithin primitives (levels + more)) := by
  induction levels with
  | zero =>
    intro json what budget within
    cases Nat.le_zero.mp within
    cases more with
    | zero => rfl
    | succ more => rw [Nat.zero_add, parseExpressionWithin, parseExpressionWithin]
  | succ levels inductionHypothesis =>
    intro json what budget within
    rw [Nat.add_right_comm]
    cases budget with
    | zero => rw [parseExpressionWithin, parseExpressionWithin]
    | succ budget =>
      cases json with
      | object entries =>
        exact parseNode_congr (parseExpressionWithin_shrinks levels) inductionHypothesis (Nat.le_of_succ_le_succ within)
      | _ => rfl

/-- The recursion of the source: every node below is parsed with the nodes that are left. -/
theorem parseExpression_object :
    parseExpression primitives (.object entries) what (budget + 1) =
      parseNode primitives (parseExpression primitives) entries what budget := by
  rw [parseExpression, parseExpressionWithin]
  refine parseNode_congr (parseExpressionWithin_shrinks budget) (fun json place left within => ?_) le_rfl
  have same := @parseExpressionWithin_congr primitives left (budget - left) json place left le_rfl
  rw [Nat.add_sub_cancel' within] at same
  exact same.symm

/-! ## Accepted policies -/

theorem parseFirst_cases {limits : Limits} {root : JsonMap} {id : String} {policy : Policy}
    (accepted : parseFirst primitives limits root id = .ok policy) :
    ∃ requirements, policy = { version := 1, id, requirements, expression := none } := by
  simp only [parseFirst, bind_eq_ok] at accepted
  obtain ⟨_, _, _, _, accepted⟩ := accepted
  split at accepted
  · split_ifs at accepted
    all_goals try cases accepted
    obtain ⟨requirements, _, accepted⟩ := bind_eq_ok.mp accepted
    cases accepted
    exact ⟨requirements, rfl⟩
  · cases accepted

theorem parseSecond_cases {limits : Limits} {root : JsonMap} {id : String} {policy : Policy}
    (accepted : parseSecond primitives limits root id = .ok policy) :
    ∃ json expression rest, policy = { version := 2, id, requirements := [], expression := some expression } ∧
      parseExpression primitives json "expression" limits.maxPolicyRequirements.toNat = .ok (expression, rest) := by
  simp only [parseSecond, bind_eq_ok] at accepted
  obtain ⟨_, _, accepted⟩ := accepted
  split at accepted
  · cases accepted
  · simp only [bind_eq_ok] at accepted
    obtain ⟨json, _, ⟨expression, rest⟩, parsed, accepted⟩ := accepted
    cases accepted
    exact ⟨json, expression, rest, rfl, parsed⟩

theorem parsePolicy_cases {limits : Limits} {json : Json} {policy : Policy}
    (accepted : parsePolicy primitives limits json = .ok policy) :
    (∃ id requirements, policy = { version := 1, id, requirements, expression := none }) ∨
      ∃ id json expression rest, policy = { version := 2, id, requirements := [], expression := some expression } ∧
        parseExpression primitives json "expression" limits.maxPolicyRequirements.toNat = .ok (expression, rest) := by
  cases json with
  | object root =>
    simp only [parsePolicy, bind_eq_ok] at accepted
    obtain ⟨_, _, id, _, accepted⟩ := accepted
    split_ifs at accepted with _ first second
    · cases accepted
    · exact .inl ⟨id, parseFirst_cases accepted⟩
    · exact .inr ⟨id, parseSecond_cases accepted⟩
  | _ => cases accepted

end

end ProofEngine
