import ProofEngine.Verify.Report

/-! # Policies

A policy of version 1 is a list of requirements, all of which must hold; version 2 has an expression
tree over the same requirements. -/

namespace ProofEngine

inductive FieldOp where
  | eq
  | ne
  | gt
  | gte
  | lt
  | lte
  deriving DecidableEq, Repr

def FieldOp.asStr : FieldOp → String
  | .eq => "eq"
  | .ne => "ne"
  | .gt => "gt"
  | .gte => "gte"
  | .lt => "lt"
  | .lte => "lte"

inductive FieldValue where
  | text (value : String)
  | uint (value : UInt64)
  | bool (value : Bool)
  deriving DecidableEq, Repr

def FieldValue.render : FieldValue → String
  | .text s => "\"" ++ s ++ "\""
  | .uint n => toString n
  | .bool b => toString b

/-- The closed set of requirements; those after `proofFresh` are for version 2 only. -/
inductive Requirement where
  | signatureValid
  | issuerTrusted (issuer : String)
  | issuerExcluded (issuer : String)
  | relationshipExists (relationship : String)
  | notExpired
  | notRevoked
  | notSuperseded
  | evidencePresent (kind : String)
  | transparencyPresent
  | proofFresh (maxAgeSeconds : UInt64)
  | delegatedAuthority (root issuer : String) (scope : Option String)
  | identityBound (a b : String)
  | transparencyInclusion (log : String)
  | noConflictingEvidence
  | vocabularyAccepted (ns : String) (maxVersion : UInt64)
  | evidenceUsable (kind : String)
  | evidenceBound (kind : String)
  | requiresReference (id : String)
  | forbidsReference (id : String)
  | claimField (claimType subject : Option String) (field : String) (op : FieldOp) (value : FieldValue)
  deriving DecidableEq, Repr

/-- Stable rendering for results and explanations. -/
def Requirement.describe : Requirement → String
  | .signatureValid => "signature_valid"
  | .issuerTrusted issuer => "issuer_trusted(" ++ issuer ++ ")"
  | .issuerExcluded issuer => "issuer_excluded(" ++ issuer ++ ")"
  | .relationshipExists relationship => "relationship_exists(" ++ relationship ++ ")"
  | .notExpired => "not_expired"
  | .notRevoked => "not_revoked"
  | .notSuperseded => "not_superseded"
  | .evidencePresent kind => "evidence_present(" ++ kind ++ ")"
  | .transparencyPresent => "transparency_present"
  | .proofFresh maxAgeSeconds => "proof_fresh(" ++ toString maxAgeSeconds ++ "s)"
  | .delegatedAuthority root issuer none =>
    "delegated_authority(root=" ++ root ++ ", issuer=" ++ issuer ++ ")"
  | .delegatedAuthority root issuer (some scope) =>
    "delegated_authority(root=" ++ root ++ ", issuer=" ++ issuer ++ ", scope=" ++ scope ++ ")"
  | .identityBound a b => "identity_bound(" ++ a ++ ", " ++ b ++ ")"
  | .transparencyInclusion log => "transparency_inclusion(" ++ log ++ ")"
  | .noConflictingEvidence => "no_conflicting_evidence"
  | .vocabularyAccepted ns maxVersion =>
    "vocabulary_accepted(" ++ ns ++ ", max_version=" ++ toString maxVersion ++ ")"
  | .evidenceUsable kind => "evidence_usable(" ++ kind ++ ")"
  | .evidenceBound kind => "evidence_bound(" ++ kind ++ ")"
  | .requiresReference id => "requires_reference(" ++ id ++ ")"
  | .forbidsReference id => "forbids_reference(" ++ id ++ ")"
  | .claimField claimType subject field op value =>
    "claim_field(" ++ (claimType.map fun t => "type=" ++ t ++ " ").getD "" ++
      (subject.map fun s => "subject=" ++ s ++ " ").getD "" ++ field ++ " " ++ op.asStr ++ " " ++
      value.render ++ ")"

/-- Expressions of version 2. -/
inductive PolicyExpr where
  | leaf (requirement : Requirement)
  | all (children : List PolicyExpr)
  | any (children : List PolicyExpr)
  | not (child : PolicyExpr)
  | threshold (k : Nat) (options : List PolicyExpr)
  deriving Repr

structure Policy where
  version : UInt8
  id : String
  requirements : List Requirement
  expression : Option PolicyExpr
  deriving Repr

/-! ## What an expression means -/

/-- Truth of an expression from the truth of its leaves; a threshold asks for a selection of at least
    `k` options that all hold. -/
def PolicyExpr.Holds (leafHolds : Requirement → Prop) : PolicyExpr → Prop
  | .leaf requirement => leafHolds requirement
  | .all children => ∀ child ∈ children, child.Holds leafHolds
  | .any children => ∃ child, ∃ _ : child ∈ children, child.Holds leafHolds
  | .not child => ¬ child.Holds leafHolds
  | .threshold k options =>
    ∃ selected : List PolicyExpr, ∃ _ : selected.Sublist options, k ≤ selected.length ∧
      ∀ child, ∀ _ : child ∈ selected, child.Holds leafHolds
termination_by expression => sizeOf expression
decreasing_by
  all_goals simp_wf
  · have smaller := List.sizeOf_lt_of_mem ‹child ∈ children›
    omega
  · have smaller := List.sizeOf_lt_of_mem ‹child ∈ children›
    omega
  · have smaller := List.sizeOf_lt_of_mem (List.Sublist.subset ‹selected.Sublist options› ‹child ∈ selected›)
    omega

end ProofEngine
