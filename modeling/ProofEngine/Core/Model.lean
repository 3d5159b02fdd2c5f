import ProofEngine.Core.Error
import ProofEngine.Lib.Text

/-! # Domain model

Event types, evidence kinds and relationship types are open vocabularies, so they stay
plain text; only the constants that code compares against are named. -/

namespace ProofEngine

inductive HashAlgorithm where
  | sha256
  | sha384
  deriving DecidableEq, Repr

namespace HashAlgorithm

def cborEnum : HashAlgorithm → UInt64
  | .sha256 => 0
  | .sha384 => 1

def fromCborEnum (value : UInt64) : Result HashAlgorithm :=
  if value = 0 then .ok .sha256
  else if value = 1 then .ok .sha384
  else .error (ErrorCode.unknownAlgorithm.err ("unknown hash alg enum " ++ toString value))

def name : HashAlgorithm → String
  | .sha256 => "sha-256"
  | .sha384 => "sha-384"

def digestLen : HashAlgorithm → Nat
  | .sha256 => 32
  | .sha384 => 48

theorem fromCborEnum_eq_ok {value : UInt64} {algorithm : HashAlgorithm} :
    fromCborEnum value = .ok algorithm ↔ value = algorithm.cborEnum := by
  by_cases zero : value = 0
  · cases algorithm <;> simp [fromCborEnum, cborEnum, zero]
  · by_cases one : value = 1
    · cases algorithm <;> simp [fromCborEnum, cborEnum, one]
    · cases algorithm <;> simp [fromCborEnum, cborEnum, zero, one]

end HashAlgorithm

structure HashRef where
  v : UInt8
  alg : HashAlgorithm
  digest : Bytes
  deriving DecidableEq, Repr

def HashRef.new (alg : HashAlgorithm) (digest : Bytes) : Result HashRef :=
  if digest.length ≠ alg.digestLen then
    .error (ErrorCode.malformed.err
      ("digest len " ++ toString digest.length ++ " != " ++ toString alg.digestLen ++ " for " ++ alg.name))
  else .ok { v := 1, alg, digest }

inductive MetaValue where
  | text (value : String)
  | uint (value : UInt64)
  | bool (value : Bool)
  deriving DecidableEq, Repr

structure EventContent where
  v : UInt8
  eventType : String
  subject : String
  effectiveAt : UInt64
  payloadRef : HashRef
  metadata : List (String × MetaValue)
  deriving DecidableEq, Repr

structure Claim where
  claimType : String
  fields : List (String × MetaValue)
  deriving DecidableEq, Repr

structure AttestationContent where
  v : UInt8
  issuer : String
  subject : String
  claim : Claim
  issuedAt : UInt64
  expiresAt : Option UInt64
  evidenceRef : Option String
  deriving DecidableEq, Repr

structure Evidence where
  v : UInt8
  kind : String
  digest : HashRef
  attestationRef : Option String
  hint : Option String
  deriving DecidableEq, Repr

structure Relationship where
  v : UInt8
  source : String
  relType : String
  target : String
  evidenceRef : Option String
  attestationRef : Option String
  deriving DecidableEq, Repr

structure Proposition where
  v : UInt8
  kind : String
  subject : String
  predicate : String
  object : Option String
  atTime : Option UInt64
  context : List (String × MetaValue)
  deriving DecidableEq, Repr

structure StoredAttestation where
  content : AttestationContent
  sign1 : Bytes
  deriving DecidableEq, Repr

structure VocabularyDecl where
  ns : String
  version : UInt64
  deriving DecidableEq, Repr

structure VocabularyAccept where
  ns : String
  maxVersion : UInt64
  deriving DecidableEq, Repr

structure Proof where
  v : UInt8
  proofId : String
  proposition : Proposition
  events : List EventContent
  attestations : List StoredAttestation
  evidence : List Evidence
  relationships : List Relationship
  referencedProofs : List String
  vocabularies : List VocabularyDecl
  createdAt : UInt64
  deriving DecidableEq, Repr

namespace RelType

def owns : String := "OWNS"
def created : String := "CREATED"
def settles : String := "SETTLES"
def references : String := "REFERENCES"
def executed : String := "EXECUTED"
def supersedes : String := "SUPERSEDES"
def equivalent : String := "EQUIVALENT"
def contradicts : String := "CONTRADICTS"

/-- Trust-relevant edge types must carry backing evidence. -/
def requiresGrounding (relType : String) : Bool :=
  [owns, created, settles, executed, equivalent, contradicts].contains relType

end RelType

def EvidenceKind.transparencyReceipt : String := "transparency_receipt"

inductive LifecycleStatus where
  | active
  | expired
  | revoked
  | superseded
  | compromised
  | unknown
  deriving DecidableEq, Repr

inductive EvidenceStatus where
  | available
  | withdrawn
  | compromised
  | revoked
  | superseded
  | expired
  | unknown
  | unavailable
  deriving DecidableEq, Repr

/-- Namespace of a label: the text before its first colon, `legacy` without one. -/
def vocabularyNs (label : String) : String :=
  let lead := label.toList.takeWhile (· ≠ ':')
  if lead.length < label.toList.length && !lead.isEmpty then String.ofList lead else "legacy"

namespace IdKind

def event : String := "evt"
def attestation : String := "att"
def evidence : String := "evd"
def rel : String := "rel"
def proof : String := "prf"

end IdKind

end ProofEngine
