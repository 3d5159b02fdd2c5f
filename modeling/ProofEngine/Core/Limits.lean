import ProofEngine.Core.Error

/-! # Resource limits

`usize` is 64 bits wide. -/

namespace ProofEngine

structure Limits where
  maxProofSize : UInt64
  maxFieldSize : UInt64
  maxDepth : UInt64
  maxArrayItems : UInt64
  maxMapEntries : UInt64
  maxEvidenceItems : UInt64
  maxNodes : UInt64
  maxEdges : UInt64
  maxSigSize : UInt64
  maxPolicyRequirements : UInt64
  maxStatusObjects : UInt64
  maxTrustedIssuers : UInt64
  maxRevocationAuthorities : UInt64
  maxReferencedProofs : UInt64
  maxVocabularies : UInt64
  deriving DecidableEq, Repr

def Limits.default : Limits where
  maxProofSize := 1024 * 1024
  maxFieldSize := 64 * 1024
  maxDepth := 16
  maxArrayItems := 256
  maxMapEntries := 64
  maxEvidenceItems := 64
  maxNodes := 128
  maxEdges := 256
  maxSigSize := 256
  maxPolicyRequirements := 32
  maxStatusObjects := 64
  maxTrustedIssuers := 32
  maxRevocationAuthorities := 16
  maxReferencedProofs := 16
  maxVocabularies := 16

end ProofEngine
