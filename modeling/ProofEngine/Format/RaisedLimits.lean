import ProofEngine.Format.Schema
import ProofEngine.Lib.ResultOrder

/-! # Decoding under raised limits

Limits only refuse: where a decoder or parser returns a value, it returns the same value under
higher limits. -/

namespace ProofEngine

open StableSort Text ResultOrder

/-- Every limit is at most its counterpart. -/
structure Limits.Below (lower upper : Limits) : Prop where
  maxProofSize : lower.maxProofSize ≤ upper.maxProofSize
  maxFieldSize : lower.maxFieldSize ≤ upper.maxFieldSize
  maxDepth : lower.maxDepth ≤ upper.maxDepth
  maxArrayItems : lower.maxArrayItems ≤ upper.maxArrayItems
  maxMapEntries : lower.maxMapEntries ≤ upper.maxMapEntries
  maxEvidenceItems : lower.maxEvidenceItems ≤ upper.maxEvidenceItems
  maxNodes : lower.maxNodes ≤ upper.maxNodes
  maxEdges : lower.maxEdges ≤ upper.maxEdges
  maxSigSize : lower.maxSigSize ≤ upper.maxSigSize
  maxPolicyRequirements : lower.maxPolicyRequirements ≤ upper.maxPolicyRequirements
  maxStatusObjects : lower.maxStatusObjects ≤ upper.maxStatusObjects
  maxTrustedIssuers : lower.maxTrustedIssuers ≤ upper.maxTrustedIssuers
  maxRevocationAuthorities : lower.maxRevocationAuthorities ≤ upper.maxRevocationAuthorities
  maxReferencedProofs : lower.maxReferencedProofs ≤ upper.maxReferencedProofs
  maxVocabularies : lower.maxVocabularies ≤ upper.maxVocabularies

theorem Limits.Below.refl (limits : Limits) : limits.Below limits := by
  constructor <;> exact UInt64.le_refl _

/-- The limits above all others. -/
def Limits.highest : Limits where
  maxProofSize := 0xffffffffffffffff
  maxFieldSize := 0xffffffffffffffff
  maxDepth := 0xffffffffffffffff
  maxArrayItems := 0xffffffffffffffff
  maxMapEntries := 0xffffffffffffffff
  maxEvidenceItems := 0xffffffffffffffff
  maxNodes := 0xffffffffffffffff
  maxEdges := 0xffffffffffffffff
  maxSigSize := 0xffffffffffffffff
  maxPolicyRequirements := 0xffffffffffffffff
  maxStatusObjects := 0xffffffffffffffff
  maxTrustedIssuers := 0xffffffffffffffff
  maxRevocationAuthorities := 0xffffffffffffffff
  maxReferencedProofs := 0xffffffffffffffff
  maxVocabularies := 0xffffffffffffffff

theorem Limits.below_highest (limits : Limits) : limits.Below .highest := by
  have bounded : ∀ limit : UInt64, limit ≤ 0xffffffffffffffff := fun limit =>
    UInt64.le_iff_toNat_le.mpr (Nat.le_pred_of_lt limit.toNat_lt)
  constructor <;> exact bounded _

/-- A count over the higher limit is over the lower one. -/
theorem toNat_lt_of_le {lower upper : UInt64} (below : lower ≤ upper) {count : Nat}
    (exceeds : upper.toNat < count) : lower.toNat < count :=
  lt_of_le_of_lt (UInt64.le_iff_toNat_le.mp below) exceeds

/-! ## Decoder -/

theorem readLen_extends {lower upper : UInt64} (below : lower ≤ upper) (ai : UInt8) (what : String) (buf : Bytes) :
    Extends (readLen ai lower what buf) (readLen ai upper what buf) := by
  refine (Extends.refl _).bind fun read => Extends.guard ?_ (.refl _)
  intro exceeds
  exact UInt64.lt_of_le_of_lt below exceeds

section
variable {decode decode' : Bytes → Result (CborValue × Bytes)}

theorem decodeItems_extends (nested : ∀ buf, Extends (decode buf) (decode' buf)) (count : Nat) (buf : Bytes) :
    Extends (decodeItems decode count buf) (decodeItems decode' count buf) := by
  induction count generalizing buf with
  | zero => exact .refl _
  | succ count inductionHypothesis =>
    exact (nested buf).bind fun read => (inductionHypothesis read.2).bind fun _ => .refl _

theorem decodePairs_extends (nested : ∀ buf, Extends (decode buf) (decode' buf)) (count : Nat)
    (previous : Option Bytes) (buf : Bytes) :
    Extends (decodePairs decode count previous buf) (decodePairs decode' count previous buf) := by
  induction count generalizing previous buf with
  | zero => exact .refl _
  | succ count inductionHypothesis =>
    refine (nested buf).bind fun key => (nested key.2).bind fun value => ?_
    exact (Extends.refl _).bind fun _ => (inductionHypothesis _ value.2).bind fun _ => .refl _

variable {lower upper : Limits}

theorem decodeBody_extends (below : lower.Below upper) (nested : ∀ buf, Extends (decode buf) (decode' buf))
    (major : Nat) (ai : UInt8) (buf : Bytes) :
    Extends (decodeBody lower decode major ai buf) (decodeBody upper decode' major ai buf) := by
  -- one case per major type; only strings, arrays and maps are measured
  match major with
  | 0 => exact .refl _
  | 1 => exact .refl _
  | 2 => exact (readLen_extends below.maxFieldSize ai _ buf).bind fun _ => .refl _
  | 3 => exact (readLen_extends below.maxFieldSize ai _ buf).bind fun _ => .refl _
  | 4 =>
    refine (readLen_extends below.maxArrayItems ai _ buf).bind fun read => ?_
    exact (decodeItems_extends nested read.1 read.2).bind fun _ => .refl _
  | 5 =>
    refine (readLen_extends below.maxMapEntries ai _ buf).bind fun read => ?_
    exact (decodePairs_extends nested read.1 none read.2).bind fun _ => .refl _
  | 6 => exact .refl _
  | 7 => exact .refl _
  | _ + 8 => exact .refl _

end

section
variable {lower upper : Limits}

theorem decodeValue_extends (below : lower.Below upper) {room room' : Nat} (deeper : room ≤ room') (buf : Bytes) :
    Extends (decodeValue lower room buf) (decodeValue upper room' buf) := by
  induction room generalizing room' buf with
  | zero => exact extends_error _ _
  | succ room inductionHypothesis =>
    obtain ⟨more, rfl⟩ : ∃ more, room' = more + 1 := ⟨room' - 1, by omega⟩
    cases buf with
    | nil => exact .refl _
    | cons initial rest => exact decodeBody_extends below (inductionHypothesis (by omega)) _ _ rest

theorem decodeStrict_extends (below : lower.Below upper) (bytes : Bytes) :
    Extends (decodeStrict bytes lower) (decodeStrict bytes upper) := by
  refine Extends.guard (toNat_lt_of_le below.maxProofSize) ?_
  have deeper : lower.maxDepth.toNat + 1 ≤ upper.maxDepth.toNat + 1 := by
    have depths := UInt64.le_iff_toNat_le.mp below.maxDepth
    omega
  exact (decodeValue_extends below deeper bytes).bind fun _ => .refl _

/-! ## Schemas -/

theorem memberMap_extends (below : lower.Below upper) (what : String) (value : CborValue) :
    Extends (memberMap what lower value) (memberMap what upper value) := by
  cases value with
  | map entries => exact Extends.guard (toNat_lt_of_le below.maxMapEntries) (.refl _)
  | _ => exact .refl _

theorem cborToEvent_extends (below : lower.Below upper) (value : CborValue) :
    Extends (cborToEvent lower value) (cborToEvent upper value) :=
  (memberMap_extends below _ value).bind fun _ => .refl _

theorem cborToAttestation_extends (below : lower.Below upper) (value : CborValue) :
    Extends (cborToAttestation lower value) (cborToAttestation upper value) :=
  (memberMap_extends below _ value).bind fun _ => .refl _

theorem cborToEvidence_extends (below : lower.Below upper) (value : CborValue) :
    Extends (cborToEvidence lower value) (cborToEvidence upper value) :=
  (memberMap_extends below _ value).bind fun _ => .refl _

theorem cborToRelationship_extends (below : lower.Below upper) (value : CborValue) :
    Extends (cborToRelationship lower value) (cborToRelationship upper value) :=
  (memberMap_extends below _ value).bind fun _ => .refl _

theorem cborToProposition_extends (below : lower.Below upper) (value : CborValue) :
    Extends (cborToProposition lower value) (cborToProposition upper value) :=
  (memberMap_extends below _ value).bind fun _ => .refl _

theorem sign1FromCbor_extends (below : lower.Below upper) (value : CborValue) :
    Extends (sign1FromCbor lower value) (sign1FromCbor upper value) := by
  cases value with
  | bytes sign1 =>
    refine Extends.guard ?_ (.refl _)
    simp only [Bool.or_eq_true, decide_eq_true_eq]
    exact Or.imp_right (toNat_lt_of_le below.maxProofSize)
  | _ => exact .refl _

theorem cborToAttestationEntry_extends (below : lower.Below upper) (value : CborValue) :
    Extends (cborToAttestationEntry lower value) (cborToAttestationEntry upper value) := by
  cases value with
  | map entries =>
    refine (Extends.refl _).bind fun _ => (Extends.refl _).bind fun content => ?_
    refine (cborToAttestation_extends below content).bind fun _ => (Extends.refl _).bind fun sign1 => ?_
    exact (sign1FromCbor_extends below sign1).bind fun _ => .refl _
  | _ => exact .refl _

theorem cborToReferencedProofs_extends (below : lower.Below upper) (entries : Entries) :
    Extends (cborToReferencedProofs lower entries) (cborToReferencedProofs upper entries) := by
  simp only [cborToReferencedProofs]
  split
  · exact .refl _
  · exact Extends.guard (toNat_lt_of_le below.maxReferencedProofs) (.refl _)
  · exact .refl _

theorem cborToVocabularies_extends (below : lower.Below upper) (entries : Entries) :
    Extends (cborToVocabularies lower entries) (cborToVocabularies upper entries) := by
  simp only [cborToVocabularies]
  split
  · exact .refl _
  · exact Extends.guard (toNat_lt_of_le below.maxVocabularies) (.refl _)
  · exact .refl _

theorem cborToProof_extends (below : lower.Below upper) (value : CborValue) :
    Extends (cborToProof lower value) (cborToProof upper value) := by
  cases value with
  | map entries =>
    refine (Extends.refl _).bind fun _ => (Extends.refl _).bind fun _ => (Extends.refl _).bind fun proofId => ?_
    refine Extends.ite (.refl _) ?_
    refine (Extends.refl _).bind fun proposition => (cborToProposition_extends below proposition).bind fun _ => ?_
    refine (Extends.refl _).bind fun _ => (Extends.refl _).bind fun events => ?_
    refine (Extends.mapM (cborToEvent_extends below) events).bind fun _ => (Extends.refl _).bind fun stored => ?_
    refine (Extends.mapM (cborToAttestationEntry_extends below) stored).bind fun _ => ?_
    refine (Extends.refl _).bind fun evidence => ?_
    refine (Extends.mapM (cborToEvidence_extends below) evidence).bind fun _ => ?_
    refine (Extends.refl _).bind fun relationships => ?_
    refine (Extends.mapM (cborToRelationship_extends below) relationships).bind fun _ => ?_
    refine (cborToReferencedProofs_extends below entries).bind fun _ => ?_
    -- the counts are compared after all members have been parsed
    refine Extends.guard (toNat_lt_of_le below.maxEdges) ?_
    refine Extends.guard (toNat_lt_of_le below.maxNodes) ?_
    exact (cborToVocabularies_extends below entries).bind fun _ => .refl _
  | _ => exact .refl _

theorem readProof_extends (below : lower.Below upper) (bytes : Bytes) :
    Extends (decodeStrict bytes lower >>= cborToProof lower) (decodeStrict bytes upper >>= cborToProof upper) :=
  (decodeStrict_extends below bytes).bind fun value => cborToProof_extends below value

/-- Whoever reads a proof reads the same proof, whatever the limits. -/
theorem readProof_unique {limits others : Limits} {bytes : Bytes} {proof other : Proof}
    (read : (decodeStrict bytes limits >>= cborToProof limits) = .ok proof)
    (readOther : (decodeStrict bytes others >>= cborToProof others) = .ok other) : proof = other := by
  have highest := readProof_extends limits.below_highest bytes _ read
  have highestOther := readProof_extends others.below_highest bytes _ readOther
  exact Except.ok.inj (highest.symm.trans highestOther)

end

end ProofEngine
