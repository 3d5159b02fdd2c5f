import ProofEngine.Verify.GraphFacts

/-! # Count limits

Which of the limits on counts a proof that was read is sure to meet.  The limit on evidence items is the one
that no stage looks at. -/

namespace ProofEngine

open Text CborValue

/-- The counts of a proof and of the value it was read from are within the limits. -/
structure CountsBounded (limits : Limits) (value : CborValue) (proof : Proof) : Prop where
  evidence : proof.evidence.length ≤ limits.maxEvidenceItems.toNat
  relationships : proof.relationships.length ≤ limits.maxEdges.toNat
  members : proof.events.length + proof.attestations.length + proof.evidence.length ≤ limits.maxNodes.toNat
  references : proof.referencedProofs.length ≤ limits.maxReferencedProofs.toNat
  vocabularies : proof.vocabularies.length ≤ limits.maxVocabularies.toNat
  arrays : ∀ items, .array items ∈ value.parts → items.length ≤ limits.maxArrayItems.toNat
  maps : ∀ pairs, .map pairs ∈ value.parts → pairs.length ≤ limits.maxMapEntries.toNat

theorem length_of_mapM {ε α β : Type} {step : α → Except ε β} {items : List α} {results : List β}
    (done : items.mapM step = .ok results) : results.length = items.length :=
  (mapM_eq_ok.mp done).length_eq.symm

section
variable {limits : Limits} {value : CborValue} {proof : Proof} {entries : Entries}

/-! ## Decoder -/

theorem Canonical.array_length {items : List CborValue} (canonical : Canonical limits value)
    (member : .array items ∈ value.parts) : items.length ≤ limits.maxArrayItems.toNat :=
  (canonical _ member).admitted

theorem Canonical.map_length {pairs : List (CborValue × CborValue)} (canonical : Canonical limits value)
    (member : .map pairs ∈ value.parts) : pairs.length ≤ limits.maxMapEntries.toNat :=
  (canonical _ member).admitted

/-! ## Schema -/

theorem cborToReferencedProofs_length {references : List String}
    (done : cborToReferencedProofs limits entries = .ok references) :
    references.length ≤ limits.maxReferencedProofs.toNat := by
  simp only [cborToReferencedProofs] at done
  split at done
  · cases done
    exact Nat.zero_le _
  · split at done
    · cases done
    rename_i few
    obtain ⟨found, read, done⟩ := bind_eq_ok.mp done
    split at done
    · cases done
    cases done
    rw [length_of_mapM read]
    exact not_lt.mp few
  · cases done

theorem cborToVocabularies_length {vocabularies : List VocabularyDecl}
    (done : cborToVocabularies limits entries = .ok vocabularies) :
    vocabularies.length ≤ limits.maxVocabularies.toNat := by
  simp only [cborToVocabularies] at done
  split at done
  · cases done
    exact Nat.zero_le _
  · split at done
    · cases done
    rename_i few
    obtain ⟨found, read, done⟩ := bind_eq_ok.mp done
    split at done
    · cases done
    cases done
    rw [length_of_mapM read]
    exact not_lt.mp few
  · cases done

/-- The two counts compared once all members have been parsed. -/
theorem cborToProof_counts (done : cborToProof limits value = .ok proof) :
    proof.relationships.length ≤ limits.maxEdges.toNat ∧
      proof.events.length + proof.attestations.length + proof.evidence.length ≤ limits.maxNodes.toNat := by
  cases value with
  | map entries =>
    simp only [cborToProof, bind_eq_ok] at done
    obtain ⟨_, _, _, _, _, _, done⟩ := done
    split at done
    · cases done
    · simp only [bind_eq_ok] at done
      obtain ⟨_, _, _, _, _, _, _, _, events, _, _, _, stored, _, _, _, evidence, _, _, _, relationships, _, _, _,
        done⟩ := done
      split at done
      · cases done
      rename_i fewEdges
      split at done
      · cases done
      rename_i fewMembers
      obtain ⟨_, _, done⟩ := bind_eq_ok.mp done
      cases done
      exact ⟨not_lt.mp fewEdges, not_lt.mp fewMembers⟩
  | _ => contradiction

theorem evidence_length_le (canonical : Canonical limits value) (parsed : cborToProof limits value = .ok proof) :
    proof.evidence.length ≤ limits.maxArrayItems.toNat := by
  obtain ⟨_, entries, rfl, parts⟩ := cborToProof_entries parsed
  obtain ⟨items, found, read⟩ := parts.evidence
  rw [length_of_mapM read]
  exact (canonical.findField found).array_length (self_mem_parts _)

/-- Everything but the number of evidence items is bounded by reading the proof. -/
theorem countsBounded_of_evidence (canonical : Canonical limits value) (parsed : cborToProof limits value = .ok proof)
    (few : proof.evidence.length ≤ limits.maxEvidenceItems.toNat) : CountsBounded limits value proof := by
  obtain ⟨fewEdges, fewMembers⟩ := cborToProof_counts parsed
  obtain ⟨_, entries, _, parts⟩ := cborToProof_entries parsed
  exact { evidence := few
          relationships := fewEdges
          members := fewMembers
          references := cborToReferencedProofs_length parts.references
          vocabularies := cborToVocabularies_length parts.vocabularies
          arrays := fun _ => canonical.array_length
          maps := fun _ => canonical.map_length }

end

/-- The counts of a valid proof are within all limits exactly when its evidence items are within theirs, which
    is certain when arrays or members are limited at least as much. -/
theorem countsBounded_iff (primitives : Primitives) (order : HashOrder) (ctx : VerifyCtx) (bytes : Bytes)
    (report : VerifyReport) (done : verifyProof primitives order ctx bytes = .ok report)
    (valid : report.cryptographicValidity = .valid ∧ report.evidenceValidity = .valid) :
    ∃ value proof, decodeStrict bytes ctx.limits = .ok value ∧ cborToProof ctx.limits value = .ok proof ∧
      (CountsBounded ctx.limits value proof ↔ proof.evidence.length ≤ ctx.limits.maxEvidenceItems.toNat) ∧
      (ctx.limits.maxArrayItems ≤ ctx.limits.maxEvidenceItems ∨ ctx.limits.maxNodes ≤ ctx.limits.maxEvidenceItems →
        CountsBounded ctx.limits value proof) := by
  cases verifyProof_ran done with
  | unparsed failed => cases valid.1
  | misshapen decoded failed => cases valid.1
  | @completed value proof _ _ _ _ stages =>
    have canonical := (decodeStrict_sound stages.decoded).2
    refine ⟨value, proof, stages.decoded, stages.parsed, ⟨CountsBounded.evidence, ?_⟩, ?_⟩
    · exact countsBounded_of_evidence canonical stages.parsed
    · intro lower
      apply countsBounded_of_evidence canonical stages.parsed
      rcases lower with arrays | nodes
      · exact (evidence_length_le canonical stages.parsed).trans (UInt64.le_iff_toNat_le.mp arrays)
      · have fewMembers := (cborToProof_counts stages.parsed).2
        have lower := UInt64.le_iff_toNat_le.mp nodes
        omega

theorem supersedingProof_bounded :
    ∃ value, decodeStrict supersedingBytes VerifyCtx.default.limits = .ok value ∧
      CountsBounded VerifyCtx.default.limits value supersedingProof := by
  have computed : ∃ report, verifyProof supersedingPrimitives .inserted VerifyCtx.default supersedingBytes =
      .ok report ∧ (report.cryptographicValidity, report.evidenceValidity) = (.valid, .valid) :=
    map_eq_ok.mp (by decide +kernel)
  obtain ⟨report, done, valid⟩ := computed
  obtain ⟨value, proof, decoded, parsed, bounded, _⟩ :=
    countsBounded_iff _ _ VerifyCtx.default _ report done (Prod.mk.inj valid)
  have read : (decodeStrict supersedingBytes VerifyCtx.default.limits >>= cborToProof VerifyCtx.default.limits) =
      .ok proof := bind_eq_ok.mpr ⟨value, decoded, parsed⟩
  have same := Except.ok.inj (supersedingProof_read.symm.trans read)
  subst same
  exact ⟨value, decoded, bounded.mpr (by decide)⟩

/-! ## One evidence item too many -/

def documentItem (byte : UInt8) : Evidence where
  v := 1
  kind := "document"
  digest := { v := 1, alg := .sha256, digest := List.replicate 32 byte }
  attestationRef := none
  hint := none

def documentBytes (byte : UInt8) : Bytes := encodeCanonical (evidenceToCbor (documentItem byte))

def firstDocumentDigest : Bytes :=
  [0x49, 0x79, 0xd5, 0xee, 0xae, 0xf9, 0xc5, 0x2b, 0xb3, 0x28, 0xb6, 0xd5, 0x07, 0x0f, 0x1f, 0xf7,
   0xab, 0x53, 0xad, 0x45, 0x00, 0x05, 0xa3, 0x77, 0x3e, 0x64, 0x0d, 0x9d, 0x37, 0x94, 0x13, 0x10]

def secondDocumentDigest : Bytes :=
  [0x77, 0xd3, 0x60, 0x3d, 0x56, 0x25, 0x84, 0x45, 0x1d, 0x94, 0xd4, 0x70, 0xfb, 0xc6, 0x4a, 0x60,
   0xd0, 0x45, 0x62, 0xaa, 0xa3, 0x03, 0x4e, 0x52, 0xd8, 0x87, 0xf1, 0x02, 0x1e, 0xb0, 0x69, 0xb3]

def documentTable : List (Bytes × Bytes) :=
  [(documentBytes 1, firstDocumentDigest), (documentBytes 2, secondDocumentDigest)]

/-- Two evidence items and nothing else. -/
def documentsProof : Proof :=
  { bareProof with
    proofId := "prf:v1:4UKnEI0n0c1VkayjcIhZMlnmuoZy3c9MaUxeNe5zGPM"
    evidence := [documentItem 1, documentItem 2] }

def documentsDigest : Bytes :=
  [0xe1, 0x42, 0xa7, 0x10, 0x8d, 0x27, 0xd1, 0xcd, 0x55, 0x91, 0xac, 0xa3, 0x70, 0x88, 0x59, 0x32,
   0x59, 0xe6, 0xba, 0x86, 0x72, 0xdd, 0xcf, 0x4c, 0x69, 0x4c, 0x5e, 0x35, 0xee, 0x73, 0x18, 0xf3]

def documentsPrimitives : Primitives :=
  Primitives.ofTable (documentTable ++
    [(encodeCanonical (bindingOf (Primitives.ofTable documentTable []) documentsProof), documentsDigest)]) []

def documentsBytes : Bytes := ((proofToCbor documentsProof).toOption.map encodeCanonical).getD []

/-- A context that allows one evidence item. -/
def oneItemContext : VerifyCtx :=
  { VerifyCtx.default with limits := { Limits.default with maxEvidenceItems := 1 } }

/-- Both verdicts on a proof with two evidence items are valid where one is allowed. -/
theorem documentsProof_valid :
    oneItemContext.limits.maxEvidenceItems.toNat < documentsProof.evidence.length ∧
      (decodeStrict documentsBytes oneItemContext.limits >>= cborToProof oneItemContext.limits) =
        .ok documentsProof ∧
      ∃ report, verifyProof documentsPrimitives .inserted oneItemContext documentsBytes = .ok report ∧
        (report.cryptographicValidity, report.evidenceValidity) = (.valid, .valid) := by
  refine ⟨by decide, by decide +kernel, map_eq_ok.mp (by decide +kernel)⟩

end ProofEngine
