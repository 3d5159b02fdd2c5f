import ProofEngine.Format.CborExact
import ProofEngine.Format.ProofBytes

/-! # Replacing a field of an encoded proof

A field whose new value takes no more bytes can be exchanged in strictly encoded bytes: the
result is strictly encoded again, and parsers that do not read the field see no difference. -/

namespace ProofEngine

open CborValue

/-- The entries with another value under the text `key`. -/
def setField (key : String) (value : CborValue) (entries : Entries) : Entries :=
  entries.map fun entry => if isKey key entry.1 then (entry.1, value) else entry

section
variable {key : String} {value : CborValue} {entries : Entries}

@[simp] theorem length_setField : (setField key value entries).length = entries.length :=
  List.length_map _

theorem map_fst_setField : (setField key value entries).map Prod.fst = entries.map Prod.fst := by
  rw [setField, List.map_map]
  refine List.map_congr_left fun entry _ => ?_
  by_cases found : isKey key entry.1 <;> simp [found]

theorem findField_setField_self {old : CborValue} (found : findField entries key = some old) :
    findField (setField key value entries) key = some value := by
  induction entries with
  | nil => cases found
  | cons entry entries inductionHypothesis =>
    by_cases here : isKey key entry.1 = true
    · simp [findField, setField, here]
    · have rest : findField entries key = some old := by simpa [findField, here] using found
      simpa [findField, setField, here] using inductionHypothesis rest

theorem findField_setField_other {other : String} (different : other ≠ key) :
    findField (setField key value entries) other = findField entries other := by
  induction entries with
  | nil => rfl
  | cons entry entries inductionHypothesis =>
    by_cases here : isKey key entry.1 = true
    · -- an entry under one text is not under another
      have elsewhere : isKey other entry.1 = false := by
        rw [isKey_iff.mp here]
        simpa [isKey] using different.symm
      simpa [findField, setField, here, elsewhere] using inductionHypothesis
    · by_cases found : isKey other entry.1 = true
      · simp [findField, setField, here, found]
      · simpa [findField, setField, here, found] using inductionHypothesis

theorem requireField_setField_other {other : String} (different : other ≠ key) :
    requireField (setField key value entries) other = requireField entries other := by
  rw [requireField, requireField, findField_setField_other different]

theorem textField_setField_other {other : String} (different : other ≠ key) :
    textField (setField key value entries) other = textField entries other := by
  rw [textField, textField, requireField_setField_other different]

theorem cborArray_setField_other {other : String} (different : other ≠ key) :
    cborArray (setField key value entries) other = cborArray entries other := by
  rw [cborArray, cborArray, requireField_setField_other different]

theorem closed_setField {allowed : List String}
    (closed : ∀ entry ∈ entries, ∃ name ∈ allowed, entry.1 = .text name) :
    ∀ entry ∈ setField key value entries, ∃ name ∈ allowed, entry.1 = .text name := by
  intro entry member
  have key : entry.1 ∈ entries.map Prod.fst := by
    rw [← map_fst_setField]
    exact List.mem_map_of_mem member
  obtain ⟨original, originalMember, same⟩ := List.mem_map.mp key
  obtain ⟨name, allowedName, text⟩ := closed original originalMember
  exact ⟨name, allowedName, same.symm.trans text⟩

/-! ## Encoding -/

variable {limits : Limits} {old : CborValue}

theorem canonical_setField (canonical : Canonical limits (.map entries)) (fresh : Canonical limits value) :
    Canonical limits (.map (setField key value entries)) := by
  obtain ⟨whole, parts⟩ := everywhere_map.mp canonical
  refine everywhere_map.mpr ⟨⟨?_, ?_, trivial, ?_⟩, ?_⟩
  · -- order and distinctness only look at the keys
    have ordered : (entries.map Prod.fst).Pairwise fun left right => encodeCanonical left ≤ encodeCanonical right :=
      List.pairwise_map.mpr whole.ordered
    rw [← @map_fst_setField key value entries] at ordered
    exact (List.pairwise_map (R := fun left right => encodeCanonical left ≤ encodeCanonical right)).mp ordered
  · have distinct : ((entries.map Prod.fst).map encodeCanonical).Nodup := by
      rw [List.map_map]
      exact whole.distinct
    rw [← @map_fst_setField key value entries, List.map_map] at distinct
    exact distinct
  · have admitted : entries.length ≤ limits.maxMapEntries.toNat := whole.admitted
    rw [← @length_setField key value entries] at admitted
    exact admitted
  · intro entry member
    obtain ⟨original, originalMember, rfl⟩ := List.mem_map.mp member
    by_cases here : isKey key original.1 = true
    · rw [if_pos here]
      exact ⟨(parts original originalMember).1, fresh⟩
    · rw [if_neg here]
      exact parts original originalMember

/-- With distinct keys an entry is either unchanged or the one that was looked up. -/
theorem setField_entry (unique : UniqueKeys entries) (found : findField entries key = some old)
    {entry : CborValue × CborValue} (member : entry ∈ entries) (here : isKey key entry.1 = true) :
    entry.2 = old := by
  obtain ⟨name, held⟩ := entry
  have text : name = .text key := isKey_iff.mp here
  subst text
  exact Option.some.inj ((findField_of_mem unique member).symm.trans found)

theorem nesting_setField_le (unique : UniqueKeys entries) (found : findField entries key = some old)
    (shallow : value.nesting ≤ old.nesting) :
    (map (setField key value entries)).nesting ≤ (map entries).nesting := by
  rw [CborValue.nesting, CborValue.nesting, nestingPairs_le]
  intro entry member
  obtain ⟨original, originalMember, rfl⟩ := List.mem_map.mp member
  obtain ⟨keyBelow, valueBelow⟩ := nestingPairs_le.mp le_rfl original originalMember
  by_cases here : isKey key original.1 = true
  · rw [if_pos here]
    rw [setField_entry unique found originalMember here] at valueBelow
    exact ⟨keyBelow, (Nat.succ_le_succ shallow).trans valueBelow⟩
  · rw [if_neg here]
    exact ⟨keyBelow, valueBelow⟩

theorem length_flatMap_le {α : Type} {items : List α} {wide narrow : α → Bytes}
    (below : ∀ item ∈ items, (narrow item).length ≤ (wide item).length) :
    (items.flatMap narrow).length ≤ (items.flatMap wide).length := by
  induction items with
  | nil => exact Nat.le_refl _
  | cons item items inductionHypothesis =>
    obtain ⟨first, rest⟩ := List.forall_mem_cons.mp below
    have remaining := inductionHypothesis rest
    simp only [List.flatMap_cons, List.length_append]
    omega

theorem length_encode_setField_le (canonical : Canonical limits (.map entries)) (fresh : Canonical limits value)
    (found : findField entries key = some old)
    (short : (encodeValue value).length ≤ (encodeValue old).length) :
    (encodeCanonical (.map (setField key value entries))).length ≤ (encodeCanonical (.map entries)).length := by
  have unique : UniqueKeys entries := canonical.ascending.uniqueKeys
  rw [encodeCanonical, encodeCanonical, encodeValue_map_of_ordered canonical.self.ordered,
    encodeValue_map_of_ordered (canonical_setField canonical fresh).self.ordered, length_setField, setField,
    List.length_append, List.length_append, List.flatMap_assoc, List.flatMap_assoc, List.flatMap_map]
  refine Nat.add_le_add_left (length_flatMap_le fun entry member => ?_) _
  by_cases here : isKey key entry.1 = true
  · simp only [here, setField_entry unique found member here, List.flatMap_cons, List.flatMap_nil,
      List.length_append, List.length_nil, if_true]
    omega
  · simp [here]

theorem strictlyEncodes_setField {bytes : Bytes} (encodes : StrictlyEncodes limits (.map entries) bytes)
    (fresh : Canonical limits value) (found : findField entries key = some old)
    (shallow : value.nesting ≤ old.nesting)
    (short : (encodeValue value).length ≤ (encodeValue old).length) :
    StrictlyEncodes limits (.map (setField key value entries))
      (encodeCanonical (.map (setField key value entries))) where
  encoded := rfl
  canonical := canonical_setField encodes.canonical fresh
  depth := (nesting_setField_le encodes.canonical.ascending.uniqueKeys found shallow).trans encodes.depth
  size := by
    have length := length_encode_setField_le encodes.canonical fresh found short
    rw [← encodes.encoded] at length
    exact length.trans encodes.size

end

/-! ## The creation time of a proof -/

/-- A smaller number never takes a longer head. -/
theorem length_encodeHead_mono (major : UInt8) {small large : UInt64} (below : small ≤ large) :
    (encodeHead major small).length ≤ (encodeHead major large).length := by
  have tail : ∀ {width n : Nat}, (Bytes.bigEndian width n).length = width := by simp
  rw [UInt64.le_iff_toNat_le] at below
  unfold encodeHead
  simp only [UInt64.lt_iff_toNat_lt, UInt64.le_iff_toNat_le]
  split_ifs <;> simp only [List.length_cons, List.length_nil, tail] <;> omega

/-- Another creation time, with an encoding no longer than that of the old one. -/
def otherTime (time : UInt64) : UInt64 := if time = 0 then 1 else time - 1

theorem toNat_otherTime {time : UInt64} (nonzero : time ≠ 0) : (otherTime time).toNat = time.toNat - 1 := by
  have positive : time.toNat ≠ 0 := fun zero => nonzero (UInt64.toNat_inj.mp zero)
  have one : (1 : UInt64) ≤ time := UInt64.le_iff_toNat_le.mpr (Nat.one_le_iff_ne_zero.mpr positive)
  rw [otherTime, if_neg nonzero, UInt64.toNat_sub_of_le _ _ one]
  rfl

theorem otherTime_ne (time : UInt64) : otherTime time ≠ time := by
  by_cases zero : time = 0
  · subst zero
    decide
  · intro same
    have below := toNat_otherTime zero
    have positive : time.toNat ≠ 0 := fun start => zero (UInt64.toNat_inj.mp start)
    rw [same] at below
    omega

theorem length_otherTime_le (time : UInt64) :
    (encodeValue (.uint (otherTime time))).length ≤ (encodeValue (.uint time)).length := by
  by_cases zero : time = 0
  · subst zero
    decide
  · refine length_encodeHead_mono 0 (UInt64.le_iff_toNat_le.mpr ?_)
    rw [toNat_otherTime zero]
    exact Nat.sub_le _ _

/-- The creation time is read from its own field, and no other part of the proof is. -/
theorem cborToProof_setTime {limits : Limits} {entries : Entries} {proof : Proof}
    (parsed : cborToProof limits (.map entries) = .ok proof) (time : UInt64) :
    cborToProof limits (.map (setField "created_at" (.uint time) entries)) =
      .ok { proof with createdAt := time } := by
  obtain ⟨_, _, same, parts⟩ := cborToProof_entries parsed
  cases same
  have closed : checkClosed proofFields "Proof" (setField "created_at" (.uint time) entries) = .ok () :=
    checkClosed_eq_ok.mpr (closed_setField parts.closed)
  have created : uintField (setField "created_at" (.uint time) entries) "created_at" = .ok time :=
    uintField_eq_ok.mpr (findField_setField_self parts.createdAt)
  simp only [cborToProof, bind_eq_ok] at parsed
  obtain ⟨_, _, _, version, _, proofId, parsed⟩ := parsed
  split at parsed
  case isTrue => cases parsed
  case isFalse named =>
    simp only [bind_eq_ok] at parsed
    obtain ⟨_, propositionField, _, proposition, _, _, _, eventsField, _, events, _, attestationsField, _,
      attestations, _, evidenceField, _, evidence, _, relationshipsField, _, relationships, _, references,
      parsed⟩ := parsed
    split at parsed
    case isTrue => cases parsed
    case isFalse edges =>
      split at parsed
      case isTrue => cases parsed
      case isFalse nodes =>
        obtain ⟨_, vocabularies, parsed⟩ := bind_eq_ok.mp parsed
        cases parsed
        have sameVersion : checkVersion (setField "created_at" (.uint time) entries) = checkVersion entries := by
          rw [checkVersion, checkVersion, requireField_setField_other (by decide)]
        have sameReferences : cborToReferencedProofs limits (setField "created_at" (.uint time) entries) =
            cborToReferencedProofs limits entries := by
          rw [cborToReferencedProofs, cborToReferencedProofs, findField_setField_other (by decide)]
        have sameVocabularies : cborToVocabularies limits (setField "created_at" (.uint time) entries) =
            cborToVocabularies limits entries := by
          rw [cborToVocabularies, cborToVocabularies, findField_setField_other (by decide)]
        simp (disch := decide) only [cborToProof, closed, created, sameVersion, sameReferences,
          sameVocabularies, requireField_setField_other, textField_setField_other, cborArray_setField_other,
          version, proofId, named, propositionField, proposition, eventsField, events, attestationsField,
          attestations, evidenceField, evidence, relationshipsField, relationships, references, edges, nodes,
          vocabularies, ok_bind, if_false]
        rfl

/-- Next to any bytes that read as a proof there are others that read as the same proof of another time. -/
theorem exists_restamped {limits : Limits} {bytes : Bytes} {proof : Proof}
    (read : (decodeStrict bytes limits >>= cborToProof limits) = .ok proof) :
    ∃ otherBytes, (decodeStrict otherBytes limits >>= cborToProof limits) =
      .ok { proof with createdAt := otherTime proof.createdAt } := by
  obtain ⟨value, decoded, parsed⟩ := bind_eq_ok.mp read
  obtain ⟨_, entries, rfl, parts⟩ := cborToProof_entries parsed
  have encodes := strictlyEncodes_setField (decodeStrict_eq_ok.mp decoded)
    (canonical_uint (otherTime proof.createdAt)) parts.createdAt (Nat.le_refl 0)
    (length_otherTime_le proof.createdAt)
  exact ⟨_, bind_eq_ok.mpr ⟨_, decodeStrict_eq_ok.mpr encodes, cborToProof_setTime parsed _⟩⟩

end ProofEngine
