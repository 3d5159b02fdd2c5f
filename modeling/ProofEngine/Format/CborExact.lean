import ProofEngine.Format.CborRoundTrip

/-! # What strict decoding accepts

Strict decoding accepts the canonical encodings of the values within the limits, and nothing else. -/

namespace ProofEngine

open CborValue

section
variable {limits : Limits} {nested : Bytes → Result (CborValue × Bytes)} {room : Nat}

theorem decodeItems_nesting (bounded : ∀ buf value rest, nested buf = .ok (value, rest) → value.nesting < room) :
    ∀ {n : Nat} {buf rest : Bytes} {items : List CborValue}, decodeItems nested n buf = .ok (items, rest) →
      nestingItems items ≤ room
  | 0, _, _, _, done => by
    cases done
    exact Nat.zero_le _
  | n + 1, _, _, _, done => by
    simp only [decodeItems, bind_eq_ok] at done
    obtain ⟨⟨item, _⟩, itemDone, ⟨others, _⟩, othersDone, done⟩ := done
    cases done
    exact max_le (bounded _ _ _ itemDone) (decodeItems_nesting bounded othersDone)

theorem decodePairs_nesting (bounded : ∀ buf value rest, nested buf = .ok (value, rest) → value.nesting < room) :
    ∀ {n : Nat} {previous : Option Bytes} {buf rest : Bytes} {pairs : List (CborValue × CborValue)},
      decodePairs nested n previous buf = .ok (pairs, rest) → nestingPairs pairs ≤ room
  | 0, _, _, _, _, done => by
    cases done
    exact Nat.zero_le _
  | n + 1, _, _, _, _, done => by
    simp only [decodePairs, bind_eq_ok] at done
    obtain ⟨⟨key, _⟩, keyDone, ⟨value, _⟩, valueDone, _, _, ⟨others, _⟩, othersDone, done⟩ := done
    cases done
    exact max_le (max_le (bounded _ _ _ keyDone) (bounded _ _ _ valueDone)) (decodePairs_nesting bounded othersDone)

theorem decodeBody_nesting (bounded : ∀ buf value rest, nested buf = .ok (value, rest) → value.nesting < room)
    {major : Nat} {info : UInt8} {buf rest : Bytes} {value : CborValue}
    (done : decodeBody limits nested major info buf = .ok (value, rest)) : value.nesting ≤ room := by
  unfold decodeBody at done
  -- only arrays and maps have anything nested in them
  split at done
  · simp only [bind_eq_ok] at done
    obtain ⟨_, _, done⟩ := done
    cases done
    exact Nat.zero_le _
  · simp only [bind_eq_ok] at done
    obtain ⟨_, _, decoded, nintDone, done⟩ := done
    cases done
    rw [decodeNint] at nintDone
    split at nintDone
    · cases nintDone
    · cases nintDone
      exact Nat.zero_le _
  · simp only [bind_eq_ok] at done
    obtain ⟨_, _, _, _, done⟩ := done
    cases done
    exact Nat.zero_le _
  · simp only [bind_eq_ok] at done
    obtain ⟨_, _, _, _, decoded, textDone, done⟩ := done
    cases done
    obtain ⟨_, rfl, _⟩ := decodeText_eq_ok textDone
    exact Nat.zero_le _
  · simp only [bind_eq_ok] at done
    obtain ⟨_, _, _, itemsDone, done⟩ := done
    cases done
    exact decodeItems_nesting bounded itemsDone
  · simp only [bind_eq_ok] at done
    obtain ⟨_, _, _, pairsDone, done⟩ := done
    cases done
    exact decodePairs_nesting bounded pairsDone
  · cases done
  · simp only [bind_eq_ok] at done
    obtain ⟨decoded, simpleDone, done⟩ := done
    cases done
    simp only [decodeSimple] at simpleDone
    split_ifs at simpleDone
    all_goals
      cases simpleDone
      exact Nat.zero_le _
  · cases done

theorem decodeValue_nesting (limits : Limits) : ∀ (room : Nat) (buf : Bytes) (value : CborValue) (rest : Bytes),
    decodeValue limits room buf = .ok (value, rest) → value.nesting < room
  | 0, _, _, _, done => by simp [decodeValue] at done
  | _ + 1, [], _, _, done => by simp [decodeValue] at done
  | room + 1, _ :: _, _, _, done => Nat.lt_succ_of_le (decodeBody_nesting (decodeValue_nesting limits room) done)

/-- Strict decoding accepts `bytes` as `value`. -/
structure StrictlyEncodes (limits : Limits) (value : CborValue) (bytes : Bytes) : Prop where
  encoded : bytes = encodeCanonical value
  canonical : Canonical limits value
  depth : value.nesting ≤ limits.maxDepth.toNat
  size : bytes.length ≤ limits.maxProofSize.toNat

theorem decodeStrict_eq_ok {bytes : Bytes} {value : CborValue} :
    decodeStrict bytes limits = .ok value ↔ StrictlyEncodes limits value bytes := by
  constructor
  · intro done
    obtain ⟨encoded, canonical⟩ := decodeStrict_sound done
    rw [decodeStrict] at done
    split at done
    · cases done
    · rename_i size
      obtain ⟨⟨decoded, rest⟩, valueDone, done⟩ := bind_eq_ok.mp done
      have depth := decodeValue_nesting _ _ _ _ _ valueDone
      simp only at done
      split at done
      · cases done
      · cases done
        exact ⟨encoded, canonical, Nat.le_of_lt_succ depth, not_lt.mp size⟩
  · rintro ⟨rfl, canonical, depth, size⟩
    exact decodeStrict_encodeCanonical canonical depth size

end

end ProofEngine
