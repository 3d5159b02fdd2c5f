import ProofEngine.Format.Cbor

/-! # Heads

A head is its initial byte followed by a big-endian word of zero, one, two, four or eight
bytes.  `headInfo` and `headWord` name the two parts of the shortest form; `readArg`
accepts exactly that form. -/

namespace ProofEngine

open Text

/-- The low five bits of the shortest head for `n`. -/
def headInfo (n : UInt64) : UInt8 :=
  if n < 24 then n.toUInt8
  else if n ≤ 0xff then 24
  else if n ≤ 0xffff then 25
  else if n ≤ 0xffffffff then 26
  else 27

/-- The bytes that follow the initial byte of the shortest head for `n`. -/
def headWord (n : UInt64) : Bytes :=
  if n < 24 then []
  else if n ≤ 0xff then Bytes.bigEndian 1 n.toNat
  else if n ≤ 0xffff then Bytes.bigEndian 2 n.toNat
  else if n ≤ 0xffffffff then Bytes.bigEndian 4 n.toNat
  else Bytes.bigEndian 8 n.toNat

theorem encodeHead_eq (major : UInt8) (n : UInt64) :
    encodeHead major n = (major <<< 5 ||| headInfo n) :: headWord n := by
  -- a one-byte argument is a word of width one
  have single : Bytes.bigEndian 1 n.toNat = [n.toUInt8] := by
    simp [Bytes.bigEndian]
  simp only [encodeHead, headInfo, headWord]
  split_ifs
  · rfl
  · rw [single]
  · rfl
  · rfl
  · rfl

/-! ## Initial bytes -/

theorem initialByte_major {major info : UInt8} (majorSmall : major < 8) (infoSmall : info < 32) :
    ((major <<< 5 ||| info) >>> 5).toNat = major.toNat := by
  have table : ∀ m : Fin 8, ∀ i : Fin 32,
      ((UInt8.ofNat m <<< 5 ||| UInt8.ofNat i) >>> 5).toNat = m := by decide +kernel
  have := table ⟨major.toNat, by simpa [UInt8.lt_iff_toNat_lt] using majorSmall⟩
    ⟨info.toNat, by simpa [UInt8.lt_iff_toNat_lt] using infoSmall⟩
  simpa using this

theorem initialByte_info {major info : UInt8} (majorSmall : major < 8) (infoSmall : info < 32) :
    (major <<< 5 ||| info) &&& 0x1f = info := by
  have table : ∀ m : Fin 8, ∀ i : Fin 32,
      (UInt8.ofNat m <<< 5 ||| UInt8.ofNat i) &&& 0x1f = UInt8.ofNat i := by decide +kernel
  have := table ⟨major.toNat, by simpa [UInt8.lt_iff_toNat_lt] using majorSmall⟩
    ⟨info.toNat, by simpa [UInt8.lt_iff_toNat_lt] using infoSmall⟩
  simpa using this

theorem initialByte_split (initial : UInt8) :
    UInt8.ofNat (initial >>> 5).toNat <<< 5 ||| (initial &&& 0x1f) = initial := by
  have table : ∀ b : Fin 256,
      UInt8.ofNat (UInt8.ofNat b >>> 5).toNat <<< 5 ||| (UInt8.ofNat b &&& 0x1f) = UInt8.ofNat b := by
    decide +kernel
  simpa using table ⟨initial.toNat, initial.toNat_lt⟩

theorem headInfo_lt (n : UInt64) : headInfo n < 32 := by
  simp only [headInfo]
  split_ifs with small
  · have : n.toNat < 24 := by simpa [UInt64.lt_iff_toNat_lt] using small
    rw [UInt8.lt_iff_toNat_lt, UInt64.toNat_toUInt8]
    simp
    omega
  all_goals decide

/-! ## Reading the argument back -/

theorem read_append {n : Nat} {word rest : Bytes} (length : word.length = n) :
    read n (word ++ rest) = .ok (word, rest) := by
  simp [read, ← length]

theorem read_eq_ok {n : Nat} {buf word rest : Bytes} (done : read n buf = .ok (word, rest)) :
    word.length = n ∧ buf = word ++ rest := by
  simp only [read] at done
  split at done
  · contradiction
  · cases done
    rename_i enough
    simp
    omega

theorem readWord_bigEndian {width bound : Nat} {form : String} {n : UInt64} {rest : Bytes}
    (large : bound < n.toNat) (fits : n.toNat < 256 ^ width) :
    readWord width bound form (Bytes.bigEndian width n.toNat ++ rest) = .ok (n, rest) := by
  simp only [readWord, read_append (Bytes.bigEndian_length width n.toNat), ok_bind,
    Bytes.wordValue_bigEndian, Nat.mod_eq_of_lt fits, UInt64.ofNat_toNat]
  rw [if_neg (by omega)]

theorem readWord_eq_ok {width bound : Nat} {form : String} {n : UInt64} {buf rest : Bytes}
    (narrow : width ≤ 8) (done : readWord width bound form buf = .ok (n, rest)) :
    bound < n.toNat ∧ n.toNat < 256 ^ width ∧ buf = Bytes.bigEndian width n.toNat ++ rest := by
  simp only [readWord, bind_eq_ok] at done
  obtain ⟨⟨word, after⟩, readDone, done⟩ := done
  obtain ⟨length, whole⟩ := read_eq_ok readDone
  simp only at done
  split at done
  · contradiction
  · rename_i large
    cases done
    have small := Bytes.wordValue_lt word
    rw [length] at small
    -- at most eight bytes are read
    have fits : Bytes.wordValue word < 2 ^ 64 :=
      lt_of_lt_of_le small (le_trans (Nat.pow_le_pow_right (by decide) narrow) (by decide))
    have value : (UInt64.ofNat (Bytes.wordValue word)).toNat = Bytes.wordValue word :=
      UInt64.toNat_ofNat_of_lt' fits
    rw [value]
    refine ⟨by omega, small, ?_⟩
    rw [whole, ← length, Bytes.bigEndian_wordValue]

/-- The shortest head reads back to its argument. -/
theorem readArg_headWord (n : UInt64) (rest : Bytes) :
    readArg (headInfo n) (headWord n ++ rest) = .ok (n, rest) := by
  have bounded := n.toNat_lt
  -- the shortest form that fits is the one written
  by_cases first : n < 24
  · have small : n.toNat < 24 := by simpa [UInt64.lt_iff_toNat_lt] using first
    have info : n.toUInt8 ≤ 23 := by
      rw [UInt8.le_iff_toNat_le, UInt64.toNat_toUInt8]
      simp
      omega
    have back : n.toUInt8.toUInt64 = n := by
      apply UInt64.toNat_inj.mp
      simp
      omega
    simp [readArg, headInfo, headWord, first, info, back]
  · have low : 23 < n.toNat := by
      have : ¬ n.toNat < 24 := by simpa [UInt64.lt_iff_toNat_lt] using first
      omega
    by_cases second : n ≤ 0xff
    · have small : n.toNat ≤ 0xff := by simpa [UInt64.le_iff_toNat_le] using second
      simp only [readArg, headInfo, headWord, first, second, if_true, if_false]
      exact readWord_bigEndian low (by omega)
    · have low : 0xff < n.toNat := by simpa [UInt64.le_iff_toNat_le] using second
      by_cases third : n ≤ 0xffff
      · have small : n.toNat ≤ 0xffff := by simpa [UInt64.le_iff_toNat_le] using third
        simp only [readArg, headInfo, headWord, first, second, third, if_true, if_false]
        exact readWord_bigEndian low (by omega)
      · have low : 0xffff < n.toNat := by simpa [UInt64.le_iff_toNat_le] using third
        by_cases fourth : n ≤ 0xffffffff
        · have small : n.toNat ≤ 0xffffffff := by simpa [UInt64.le_iff_toNat_le] using fourth
          simp only [readArg, headInfo, headWord, first, second, third, fourth, if_true, if_false]
          exact readWord_bigEndian low (by omega)
        · have low : 0xffffffff < n.toNat := by simpa [UInt64.le_iff_toNat_le] using fourth
          simp only [readArg, headInfo, headWord, first, second, third, fourth, if_false]
          exact readWord_bigEndian low (by omega)

/-- Only the shortest head is accepted. -/
theorem readArg_eq_ok {info : UInt8} {n : UInt64} {buf rest : Bytes}
    (done : readArg info buf = .ok (n, rest)) : info = headInfo n ∧ buf = headWord n ++ rest := by
  simp only [readArg] at done
  split_ifs at done with direct one two four eight
  · cases done
    have small : info.toNat ≤ 23 := by simpa [UInt8.le_iff_toNat_le] using direct
    have short : info.toUInt64 < 24 := by
      rw [UInt64.lt_iff_toNat_lt, UInt8.toNat_toUInt64]
      exact Nat.lt_of_le_of_lt small (by decide)
    simp [headInfo, headWord, short]
  · obtain ⟨low, high, whole⟩ := readWord_eq_ok (by decide) done
    have first : ¬ n < 24 := by simp [UInt64.lt_iff_toNat_lt]; omega
    have second : n ≤ 0xff := by simp [UInt64.le_iff_toNat_le]; omega
    simp [headInfo, headWord, first, second, one, whole]
  · obtain ⟨low, high, whole⟩ := readWord_eq_ok (by decide) done
    have first : ¬ n < 24 := by simp [UInt64.lt_iff_toNat_lt]; omega
    have second : ¬ n ≤ 0xff := by simp [UInt64.le_iff_toNat_le]; omega
    have third : n ≤ 0xffff := by simp [UInt64.le_iff_toNat_le]; omega
    simp [headInfo, headWord, first, second, third, two, whole]
  · obtain ⟨low, high, whole⟩ := readWord_eq_ok (by decide) done
    have first : ¬ n < 24 := by simp [UInt64.lt_iff_toNat_lt]; omega
    have second : ¬ n ≤ 0xff := by simp [UInt64.le_iff_toNat_le]; omega
    have third : ¬ n ≤ 0xffff := by simp [UInt64.le_iff_toNat_le]; omega
    have fourth : n ≤ 0xffffffff := by simp [UInt64.le_iff_toNat_le]; omega
    simp [headInfo, headWord, first, second, third, fourth, four, whole]
  · obtain ⟨low, high, whole⟩ := readWord_eq_ok (by decide) done
    have first : ¬ n < 24 := by simp [UInt64.lt_iff_toNat_lt]; omega
    have second : ¬ n ≤ 0xff := by simp [UInt64.le_iff_toNat_le]; omega
    have third : ¬ n ≤ 0xffff := by simp [UInt64.le_iff_toNat_le]; omega
    have fourth : ¬ n ≤ 0xffffffff := by simp [UInt64.le_iff_toNat_le]; omega
    simp [headInfo, headWord, first, second, third, fourth, eight, whole]

/-- Heads of one major type start a byte string in one way only. -/
theorem encodeHead_append_inj {major : UInt8} {left right : UInt64} {afterLeft afterRight : Bytes}
    (majorSmall : major < 8)
    (same : encodeHead major left ++ afterLeft = encodeHead major right ++ afterRight) :
    left = right ∧ afterLeft = afterRight := by
  simp only [encodeHead_eq, List.cons_append, List.cons.injEq] at same
  obtain ⟨initials, words⟩ := same
  -- the first byte spells the form, the form how much to read
  have infos : headInfo left = headInfo right := by
    rw [← initialByte_info majorSmall (headInfo_lt left), initials,
      initialByte_info majorSmall (headInfo_lt right)]
  have readLeft := readArg_headWord left afterLeft
  rw [infos, words, readArg_headWord right afterRight] at readLeft
  simp only [Except.ok.injEq, Prod.mk.injEq] at readLeft
  exact ⟨readLeft.1.symm, readLeft.2.symm⟩

/-- The major type is visible in the first byte. -/
theorem encodeHead_major {major other : UInt8} {left right : UInt64} {afterLeft afterRight : Bytes}
    (majorSmall : major < 8) (otherSmall : other < 8)
    (same : encodeHead major left ++ afterLeft = encodeHead other right ++ afterRight) :
    major = other := by
  simp only [encodeHead_eq, List.cons_append, List.cons.injEq] at same
  apply UInt8.toNat_inj.mp
  rw [← initialByte_major majorSmall (headInfo_lt left), same.1,
    initialByte_major otherSmall (headInfo_lt right)]

end ProofEngine
