import Mathlib.Data.List.Lex
import Mathlib.Order.Lattice
import Mathlib.Tactic.Ring

/-! # Byte strings

Byte strings are lists of `UInt8` ordered lexicographically, which is the order of byte
slices.  The module gives big-endian words of any width and the notion of a
self-delimiting code: an encoder whose output can be split off the front of any
longer byte string in one way only. -/

namespace ProofEngine

abbrev Bytes := List UInt8

instance linearOrderUInt8 : LinearOrder UInt8 where
  le_refl _ := UInt8.le_refl _
  le_trans _ _ _ := UInt8.le_trans
  lt_iff_le_not_ge left right := by
    simp only [UInt8.lt_iff_toNat_lt, UInt8.le_iff_toNat_le]
    omega
  le_antisymm _ _ := UInt8.le_antisymm
  le_total left right := by
    simp only [UInt8.le_iff_toNat_le]
    omega
  toDecidableLE := inferInstance
  toDecidableEq := inferInstance
  toDecidableLT := inferInstance

namespace Bytes

/-! ## Big-endian words -/

/-- The `width` low-order bytes of `value`, most significant first. -/
def bigEndian : (width value : Nat) → Bytes
  | 0, _ => []
  | width + 1, value => UInt8.ofNat (value / 256 ^ width) :: bigEndian width value

/-- The value of a big-endian word. -/
def wordValue : Bytes → Nat
  | [] => 0
  | byte :: rest => byte.toNat * 256 ^ rest.length + wordValue rest

@[simp] theorem bigEndian_length (width value : Nat) : (bigEndian width value).length = width := by
  induction width with
  | zero => rfl
  | succ width inductionHypothesis => simp [bigEndian, inductionHypothesis]

theorem wordValue_lt (word : Bytes) : wordValue word < 256 ^ word.length := by
  induction word with
  | nil => simp [wordValue]
  | cons byte rest inductionHypothesis =>
    have small : byte.toNat ≤ 255 := by have := byte.toNat_lt; omega
    calc wordValue (byte :: rest) = byte.toNat * 256 ^ rest.length + wordValue rest := rfl
      _ < byte.toNat * 256 ^ rest.length + 256 ^ rest.length := by omega
      _ ≤ 255 * 256 ^ rest.length + 256 ^ rest.length :=
        Nat.add_le_add_right (Nat.mul_le_mul_right _ small) _
      _ = 256 ^ (byte :: rest).length := by rw [List.length_cons, pow_succ]; ring

theorem bigEndian_add_mul (width value high : Nat) :
    bigEndian width (high * 256 ^ width + value) = bigEndian width value := by
  induction width generalizing high with
  | zero => rfl
  | succ width inductionHypothesis =>
    have split : high * 256 ^ (width + 1) + value = (high * 256) * 256 ^ width + value := by
      rw [pow_succ]; ring
    simp only [bigEndian]
    rw [split, inductionHypothesis (high * 256), Nat.add_comm,
      Nat.add_mul_div_right _ _ (Nat.pow_pos (by decide)), UInt8.ofNat_add, UInt8.ofNat_mul]
    simp

theorem bigEndian_wordValue (word : Bytes) : bigEndian word.length (wordValue word) = word := by
  induction word with
  | nil => rfl
  | cons byte rest inductionHypothesis =>
    have small := wordValue_lt rest
    have top : (byte.toNat * 256 ^ rest.length + wordValue rest) / 256 ^ rest.length = byte.toNat := by
      rw [Nat.add_comm, Nat.add_mul_div_right _ _ (Nat.pow_pos (by decide)), Nat.div_eq_of_lt small]
      omega
    simp only [List.length_cons, wordValue, bigEndian, top, UInt8.ofNat_toNat, bigEndian_add_mul,
      inductionHypothesis]

theorem wordValue_bigEndian (width value : Nat) :
    wordValue (bigEndian width value) = value % 256 ^ width := by
  induction width with
  | zero => simp [bigEndian, wordValue, Nat.mod_one]
  | succ width inductionHypothesis =>
    have top : (UInt8.ofNat (value / 256 ^ width)).toNat = value / 256 ^ width % 256 :=
      UInt8.toNat_ofNat'
    calc wordValue (bigEndian (width + 1) value)
        = value / 256 ^ width % 256 * 256 ^ width + value % 256 ^ width := by
          simp only [bigEndian, wordValue, bigEndian_length, inductionHypothesis, top]
      _ = value % 256 ^ width + 256 ^ width * (value / 256 ^ width % 256) := by ring
      _ = value % 256 ^ (width + 1) := by rw [pow_succ, Nat.mod_mul]

/-! ## Self-delimiting codes -/

section
variable {α : Type*}

/-- An encoding that starts like the one of `item` is the one of `item` and ends where it ends. -/
def Delimited (encode : α → Bytes) (domain : α → Prop) (item : α) : Prop :=
  ∀ other, domain other → ∀ after afterOther,
    encode item ++ after = encode other ++ afterOther → item = other ∧ after = afterOther

/-- Every encoding of the domain can be split off the front of a byte string in one way only. -/
def SelfDelimiting (encode : α → Bytes) (domain : α → Prop) : Prop :=
  ∀ item, domain item → Delimited encode domain item

variable {encode : α → Bytes} {domain : α → Prop}

/-- Concatenations of equally many delimited encodings agree only item by item. -/
theorem Delimited.flatMap {items others : List α}
    (delimited : ∀ item ∈ items, Delimited encode domain item)
    (inDomain : ∀ other ∈ others, domain other) (lengths : items.length = others.length)
    {after afterOther : Bytes}
    (same : items.flatMap encode ++ after = others.flatMap encode ++ afterOther) :
    items = others ∧ after = afterOther := by
  induction items generalizing others with
  | nil =>
    cases others with
    | nil => exact ⟨rfl, same⟩
    | cons other others => contradiction
  | cons item items inductionHypothesis =>
    cases others with
    | nil => contradiction
    | cons other others =>
      simp only [List.flatMap_cons, List.append_assoc] at same
      obtain ⟨heads, tails⟩ := delimited item List.mem_cons_self other
        (inDomain other List.mem_cons_self) _ _ same
      obtain ⟨rests, afters⟩ := inductionHypothesis
        (fun later member => delimited later (List.mem_cons_of_mem _ member))
        (fun later member => inDomain later (List.mem_cons_of_mem _ member))
        (by simpa using lengths) tails
      exact ⟨by rw [heads, rests], afters⟩

namespace SelfDelimiting

theorem injective (code : SelfDelimiting encode domain) {left right : α}
    (leftIn : domain left) (rightIn : domain right) (same : encode left = encode right) :
    left = right :=
  (code left leftIn right rightIn [] [] (by rw [same])).1

end SelfDelimiting

end

end Bytes

end ProofEngine
