import ProofEngine.Lib.Bytes

/-! # Hexadecimal text

Two digits a byte; decoding takes both letter cases, encoding writes lower case. -/

namespace ProofEngine.Hex

def digitValue (char : Char) : Option Nat :=
  let code := char.toNat
  if 48 ≤ code ∧ code ≤ 57 then some (code - 48)
  else if 97 ≤ code ∧ code ≤ 102 then some (code - 87)
  else if 65 ≤ code ∧ code ≤ 70 then some (code - 55)
  else none

def decodeChars : List Char → Option Bytes
  | [] => some []
  | [_] => none
  | high :: low :: rest => do
    let highValue ← digitValue high
    let lowValue ← digitValue low
    let bytes ← decodeChars rest
    some (UInt8.ofNat (16 * highValue + lowValue) :: bytes)

def decode (text : String) : Option Bytes := decodeChars text.toList

def digits : List Char := "0123456789abcdef".toList

def encodeByte (byte : UInt8) : List Char :=
  [digits.getD (byte.toNat / 16) '0', digits.getD (byte.toNat % 16) '0']

def encode (bytes : Bytes) : String := String.ofList (bytes.flatMap encodeByte)

theorem decodeChars_encodeByte (byte : UInt8) (rest : List Char) :
    decodeChars (encodeByte byte ++ rest) = (decodeChars rest).map (byte :: ·) := by
  have table : ∀ high ∈ List.range 16, digitValue (digits.getD high '0') = some high := by decide +kernel
  have small := byte.toNat_lt
  have high := table (byte.toNat / 16) (List.mem_range.mpr (by omega))
  have low := table (byte.toNat % 16) (List.mem_range.mpr (by omega))
  have whole : 16 * (byte.toNat / 16) + byte.toNat % 16 = byte.toNat := by omega
  simp only [encodeByte, List.cons_append, List.nil_append, decodeChars, high, low, Option.bind_eq_bind,
    Option.bind_some, whole, UInt8.ofNat_toNat]
  cases decodeChars rest <;> rfl

@[simp] theorem decode_encode (bytes : Bytes) : decode (encode bytes) = some bytes := by
  simp only [decode, encode, String.toList_ofList]
  induction bytes with
  | nil => rfl
  | cons byte bytes inductionHypothesis =>
    rw [List.flatMap_cons, decodeChars_encodeByte, inductionHypothesis]
    rfl

theorem length_encode (bytes : Bytes) : (encode bytes).toList.length = 2 * bytes.length := by
  rw [encode, String.toList_ofList]
  induction bytes with
  | nil => rfl
  | cons byte bytes inductionHypothesis =>
    rw [List.flatMap_cons, List.length_append, inductionHypothesis, List.length_cons, encodeByte]
    simp only [List.length_cons, List.length_nil]
    omega

theorem mem_encode {char : Char} {bytes : Bytes} (member : char ∈ (encode bytes).toList) : char ∈ digits := by
  simp only [encode, String.toList_ofList, List.mem_flatMap] at member
  obtain ⟨byte, _, member⟩ := member
  have table : ∀ value ∈ List.range 16, digits.getD value '0' ∈ digits := by decide +kernel
  have small := byte.toNat_lt
  simp only [encodeByte, List.mem_cons, List.not_mem_nil, or_false] at member
  rcases member with rfl | rfl
  · exact table _ (List.mem_range.mpr (by omega))
  · exact table _ (List.mem_range.mpr (by omega))

end ProofEngine.Hex
