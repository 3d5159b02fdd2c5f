import ProofEngine.Lib.Base64Url

/-! # The lenient decoder

The second verifier decodes base64url with a library that passes over foreign characters and takes both
alphabets; the text is padded first.  It compares with the encoding of the result afterwards. -/

namespace ProofEngine.Interop

open Base64Url

/-- A symbol of either alphabet. -/
def symbolValue (char : Char) : Option Nat :=
  sextetOf (if char = '+' then '-' else if char = '/' then '_' else char)

/-- The loop of `binascii.a2b_base64`: how many symbols of a group were read, what is left of the last one,
    and how many pads came after it. -/
def a2bBase64 : (quadPos leftchar pads : Nat) → List Char → Option Bytes
  | quadPos, _, _, [] => if quadPos = 0 then some [] else none
  | quadPos, leftchar, pads, char :: chars =>
    if char = '=' then
      if quadPos < 2 then a2bBase64 quadPos leftchar pads chars
      else if 4 ≤ quadPos + (pads + 1) then some []
      else a2bBase64 quadPos leftchar (pads + 1) chars
    else
      match symbolValue char with
      | none => a2bBase64 quadPos leftchar pads chars
      | some sextet =>
        match quadPos with
        | 0 => a2bBase64 1 sextet 0 chars
        | 1 => (a2bBase64 2 (sextet % 16) 0 chars).map (UInt8.ofNat (leftchar * 4 + sextet / 16) :: ·)
        | 2 => (a2bBase64 3 (sextet % 4) 0 chars).map (UInt8.ofNat (leftchar * 16 + sextet / 4) :: ·)
        | _ => (a2bBase64 0 0 0 chars).map (UInt8.ofNat (leftchar * 64 + sextet) :: ·)

/-- Pads up to a multiple of four. -/
def padding (count : Nat) : List Char := List.replicate ((4 - count % 4) % 4) '='

/-- Text outside ASCII raises an exception, as an incomplete group does. -/
def b64uDecode (text : String) : Option Bytes :=
  if text.toList.all fun char => char.toNat < 128 then
    a2bBase64 0 0 0 (text.toList ++ padding text.toList.length)
  else none

end ProofEngine.Interop
