import ProofEngine.Lib.Text

/-! # JSON documents

Documents as the JSON library hands them over.  An object is the list of its entries in the order
in which the library walks them. -/

namespace ProofEngine

/-- A parsed JSON document; numbers keep their literal. -/
inductive Json where
  | null
  | bool (value : Bool)
  | number (literal : String)
  | string (value : String)
  | array (items : List Json)
  | object (entries : List (String × Json))

namespace Json

def get (key : String) : Json → Option Json
  | .object entries => entries.lookup key
  | _ => none

def asStr : Json → Option String
  | .string value => some value
  | _ => none

/-- The string under a key. -/
def strField (json : Json) (key : String) : Option String := (json.get key).bind asStr

/-- A number that is written without sign, fraction and exponent and fits 64 bits. -/
def asU64 : Json → Option UInt64
  | .number literal =>
    let digits := literal.toList
    if digits.isEmpty || !digits.all Char.isDigit then none
    else
      let value := digits.foldl (fun value digit => 10 * value + (digit.toNat - 48)) 0
      if value < 2 ^ 64 then some (UInt64.ofNat value) else none
  | _ => none

def asArray : Json → Option (List Json)
  | .array items => some items
  | _ => none

def asBool : Json → Option Bool
  | .bool value => some value
  | _ => none

end Json

/-- The entries of an object. -/
abbrev JsonMap := List (String × Json)

end ProofEngine
