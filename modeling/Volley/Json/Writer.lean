/-
# Writing JSON

Values are written without space. Texts must consist of characters that need no escape.

Key definitions: `Json.writeInt`, `Json.writeText`, `Json.writeArray`, `Json.writeObject`.
-/

namespace Volley
namespace Json

/-- An integer in decimal. -/
def writeInt (n : Int) : List Char :=
  if n < 0 then '-' :: Nat.toDigits 10 n.natAbs else Nat.toDigits 10 n.natAbs

/-- A text that needs no escapes. -/
def writeText (s : List Char) : List Char := '"' :: s ++ ['"']

/-- The given pieces with commas between them. -/
def joinCommas : List (List Char) → List Char
  | [] => []
  | [piece] => piece
  | piece :: rest => piece ++ ',' :: joinCommas rest

/-- An array of written elements. -/
def writeArray (elements : List (List Char)) : List Char := '[' :: joinCommas elements ++ [']']

/-- A member with a written value. -/
def writeMember (name : String) (value : List Char) : List Char :=
  writeText name.toList ++ ':' :: value

/-- An object of written members. -/
def writeObject (fields : List (String × List Char)) : List Char :=
  Char.ofNat 0x7b :: joinCommas (fields.map fun f => writeMember f.1 f.2) ++ [Char.ofNat 0x7d]

end Json
end Volley
