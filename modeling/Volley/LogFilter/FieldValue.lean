/-
# Values of fields in a log filter

What a field must hold is written as a number or as a pattern.

Key definitions: `LogFilter.isNumber`, `LogFilter.isFieldValue`.
-/
import Volley.Pattern

namespace Volley
namespace LogFilter

/-- The text without the sign that may stand before it. -/
def dropSign : List Char → List Char
  | '+' :: rest => rest
  | '-' :: rest => rest
  | s => s

/-- The text is empty or a power of ten: a letter e and digits, with or without a sign. -/
def isExponent : List Char → Bool
  | [] => true
  | c :: rest =>
    (c = 'e' || c = 'E') && !(dropSign rest).isEmpty && (dropSign rest).all Char.isDigit

/-- The text writes a number: digits with a point before, among or after them, and a power
of ten, or a name of infinity or of what is not a number. A sign may stand before it. -/
def isNumber (s : List Char) : Bool :=
  let s := dropSign s
  let name := String.ofList (s.map Char.toLower)
  let (whole, rest) := s.span Char.isDigit
  let (part, rest) := match rest with
    | '.' :: rest => rest.span Char.isDigit
    | _ => ([], rest)
  name = "inf" || name = "infinity" || name = "nan"
    || (!(whole.isEmpty && part.isEmpty) && isExponent rest)

/-- The text can stand for the value of a field. -/
def isFieldValue (s : List Char) : Bool := isNumber s || Pattern.isPattern s

end LogFilter
end Volley
