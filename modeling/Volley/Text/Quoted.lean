/-
# Quoted text

Error messages quote the character or text they are about. Between the quotes, a
backslash stands before the quote mark and before a backslash, control characters with a
short form use it, and every other character that does not print is written by its code
point.

Key definitions: `Text.quoteChar`, `Text.quoteString`.
-/
import Volley.Text.Visible

namespace Volley
namespace Text

/-- A character between two quote marks `quote`. -/
def escape (quote c : Char) : List Char :=
  if c = '\x00' then ['\\', '0']
  else if c = '\t' then ['\\', 't']
  else if c = '\r' then ['\\', 'r']
  else if c = '\n' then ['\\', 'n']
  else if c = '\\' || c = quote then ['\\', c]
  else if isVisible c then [c]
  else ['\\', 'u', Char.ofNat 0x7b] ++ Nat.toDigits 16 c.toNat ++ [Char.ofNat 0x7d]

/-- A character in single quotes. -/
def quoteChar (c : Char) : String := String.ofList ('\'' :: escape '\'' c ++ ['\''])

/-- A text in double quotes. -/
def quoteString (s : String) : String :=
  String.ofList ('"' :: s.toList.flatMap (escape '"') ++ ['"'])

end Text
end Volley
