/-
# Backslashes in a pattern

After a backslash, a letter stands for a control character, a place or a class, or says
that the code point of a character follows in hexadecimal digits; a mark stands for
itself. Classes by a character property are not known, and neither are references to
groups.

Key definitions: `Pattern.readEscape`.
-/
import Volley.Pattern.Modes
import Volley.Text.Hex

namespace Volley
namespace Pattern

/-- The number that the next `n` hexadecimal digits write after the digits of `value`, and
what follows them. -/
def readHex (m : Modes) : (n : Nat) → (value : Nat) → List Char → Option (Nat × List Char)
  | 0, value, s => some (value, s)
  | n + 1, value, s =>
    match m.skip s with
    | [] => none
    | c :: rest => do readHex m n (value * 16 + (← Text.hexValue? c)) rest

/-- The character whose code point the next `n` hexadecimal digits write. -/
def readCodePoint (m : Modes) (n : Nat) (s : List Char) : Option (Atom × List Char) := do
  let (value, rest) ← readHex m n 0 s
  if value.isValidChar then some (.char (Char.ofNat value) (n = 2), rest) else none

/-- What a letter or a mark after a backslash stands for. -/
def escaped? (c : Char) : Option Atom :=
  if c = 'd' || c = 's' || c = 'w' then some (.kind false)
  else if c = 'D' || c = 'S' || c = 'W' then some (.kind true)
  else if c = 'A' || c = 'z' then some .anchor
  else if c = 'b' || c = 'B' || c = '<' || c = '>' then some .wordEdge
  else if c = 'a' then some (.char '\x07' false)
  else if c = 'f' then some (.char '\x0c' false)
  else if c = 't' then some (.char '\t' false)
  else if c = 'n' then some (.char '\n' false)
  else if c = 'r' then some (.char '\r' false)
  else if c = 'v' then some (.char '\x0b' false)
  else if c.toNat ≤ 127 && !c.isAlphanum then some (.char c false)
  else none

/-- The atom that a backslash starts, given what follows the backslash. -/
def readEscape (m : Modes) : List Char → Option (Atom × List Char)
  | [] => none
  | c :: rest =>
    if c = 'x' then readCodePoint m 2 rest
    else if c = 'u' then readCodePoint m 4 rest
    else if c = 'U' then readCodePoint m 8 rest
    else (escaped? c).map fun atom => (atom, rest)

end Pattern
end Volley
