/-
# Modes of a pattern

A group of flags at the start of a bracketed part, or alone in brackets, changes how what
follows is read. Three flags matter for whether a pattern can be used at all: letters of
either case, matching by characters and not by bytes, and space and comments that are
passed over. The others are known and change only what is matched.

Without tables of case pairs and of character properties, a pattern that matches by
characters cannot ignore case and has no classes of digits, space and word characters.
One that matches by bytes must not match a part of a character.

Key definitions: `Pattern.Modes`, `Pattern.Modes.skip`, `Pattern.Atom`,
`Pattern.Modes.allows`, `Pattern.Modes.allowsInSet`.
-/
import Volley.Text.Blank

namespace Volley
namespace Pattern

/-- How a pattern is read. -/
structure Modes where
  ignoreCase : Bool := false
  /-- It matches characters, not bytes. -/
  byCharacter : Bool := true
  /-- Space and comments in it are passed over. -/
  spaced : Bool := false

/-- What matches one character or one place. -/
inductive Atom where
  /-- A character; `byte` if it is written with two hexadecimal digits. -/
  | char (c : Char) (byte : Bool)
  /-- Any character. -/
  | any
  /-- The start or the end of a line or of the text. -/
  | anchor
  /-- The start or the end of a word, or a place that is neither. -/
  | wordEdge
  /-- The digits, the white space or the word characters, or all others. -/
  | kind (negated : Bool)

/-- The text after space and comments; a comment goes from a number sign to the end of the
line. -/
def dropSpace : (inComment : Bool) → List Char → List Char
  | _, [] => []
  | true, c :: rest => dropSpace (c ≠ '\n') rest
  | false, c :: rest =>
    if Text.isBlank c then dropSpace false rest
    else if c = '#' then dropSpace true rest
    else c :: rest

namespace Modes

/-- The rest of a pattern, from where it goes on. -/
def skip (m : Modes) (s : List Char) : List Char := if m.spaced then dropSpace false s else s

/-- The modes with a flag on or off; none if there is no such flag. -/
def set? (m : Modes) (flag : Char) (on : Bool) : Option Modes :=
  if flag = 'i' then some { m with ignoreCase := on }
  else if flag = 'u' then some { m with byCharacter := on }
  else if flag = 'x' then some { m with spaced := on }
  else if flag = 'm' || flag = 's' || flag = 'U' || flag = 'R' then some m
  else none

/-- The atom can be used outside a set. -/
def allows (m : Modes) : Atom → Bool
  | .char c byte => if m.byCharacter then !m.ignoreCase else !(byte && 127 < c.toNat)
  | .any => m.byCharacter
  | .anchor => true
  | .wordEdge => !m.byCharacter
  | .kind negated => !m.byCharacter && !negated

/-- The atom can be used in a set. -/
def allowsInSet (m : Modes) : Atom → Bool
  | .char c _ => if m.byCharacter then !m.ignoreCase else c.toNat ≤ 127
  | .kind negated => !m.byCharacter && !negated
  | _ => false

end Modes

end Pattern
end Volley
