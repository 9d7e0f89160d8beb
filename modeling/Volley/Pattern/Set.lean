/-
# Sets of characters in a pattern

Between square brackets stand the members of a set: characters, ranges, classes and other
sets. Two sets are joined by an operator, a doubled ampersand, hyphen or tilde, and a
caret at the start takes all other characters. A hyphen at either end and a closing
bracket at the start stand for themselves. A set of other sets or of empty operands alone
is the same in either case, so it needs no case pairs where case is ignored.

How deep a set is nested counts the brackets, the lists of several members and the
operators around its innermost member.

Key definitions: `Pattern.Bracket`, `Pattern.readSet`.
-/
import Volley.Pattern.Escape

namespace Volley
namespace Pattern

/-- A set whose closing bracket has not been reached. -/
structure Bracket where
  negated : Bool
  /-- Nothing but hyphens has been read. -/
  fresh : Bool := true
  /-- How many members there are since the last operator. -/
  count : Nat := 0
  /-- How deep the deepest of them is nested. -/
  deepest : Nat := 0
  /-- How deep that is nested which stands before the last operator. -/
  left : Option Nat := none

namespace Bracket

/-- The set with one more member. -/
def push (b : Bracket) (nesting : Nat) : Bracket :=
  { b with fresh := false, count := b.count + 1, deepest := max b.deepest nesting }

/-- The set with a hyphen at its start. -/
def pushHyphen (b : Bracket) : Bracket := { b with count := b.count + 1 }

/-- How deep the text between the brackets is nested. -/
def inside (b : Bracket) : Nat :=
  let operand := if b.count ≤ 1 then b.deepest else b.deepest + 1
  match b.left with
  | none => operand
  | some left => max left operand + 1

/-- The set after an operator. -/
def operate (b : Bracket) : Bracket :=
  { negated := b.negated, fresh := false, left := some b.inside }

/-- How deep the set is nested. -/
def nesting (b : Bracket) : Nat := b.inside + 1

end Bracket

/-- The classes of characters with a name. -/
def classNames : List (List Char) :=
  ["alnum".toList, "alpha".toList, "ascii".toList, "blank".toList, "cntrl".toList,
   "digit".toList, "graph".toList, "lower".toList, "print".toList, "punct".toList,
   "space".toList, "upper".toList, "word".toList, "xdigit".toList]

/-- A class with a name, after its opening bracket: whether it takes all other characters,
and what follows it. -/
def readClass? : List Char → Option (Bool × List Char)
  | ':' :: s =>
    let (negated, s) := match s with
      | '^' :: s => (true, s)
      | _ => (false, s)
    match s.span (· ≠ ':') with
    | (name, ':' :: ']' :: rest) => if classNames.contains name then some (negated, rest) else none
    | _ => none
  | _ => none

/-- The next member that is not a set. -/
def readMember (m : Modes) : List Char → Option (Atom × List Char)
  | [] => none
  | '\\' :: rest => readEscape m rest
  | c :: rest => some (.char c false, rest)

/-- The next character after a hyphen, as far as it decides whether the hyphen makes a
range: space is passed over, and the number sign of a comment but not the comment. -/
def glance (m : Modes) (s : List Char) : Option Char :=
  if m.spaced then
    match s.dropWhile Text.isBlank with
    | '#' :: rest => (rest.dropWhile Text.isBlank).head?.or s.head?
    | rest => rest.head?.or s.head?
  else s.head?

/-- Takes a member or a range, which must be possible. -/
def readRange (m : Modes) (s : List Char) : Option (List Char) := do
  let (first, rest) ← readMember m s
  match m.skip rest with
  | [] => none
  | '-' :: after =>
    if glance m after = some ']' || glance m after = some '-' then
      if m.allowsInSet first then some ('-' :: after) else none
    else
      let (last, rest) ← readMember m (m.skip after)
      match first, last with
      | .char low _, .char high _ =>
        if low ≤ high && m.allowsInSet first && m.allowsInSet last then some rest else none
      | _, _ => none
  | rest => if m.allowsInSet first then some rest else none

/-- A set, after its opening bracket and the caret that may follow it. -/
def openBracket (m : Modes) (s : List Char) : Bracket × List Char :=
  match m.skip s with
  | '^' :: rest => ({ negated := true }, rest)
  | rest => ({ negated := false }, rest)

/-- A class with a name can be a member of a set. -/
def Modes.allowsClass (m : Modes) (negated : Bool) : Bool :=
  if m.byCharacter then !m.ignoreCase else !negated

/-- A set can stand alone or in another one. -/
def Modes.allowsSet (m : Modes) (b : Bracket) : Bool := !b.negated || m.byCharacter

/-- Reads on in the set `b`, which lies in the sets `outer`; each of at most `n` rounds takes
one member, bracket or operator. The result tells how deep the outermost set is nested and
what follows it. -/
def readMembers (m : Modes) :
    (n : Nat) → (outer : List Bracket) → (b : Bracket) → List Char → Option (Nat × List Char)
  | 0, _, _, _ => none
  | n + 1, outer, b, s =>
    let continueWith (b : Bracket) (rest : List Char) := readMembers m n outer b rest
    match m.skip s with
    | [] => none
    | c :: rest =>
      if b.fresh && c = '-' then
        if m.allowsInSet (.char c false) then continueWith b.pushHyphen rest else none
      else if b.fresh && c = ']' && b.count = 0 then
        if m.allowsInSet (.char c false) then continueWith (b.push 0) rest else none
      else if c = ']' then
        if !m.allowsSet b then none
        else
          match outer with
          | [] => some (b.nesting, rest)
          | up :: outer => readMembers m n outer (up.push b.nesting) rest
      else if c = '[' then
        match readClass? rest with
        | some (negated, rest) =>
          if m.allowsClass negated then continueWith (b.push 0) rest else none
        | none =>
          let (inner, rest) := openBracket m rest
          readMembers m n ({ b with fresh := false } :: outer) inner rest
      else if (c = '&' || c = '-' || c = '~') && rest.head? = some c then
        continueWith b.operate (rest.drop 1)
      else do continueWith (b.push 0) (← readRange m (c :: rest))

/-- Takes a set after its opening bracket, and tells how deep it is nested. -/
def readSet (m : Modes) (s : List Char) : Option (Nat × List Char) :=
  let (b, rest) := openBracket m s
  readMembers m (rest.length + 1) [] b rest

end Pattern
end Volley
