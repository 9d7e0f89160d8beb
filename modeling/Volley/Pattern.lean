/-
# Patterns

A pattern describes texts: characters, sets and places one after the other, branches
between bars, and parts in round brackets, each of which may be repeated. A part has a
name, or flags up to a colon; flags alone in brackets hold up to the end of the part
around them. A number of repetitions cannot be given in curly brackets: the closing one
would end the pattern.

Only whether a text is a pattern matters here. It is one if it can be read, if the modes
allow all that is in it, and if it is not nested too deep. How deep it is nested counts
the brackets, repetitions, sequences and lists of branches around the innermost part.

Key definitions: `Pattern.Scope`, `Pattern.Reading`, `Pattern.Reading.step`,
`Pattern.isPattern`.
-/
import Volley.Pattern.Set
import Volley.Text.Letter

namespace Volley
namespace Pattern

/-- An element of a sequence. -/
structure Piece where
  nesting : Nat
  repeatable : Bool

/-- A part whose closing bracket has not been reached. -/
structure Scope where
  modes : Modes := {}
  /-- The pieces of the last branch, the last one first. -/
  pieces : List Piece := []
  /-- How deep each finished branch is nested. -/
  branches : List Nat := []

namespace Scope

/-- How deep the last branch is nested. -/
def branchNesting (scope : Scope) : Nat :=
  match scope.pieces with
  | [] => 0
  | [piece] => piece.nesting
  | pieces => pieces.foldl (fun n piece => max n piece.nesting) 0 + 1

/-- How deep the part is nested. -/
def nesting (scope : Scope) : Nat :=
  match scope.branches with
  | [] => scope.branchNesting
  | branches => branches.foldl max scope.branchNesting + 1

/-- The part with one more piece. -/
def push (scope : Scope) (piece : Piece) : Scope :=
  { scope with pieces := piece :: scope.pieces }

/-- The part with a new branch. -/
def branch (scope : Scope) : Scope :=
  { scope with pieces := [], branches := scope.branchNesting :: scope.branches }

/-- The part with its last piece repeated. -/
def repeatLast? (scope : Scope) : Option Scope :=
  match scope.pieces with
  | piece :: pieces =>
    if piece.repeatable then
      some { scope with pieces := { piece with nesting := piece.nesting + 1 } :: pieces }
    else none
  | [] => none

end Scope

/-- A pattern under reading. -/
structure Reading where
  scope : Scope := {}
  /-- The parts around the current one, the innermost first. -/
  outer : List Scope := []
  /-- The names of parts. -/
  names : List (List Char) := []
  rest : List Char

/-- What an opening bracket starts. -/
inductive Opening where
  /-- Nothing: the modes change in the part around it. -/
  | change (modes : Modes)
  | part (modes : Modes) (name : Option (List Char))

/-- The text can name a part. -/
def isName : List Char → Bool
  | [] => false
  | c :: rest =>
    (c = '_' || Text.isLetter c)
      && rest.all fun c =>
        c = '_' || c = '.' || c = '[' || c = ']' || Text.isLetterOrNumeral c

/-- A part with a name, given the text from the name on. -/
def readName (m : Modes) (s : List Char) : Option (Opening × List Char) :=
  match s.span (· ≠ '>') with
  | (name, _ :: rest) => if isName name then some (.part m (some name), rest) else none
  | _ => none

/-- Takes flags, which apply to the modes `m`; those in `seen` must not come again. Flags
after a hyphen are turned off, and one must follow it. -/
def readFlags (m : Modes) (seen : List Char) : List Char → Option (Opening × List Char)
  | [] => none
  | c :: rest =>
    if c = ':' then if seen.head? = some '-' then none else some (.part m none, rest)
    else if c = ')' then
      if seen.isEmpty || seen.head? = some '-' then none else some (.change m, rest)
    else if seen.contains c then none
    else if c = '-' then readFlags m (c :: seen) rest
    else do readFlags (← m.set? c (!seen.contains '-')) (c :: seen) rest

/-- What an opening bracket starts, given what follows it. -/
def readOpening (m : Modes) (s : List Char) : Option (Opening × List Char) :=
  match m.skip s with
  | '?' :: 'P' :: '<' :: rest => readName m rest
  | '?' :: '<' :: rest => readName m rest
  | '?' :: rest => readFlags m [] rest
  | rest => some (.part m none, rest)

namespace Reading

/-- The reading after a bracket has opened. -/
def enter (r : Reading) : Opening → Option Reading
  | .change modes =>
    some { r with scope := { r.scope.push ⟨0, false⟩ with modes } }
  | .part modes none => some { r with scope := { modes }, outer := r.scope :: r.outer }
  | .part modes (some name) =>
    if r.names.contains name then none
    else some { r with
      scope := { modes }, outer := r.scope :: r.outer, names := name :: r.names }

/-- The reading after a bracket has closed. -/
def leave? (r : Reading) : Option Reading :=
  match r.outer with
  | [] => none
  | up :: outer => some { r with scope := up.push ⟨r.scope.nesting + 1, true⟩, outer }

/-- The reading after an atom. -/
def atom? (r : Reading) (a : Atom) : Option Reading :=
  if r.scope.modes.allows a then some { r with scope := r.scope.push ⟨0, true⟩ } else none

/-- The reading after the construct that starts with a character, given what follows it. -/
def step (r : Reading) (c : Char) (rest : List Char) : Option Reading :=
  let modes := r.scope.modes
  if c = '(' then do
    let (opening, rest) ← readOpening modes rest
    enter { r with rest } opening
  else if c = ')' then leave? { r with rest }
  else if c = '|' then some { r with scope := r.scope.branch, rest }
  else if c = '[' then do
    let (nesting, rest) ← readSet modes rest
    return { r with scope := r.scope.push ⟨nesting, true⟩, rest }
  else if c = '?' || c = '*' || c = '+' then do
    let scope ← r.scope.repeatLast?
    -- A question mark after it asks for as few repetitions as possible.
    return { r with scope, rest := if rest.head? = some '?' then rest.drop 1 else rest }
  else if c = Char.ofNat 0x7b then none
  else if c = '\\' then do
    let (a, rest) ← readEscape modes rest
    atom? { r with rest } a
  else if c = '.' then atom? { r with rest } .any
  else if c = '^' || c = '$' then atom? { r with rest } .anchor
  else atom? { r with rest } (.char c false)

/-- The reading at the end of the text, in at most `n` steps. -/
def run : (n : Nat) → Reading → Option Reading
  | 0, _ => none
  | n + 1, r =>
    match r.scope.modes.skip r.rest with
    | [] => some r
    | c :: rest => (r.step c rest).bind (run n)

end Reading

/-- How deep a pattern may be nested. -/
def nestingLimit : Nat := 250

/-- The text is a pattern. -/
def isPattern (s : List Char) : Bool :=
  match Reading.run (s.length + 1) { rest := s } with
  | some r => r.outer.isEmpty && r.scope.nesting ≤ nestingLimit
  | none => false

end Pattern
end Volley
