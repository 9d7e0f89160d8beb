/-
# Directives of a log filter

A directive has a target, a scope in square brackets and, after an equals sign, a level;
each part may be missing, but not all of them. A word that names a level is a level and
not a target, and a missing level lets everything through.

The parts are found in the text without space at its ends, and are then cut at the same
places out of the text with that space. So space at the start moves them, by as many
bytes as it takes.

Key definitions: `LogScope`, `LogDirective`, `LogDirective.ofText?`.
-/
import Volley.LogFilter.FieldValue
import Volley.LogFilter.Level

namespace Volley

/-- What a directive asks of a line besides its target. -/
inductive LogScope where
  /-- Nothing. -/
  | anywhere
  /-- The line has a field. -/
  | withField (name : List Char)
  /-- The line lies inside a span. -/
  | inSpan
deriving DecidableEq

/-- One rule of a filter. -/
structure LogDirective where
  /-- The target; none for all lines. -/
  target : Option (List Char) := none
  scope : LogScope := .anywhere
  level : LogLevel := .trace

namespace LogDirective

/-- How many bytes a text takes. -/
def size : List Char → Nat
  | [] => 0
  | c :: rest => c.utf8Size + size rest

/-- The characters of a text from the byte `first` on. -/
def cutFrom (first : Nat) : List Char → List Char
  | [] => []
  | c :: rest => if first = 0 then c :: rest else cutFrom (first - c.utf8Size) rest

/-- The characters of a text before the byte `last`. -/
def cutTo (last : Nat) : List Char → List Char
  | [] => []
  | c :: rest => if last = 0 then [] else c :: cutTo (last - c.utf8Size) rest

/-- The characters of a text from the byte `first` on, up to the byte `last`. -/
def cut (first last : Nat) (s : List Char) : List Char := cutTo (last - first) (cutFrom first s)

/-- The character may start a target. -/
def startsTarget (c : Char) : Bool :=
  c = '-' || c = ':' || c = '_' || Text.isLetterOrNumeral c

/-- The directive with a level: what follows the equals sign. -/
def withLevel (d : LogDirective) (s : List Char) : Option LogDirective :=
  if s.isEmpty then some d else (LogLevel.ofText? s).map fun level => { d with level }

/-- The scope that the text between curly brackets asks for. A field with a value is known
only from the span around a line. -/
def fieldScope? (s : List Char) : Option LogScope :=
  match s.span (· ≠ '=') with
  | (name, []) => if name.isEmpty then none else some (.withField name)
  | (_, _ :: value) =>
    if LogFilter.isFieldValue (value.takeWhile (· ≠ '=')) then some .inSpan else none

/-- The scope of the directive `s`, after its opening bracket, which ends before the byte
`start`; with it what follows the scope. -/
def scope? (s : List Char) (start : Nat) (text : List Char) : Option (LogScope × List Char) :=
  let isOpen (c : Char) : Bool := c = Char.ofNat 0x7b
  match text.span fun c => c ≠ ']' && !isOpen c with
  | (_, ']' :: rest) => some (.inSpan, rest)
  | (span, _ :: rest) =>
    match rest.span (· ≠ Char.ofNat 0x7d) with
    | (field, _ :: ']' :: rest) => do
      let first := start + size span + 1
      let scope ← fieldScope? (cut first (first + size field) s)
      return (if span.isEmpty then scope else .inSpan, rest)
    | _ => none
  | _ => none

/-- The directive `d`, read from `s`, with the scope and the level that follow its target;
the opening bracket of the scope ends before the byte `start`. -/
def withScope (d : LogDirective) (s : List Char) (start : Nat) (text : List Char) :
    Option LogDirective := do
  let (scope, rest) ← scope? s start text
  match rest with
  | [] => some { d with scope }
  | '=' :: level => withLevel { d with scope } (cutFrom (start + size text - size level) s)
  | _ => none

/-- The directive that a text describes. -/
def ofText? (s : List Char) : Option LogDirective :=
  match Text.trim s with
  | [] => none
  | '[' :: text => withScope {} s 1 text
  | c :: text =>
    if !startsTarget c then none
    else
      match (c :: text).span fun c => c ≠ '=' && c ≠ '[' with
      | (_, []) =>
        match LogLevel.ofText? s with
        | some level => some { level }
        | none => some { target := some s }
      | (word, mark :: text) =>
        let d : LogDirective := { target := some (cutTo (size word) s) }
        let start := size word + 1
        if mark = '[' then withScope d s start text else withLevel d (cutFrom start s)

end LogDirective

end Volley
