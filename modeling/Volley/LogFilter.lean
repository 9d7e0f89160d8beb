/-
# Log filters

A filter is a list of directives with commas between them. A line is shown if the
directive that fits it best lets its level through. A directive fits the lines under its
target; the longer the target, the better. A scope that names a field restricts a
directive to lines with that field, and any other scope to lines inside a span. A filter
without directives lets errors through.

Key definitions: `LogFilter`, `LogFilter.parse?`, `LogLine`, `LogFilter.shows`.
-/
import Volley.LogFilter.Directive

namespace Volley

/-- Which log lines are shown. -/
structure LogFilter where
  directives : List LogDirective

/-- What a filter looks at in a line outside every span. -/
structure LogLine where
  target : String
  level : LogLevel
  /-- The names of its fields. -/
  fields : List String

/-- How well a directive fits a line, if it does: by the length of its target, then by the
field it asks for. -/
def LogDirective.fit? (d : LogDirective) (line : LogLine) : Option (Nat × List Char) := do
  let length ← match d.target with
    | none => some 0
    | some t => if t.isPrefixOf line.target.toList then some (t.length + 1) else none
  match d.scope with
  | .anywhere => some (length, [])
  | .withField name => if line.fields.any (·.toList = name) then some (length, name) else none
  | .inSpan => none

namespace LogFilter

/-- The pieces between commas. -/
def splitCommas : List Char → List (List Char)
  | [] => [[]]
  | c :: rest =>
    if c = ',' then [] :: splitCommas rest
    else
      match splitCommas rest with
      | piece :: pieces => (c :: piece) :: pieces
      | [] => [[c]]

/-- The filter that a text describes; empty pieces between commas are ignored. -/
def parse? (s : String) : Option LogFilter := do
  let pieces := (splitCommas s.toList).filter (!·.isEmpty)
  return ⟨← pieces.mapM LogDirective.ofText?⟩

/-- The first fit is not as good as the second one. -/
def worse (a b : Nat × List Char) : Bool := a.1 < b.1 || (a.1 = b.1 && a.2 < b.2)

/-- The best fit for a line and the level it lets through; of two equal fits, the last one. -/
def best? (line : LogLine) : List LogDirective → Option ((Nat × List Char) × LogLevel)
  | [] => none
  | d :: rest =>
    match d.fit? line, best? line rest with
    | none, best => best
    | some fit, none => some (fit, d.level)
    | some fit, some best => if worse best.1 fit then some (fit, d.level) else some best

/-- The filter shows a line. -/
def shows (f : LogFilter) (line : LogLine) : Bool :=
  if f.directives.isEmpty then line.level.rank ≤ LogLevel.error.rank
  else
    match best? line f.directives with
    | some (_, level) => line.level.rank ≤ level.rank
    | none => false

end LogFilter

end Volley
