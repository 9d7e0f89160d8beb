/-
# Levels of log lines

Key definitions: `LogLevel`, `LogLevel.rank`, `LogLevel.ofText?`.
-/

namespace Volley

/-- How much is let through, from nothing to everything. -/
inductive LogLevel where
  | off
  | error
  | warn
  | info
  | debug
  | trace
deriving DecidableEq, Inhabited

namespace LogLevel

/-- The number of a level. -/
def rank : LogLevel → Nat
  | off => 0
  | error => 1
  | warn => 2
  | info => 3
  | debug => 4
  | trace => 5

/-- The levels by name. -/
def names : List (List Char × LogLevel) :=
  [("off".toList, off), ("error".toList, error), ("warn".toList, warn), ("info".toList, info),
   ("debug".toList, debug), ("trace".toList, trace)]

/-- The level with a number in decimal digits. -/
def ofDigits? (ds : List Char) : Option LogLevel :=
  if ds.isEmpty || !ds.all Char.isDigit then none
  else [off, error, warn, info, debug, trace][ds.foldl (fun n c => n * 10 + (c.toNat - 48)) 0]?

/-- The level with a name, in letters of either case, or with a number, before which a plus
sign may stand. -/
def ofText? (s : List Char) : Option LogLevel :=
  let ds := match s with
    | '+' :: rest => rest
    | _ => s
  (ofDigits? ds).or (names.lookup (s.map Char.toLower))

end LogLevel

end Volley
