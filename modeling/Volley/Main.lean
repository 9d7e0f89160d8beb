/-
# The command line of the demonstration

The options are `--config FILE`, `--ticks N`, `--latency N` and `--no-predict`.
-/
import Volley.Demo
import Volley.Json.Writer

namespace Volley
namespace Demo

/-- The content of a file, if it can be read. -/
def contentOf (path : String) : IO (Option String) := do
  try
    return some (← IO.FS.readFile path)
  catch _ =>
    return none

/-- The line that ends a run. -/
def Report.line (r : Report) : String :=
  let summary := Json.writeObject (r.summary.entries.map fun e => (e.1, Json.writeInt e.2))
  s!"Demo finished summary={String.ofList summary} live={r.live}"

/-- Runs a command line. -/
def runLine (line : List String) : IO (Except Failure Report) := do
  match parseArgs line with
  | .error failure => return .error failure
  | .ok args =>
    let content ← match args.config with
      | some path => contentOf path
      | none => pure none
    return run args content

end Demo
end Volley

open Volley in
/-- Runs the demonstration and prints its summary. -/
def main (args : List String) : IO UInt32 := do
  match ← Demo.runLine args with
  | .ok report =>
    if report.shown then IO.println report.line
    return 0
  | .error failure =>
    IO.eprintln s!"Error: {failure.message}"
    return if failure.isOverflow then 101 else 1
