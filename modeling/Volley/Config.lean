/-
# Configuration

Key definitions: `MatchPolicy`, `Config`.
-/
import Volley.Tick
import Volley.Tuning

namespace Volley

/-- How closely a predicted projectile must agree with one of the server to be taken for
the same shot. -/
structure MatchPolicy where
  /-- The largest difference of the start ticks. The timing of snapshots can shift the
  start tick that a client sees by one or two. -/
  tickWindow : Tick := 2
  /-- The largest distance of the unit directions. -/
  directionEpsilon : Scalar := 0.01
  /-- A prediction further than this from the position on the server is replaced. -/
  correctionDistance : Scalar := 32.0
deriving BEq, Inhabited

/-- What a world and a client are built from. -/
structure Config where
  /-- Simulation steps a second. -/
  tickHz : UInt32
  matching : MatchPolicy := {}
  tuning : TuningTable := .standard
  /-- How many snapshots are kept for interpolation. -/
  snapshotHistory : Nat := 32
  /-- Which log lines are shown. -/
  logFilter : String := "info"

/-- The configuration that is used when none is given. -/
def Config.standard : Config := { tickHz := 50 }

instance : Inhabited Config := ⟨.standard⟩

end Volley
