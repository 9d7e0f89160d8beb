/-
# Configuration files

A configuration is a JSON object. Only the tick rate must be there; the standard values
stand in for everything else. The tuning is an object of zones by number; the last of
several entries for a zone counts. A file must in addition give a positive rate.

Key definitions: `Config.ofJson`, `Config.load`, `LoadError`.
-/
import Volley.Config
import Volley.Json.Struct

namespace Volley

namespace WeaponTuning

/-- A weapon's tuning with fields missing. -/
structure Draft where
  speed : Option Scalar := none
  gravity : Option Scalar := none
  collisionRadius : Option Scalar := none
  lifetimeSecs : Option Scalar := none

open Json in
/-- The fields of a weapon's tuning. -/
def fields : List (Json.Field Draft) :=
  [.of "speed" (·.speed) (fun d v => { d with speed := some v }) Reader.scalar,
   .of "gravity" (·.gravity) (fun d v => { d with gravity := some v }) Reader.scalar,
   .of "collision_radius" (·.collisionRadius) (fun d v => { d with collisionRadius := some v })
     Reader.scalar,
   .of "lifetime_secs" (·.lifetimeSecs) (fun d v => { d with lifetimeSecs := some v })
     Reader.scalar]

open Json Reader in
/-- The tuning of a draft. -/
def finish (d : Draft) : Except Fault WeaponTuning := do
  let speed ← need "speed" d.speed
  let gravity ← need "gravity" d.gravity
  let collisionRadius ← need "collision_radius" d.collisionRadius
  let lifetimeSecs ← need "lifetime_secs" d.lifetimeSecs
  return { speed, gravity, collisionRadius, lifetimeSecs }

/-- Reads a weapon's tuning. -/
def read : Json.Reader WeaponTuning := Json.Reader.struct "WeaponTuning" fields {} finish

end WeaponTuning

namespace ZoneTuning

/-- A zone's tuning with fields missing. -/
structure Draft where
  gun : Option WeaponTuning := none
  shotgun : Option WeaponTuning := none
  grenade : Option WeaponTuning := none

open Json in
/-- The fields of a zone's tuning. -/
def fields : List (Json.Field Draft) :=
  [.of "gun" (·.gun) (fun d v => { d with gun := some v }) WeaponTuning.read,
   .of "shotgun" (·.shotgun) (fun d v => { d with shotgun := some v }) WeaponTuning.read,
   .of "grenade" (·.grenade) (fun d v => { d with grenade := some v }) WeaponTuning.read]

open Json Reader in
/-- The tuning of a draft. -/
def finish (d : Draft) : Except Fault ZoneTuning := do
  let gun ← need "gun" d.gun
  let shotgun ← need "shotgun" d.shotgun
  let grenade ← need "grenade" d.grenade
  return { gun, shotgun, grenade }

/-- Reads a zone's tuning. -/
def read : Json.Reader ZoneTuning := Json.Reader.struct "ZoneTuning" fields {} finish

end ZoneTuning

/-- Reads a table of zones. -/
def TuningTable.read : Json.Reader TuningTable := do
  return TuningTable.ofMap (ZoneMap.ofList (← Json.Reader.numberKeyed ZoneTuning.read))

namespace MatchPolicy

/-- A policy with fields missing. -/
structure Draft where
  tickWindow : Option Int32 := none
  directionEpsilon : Option Scalar := none
  correctionDistance : Option Scalar := none

open Json in
/-- The fields of a policy. -/
def fields : List (Json.Field Draft) :=
  [.optional "tick_window" (·.tickWindow) (fun d v => { d with tickWindow := some v })
     Reader.int32,
   .optional "direction_epsilon" (·.directionEpsilon)
     (fun d v => { d with directionEpsilon := some v }) Reader.scalar,
   .optional "correction_distance" (·.correctionDistance)
     (fun d v => { d with correctionDistance := some v }) Reader.scalar]

/-- The policy of a draft. -/
def finish (d : Draft) : Except Json.Fault MatchPolicy :=
  let standard : MatchPolicy := {}
  .ok {
    tickWindow := d.tickWindow.getD standard.tickWindow
    directionEpsilon := d.directionEpsilon.getD standard.directionEpsilon
    correctionDistance := d.correctionDistance.getD standard.correctionDistance }

/-- Reads a policy. -/
def read : Json.Reader MatchPolicy := Json.Reader.struct "MatchPolicy" fields {} finish

end MatchPolicy

/-- Why a configuration file cannot be used. -/
inductive LoadError where
  /-- There is no such file. -/
  | unreadable (path : String)
  /-- The file does not hold a configuration. -/
  | unparsable (path : String) (cause : Json.Fault)
  /-- The tick rate is zero. -/
  | zeroRate

/-- The text of an error. -/
def LoadError.message : LoadError → String
  | unreadable path => s!"read config {path}"
  | unparsable path _ => s!"parse config {path}"
  | zeroRate => "tick_hz must be positive"

namespace Config

/-- A configuration with fields missing. -/
structure Draft where
  tickHz : Option UInt32 := none
  matching : Option MatchPolicy := none
  tuning : Option TuningTable := none
  snapshotHistory : Option Nat := none
  logFilter : Option String := none

open Json in
/-- The fields of a configuration. -/
def fields : List (Json.Field Draft) :=
  [.of "tick_hz" (·.tickHz) (fun d v => { d with tickHz := some v }) Reader.uint32,
   .optional "matching" (·.matching) (fun d v => { d with matching := some v }) MatchPolicy.read,
   .optional "tuning" (·.tuning) (fun d v => { d with tuning := some v }) TuningTable.read,
   .optional "snapshot_history" (·.snapshotHistory)
     (fun d v => { d with snapshotHistory := some v }) Reader.size,
   .optional "log_filter" (·.logFilter) (fun d v => { d with logFilter := some v })
     (Reader.text "a string")]

open Json Reader in
/-- The configuration of a draft. -/
def finish (d : Draft) : Except Fault Config := do
  let tickHz ← need "tick_hz" d.tickHz
  return {
    tickHz
    matching := d.matching.getD standard.matching
    tuning := d.tuning.getD standard.tuning
    snapshotHistory := d.snapshotHistory.getD standard.snapshotHistory
    logFilter := d.logFilter.getD standard.logFilter }

/-- Reads a configuration. -/
def read : Json.Reader Config := Json.Reader.struct "PredictionConfig" fields {} finish

/-- The configuration that a JSON text describes. -/
def ofJson (text : String) : Except Json.Fault Config := Json.Reader.runAll read text

/-- The configuration in a file, given the content of the file if it exists. -/
def load (path : String) (content : Option String) : Except LoadError Config := do
  let some text := content | throw (.unreadable path)
  match ofJson text with
  | .error cause => throw (.unparsable path cause)
  | .ok cfg => if cfg.tickHz = 0 then throw .zeroRate else return cfg

end Config

end Volley
