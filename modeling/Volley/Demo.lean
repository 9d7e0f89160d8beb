/-
# The demonstration

A server and a predicting client run side by side in a small arena. Every ten ticks both
fire the same shot; the server's snapshots reach the client a number of ticks late and
are reconciled with its predictions. At the end a summary tells what happened.

Key definitions: `Demo.Args`, `Demo.parseArgs`, `Demo.shot`, `Demo.simulate`, `Demo.run`.
-/
import Volley.Session
import Volley.Config.Text
import Volley.TileGrid.Rows
import Volley.LogFilter

namespace Volley
namespace Demo

/-- What the command line asks for. -/
structure Args where
  /-- The configuration file. -/
  config : Option String := none
  ticks : UInt32 := 500
  /-- Ticks that a snapshot travels. -/
  latency : Tick := 4
  predicting : Bool := true

/-- Why the demonstration cannot run. -/
inductive Failure where
  /-- The value of an option is not a number of its range. -/
  | badNumber (option : String)
  /-- The latency is below zero. -/
  | negativeLatency
  /-- There is no such option, or its value is missing. -/
  | unknownArgument (arg : String)
  /-- The configuration file cannot be used. -/
  | config (cause : LoadError)
  /-- The log filter of the configuration is not one. -/
  | badLogFilter
  /-- The arena is not a map. -/
  | badArena (cause : GridError)
  /-- A snapshot cannot be encoded. -/
  | wire (cause : WireError)
  /-- The clock overflows. -/
  | overflow (cause : Tick.Overflow)

/-- The text of an error. -/
def Failure.message : Failure → String
  | badNumber option => s!"parse {option}"
  | negativeLatency => "--latency must not be negative"
  | unknownArgument arg => s!"unknown argument {Text.quoteString arg}"
  | config cause => cause.message
  | badLogFilter => "build logger"
  | badArena _ => "parse demo arena"
  | wire cause => cause.message
  | overflow cause => s!"tick {cause.value} is out of range"

/-- The program is ended, instead of ending itself. -/
def Failure.isOverflow : Failure → Bool
  | overflow _ => true
  | _ => false

/-- The number that decimal digits write; there must be at least one. -/
def digits? (ds : List Char) : Option Nat :=
  if ds.isEmpty || !ds.all Char.isDigit then none
  else some (ds.foldl (fun n c => n * 10 + (c.toNat - '0'.toNat)) 0)

/-- The unsigned number that a text writes; a plus sign may stand before it. -/
def uint32? (s : String) : Option UInt32 := do
  let n ← match s.toList with
    | '+' :: ds => digits? ds
    | ds => digits? ds
  if n < UInt32.size then some (UInt32.ofNat n) else none

/-- The signed number that a text writes; a sign may stand before it. -/
def int32? (s : String) : Option Int32 := do
  let n : Int ← match s.toList with
    | '+' :: ds => (digits? ds).map Int.ofNat
    | '-' :: ds => (digits? ds).map fun n => -Int.ofNat n
    | ds => (digits? ds).map Int.ofNat
  if -2147483648 ≤ n ∧ n ≤ 2147483647 then some (Int32.ofInt n) else none

/-- Reads a command line into `args`. -/
def parseFrom (args : Args) : List String → Except Failure Args
  | [] => .ok args
  | "--config" :: path :: rest => parseFrom { args with config := some path } rest
  | "--ticks" :: value :: rest =>
    match uint32? value with
    | some ticks => parseFrom { args with ticks } rest
    | none => .error (.badNumber "--ticks")
  | "--latency" :: value :: rest =>
    match int32? value with
    | some latency =>
      if latency < 0 then .error .negativeLatency else parseFrom { args with latency } rest
    | none => .error (.badNumber "--latency")
  | "--no-predict" :: rest => parseFrom { args with predicting := false } rest
  | arg :: _ => .error (.unknownArgument arg)

/-- Reads a command line. -/
def parseArgs (line : List String) : Except Failure Args := parseFrom {} line

/-- The rows of the arena. -/
def arenaRows : List String :=
  ["####################",
   "#..................#",
   "#..................*",
   "#.......11.........*",
   "#.......11.........*",
   "#..................#",
   "#..................#",
   "####****############"]

/-- Ticks between two shots. -/
def fireEvery : Tick := 10

/-- The turn from the direction of one tick to that of the next, in radians. -/
def turn : Scalar := 0.37

/-- The shot of a tick: the weapons take turns, and the direction goes round. -/
def shot (tick : Tick) (cfg : Config) : Launch :=
  let weapon : Weapon :=
    if tick / fireEvery % 3 = 0 then .grenade
    else if tick / fireEvery % 3 = 1 then .gun
    else .shotgun
  let angle : Scalar := Scalar.ofInt32 tick * turn
  { weapon
    owner := some ⟨0⟩
    origin := ⟨320.0, 128.0⟩
    direction := ⟨angle.cos, angle.sin⟩
    lifespan := some ((cfg.tuning.get 0 weapon).lifetimeTicks cfg.tickHz)
    bounces := if weapon = .grenade then 1 else 0 }

/-- What happened. -/
structure Summary where
  ticks : Nat := 0
  shots : Nat := 0
  snapshots : Nat := 0
  claimed : Nat := 0
  spawned : Nat := 0
  replaced : Nat := 0
  suppressed : Nat := 0
  dropped : Nat := 0
  discarded : Nat := 0
  serverImpacts : Nat := 0
  predictedImpacts : Nat := 0
  drawn : Nat := 0
deriving Inhabited

/-- The entries of a summary, in the order in which they are shown. -/
def Summary.entries (s : Summary) : List (String × Nat) :=
  [("ticks", s.ticks), ("shots", s.shots), ("snapshots", s.snapshots), ("claimed", s.claimed),
   ("spawned", s.spawned), ("replaced", s.replaced), ("suppressed", s.suppressed),
   ("dropped", s.dropped), ("discarded", s.discarded), ("server_impacts", s.serverImpacts),
   ("predicted_impacts", s.predictedImpacts), ("drawn", s.drawn)]

/-- A demonstration under way. -/
structure State where
  session : Session
  shots : Nat := 0
  ticks : Nat := 0
  serverImpacts : Nat := 0
  predictedImpacts : Nat := 0
  drawn : Nat := 0

/-- The summary of what has happened. -/
def State.summary (s : State) : Summary :=
  let totals := s.session.totals
  { ticks := s.ticks
    shots := s.shots
    snapshots := totals.snapshots
    claimed := totals.claimed
    spawned := totals.spawned
    replaced := totals.replaced
    suppressed := totals.suppressed
    dropped := totals.dropped
    discarded := totals.discarded
    serverImpacts := s.serverImpacts
    predictedImpacts := s.predictedImpacts
    drawn := s.drawn }

/-- One tick: fire if it is time, advance, take the effects and draw a frame. -/
def State.step (cfg : Config) (s : State) : Except Failure State :=
  let now := s.session.server.tick
  let firing : Bool := now % fireEvery = 0
  let session := if firing then s.session.fire (shot now cfg) else s.session
  match session.step with
  | (.error cause, _) => .error (.overflow cause)
  | (.ok (some cause), _) => .error (.wire cause)
  | (.ok none, session) =>
    let (serverImpacts, server) := session.server.drainImpacts
    let (predictedImpacts, client) := session.client.drainImpacts
    .ok {
      session := { session with server, client }
      shots := s.shots + firing.toNat
      ticks := s.ticks + 1
      serverImpacts := s.serverImpacts + serverImpacts.length
      predictedImpacts := s.predictedImpacts + predictedImpacts.length
      drawn := s.drawn + (client.renderPositions 0.0).length }

/-- The demonstration after `n` more ticks. -/
def simulate (cfg : Config) : (n : Nat) → State → Except Failure State
  | 0, s => .ok s
  | n + 1, s => do simulate cfg n (← s.step cfg)

/-- What a run of the demonstration shows. -/
structure Report where
  summary : Summary
  /-- Shots alive on the client. -/
  live : Nat
  /-- The log filter lets the summary through. -/
  shown : Bool

/-- The log line that tells the summary. -/
def summaryLine : LogLine where
  target := "client"
  level := .info
  fields := ["message", "summary", "live"]

/-- The configuration that the arguments ask for, given the content of the file they name. -/
def configOf (args : Args) (content : Option String) : Except Failure Config :=
  match args.config with
  | some path => (Config.load path content).mapError .config
  | none => .ok .standard

/-- Runs the demonstration, given the content of the configuration file it names. -/
def run (args : Args) (content : Option String) : Except Failure Report := do
  let cfg ← configOf args content
  let some filter := LogFilter.parse? cfg.logFilter | throw .badLogFilter
  let arena ← (TileGrid.ofRows arenaRows).mapError .badArena
  let session := Session.new cfg arena arena args.latency Wire.currentVersion
  let session := { session with client := session.client.setPredicting args.predicting }
  let final ← simulate cfg args.ticks.toNat { session }
  return {
    summary := final.summary
    live := final.session.client.world.live.length
    shown := filter.shows summaryLine }

end Demo
end Volley
