/-
# Sessions

A server world and a predicting client, joined by a line that delivers every snapshot
a fixed number of ticks late.

Key definitions: `DelayLine`, `Totals`, `Session`, `Session.fire`, `Session.step`,
`Session.run`, `Session.arenaRows`.
-/
import Volley.Client
import Volley.TileGrid.Sweep

namespace Volley

/-- Messages under way, in order of sending, each with the tick at which it is due. -/
structure DelayLine where
  /-- Ticks from sending to delivery. -/
  delay : Tick := 0
  inFlight : List (Tick × List UInt8) := []
deriving DecidableEq, Inhabited

namespace DelayLine

/-- A line with nothing under way. -/
def new (delay : Tick) : DelayLine := { delay }

/-- Sends a message. The tick at which it is due may overflow. -/
def send (line : DelayLine) (now : Tick) (message : List UInt8) :
    Except Tick.Overflow DelayLine :=
  (now.exactSum line.delay).map fun due =>
    { line with inFlight := line.inFlight ++ [(due, message)] }

/-- Delivers every message that is due, up to the first one that is not. -/
def receive (line : DelayLine) (now : Tick) : List (List UInt8) × DelayLine :=
  ((line.inFlight.takeWhile (·.1 ≤ now)).map (·.2),
    { line with inFlight := line.inFlight.dropWhile (·.1 ≤ now) })

/-- What is sent is put at the end. -/
theorem exists_of_send {line line' : DelayLine} {now : Tick} {message : List UInt8}
    (h : line.send now message = .ok line') :
    ∃ due, line' = { line with inFlight := line.inFlight ++ [(due, message)] } := by
  rw [send] at h
  cases hdue : now.exactSum line.delay with
  | error overflow =>
    rw [hdue] at h
    cases h
  | ok due =>
    rw [hdue] at h
    cases h
    exact ⟨due, rfl⟩

end DelayLine

/-- What all reconciliations of a session did. -/
structure Totals where
  snapshots : Nat := 0
  claimed : Nat := 0
  adopted : Nat := 0
  replaced : Nat := 0
  suppressed : Nat := 0
  spawned : Nat := 0
  dropped : Nat := 0
  discarded : Nat := 0
deriving DecidableEq, Inhabited

/-- The totals with one more reconciliation. -/
def Totals.add (t : Totals) (r : ReconcileReport) : Totals where
  snapshots := t.snapshots + 1
  claimed := t.claimed + r.claimed
  adopted := t.adopted + r.adopted
  replaced := t.replaced + r.replaced
  suppressed := t.suppressed + r.suppressed
  spawned := t.spawned + r.spawned
  dropped := t.dropped + r.dropped
  discarded := t.discarded + r.discarded

/-- A server and a client playing together. -/
structure Session where
  server : World
  client : Client
  line : DelayLine
  /-- The protocol in which snapshots travel. -/
  version : UInt32
  totals : Totals := {}
deriving Inhabited

namespace Session

/-- The rows of the standard map. -/
def arenaRows : List String :=
  ["################",
   "#..............*",
   "#......11......*",
   "#......11......*",
   "#..............#",
   "################"]

/-- A session in which nothing has happened. -/
def new (cfg : Config) (serverMap clientMap : TileGrid) (latency : Tick) (version : UInt32) :
    Session where
  server := World.new cfg serverMap.terrain
  client := Client.new cfg clientMap.terrain
  line := DelayLine.new latency
  version

/-- Fires the same shot on both sides. -/
def fire (s : Session) (l : Launch) : Session :=
  { s with server := (s.server.fire l).2, client := (s.client.fire l).2 }

/-- Delivers a message to the client. -/
def deliver (s : Session) (message : List UInt8) : Checked Session Unit :=
  match s.client.receiveBytes message with
  | (.ok (some report), client) => (.ok (), { s with client, totals := s.totals.add report })
  | (.ok none, client) => (.ok (), { s with client })
  | (.error overflow, client) => (.error overflow, { s with client })

/-- Delivers messages one after the other, up to the first one with an overflow. -/
def deliverAll : List (List UInt8) → Session → Checked Session Unit
  | [], s => (.ok (), s)
  | message :: due, s =>
    match s.deliver message with
    | (.ok (), s) => deliverAll due s
    | failed => failed

/-- Both sides after one tick, before anything is sent. -/
def advance (s : Session) : Session :=
  { s with server := s.server.step.2, client := s.client.tick.2 }

/-- Sends a message of the server and delivers all messages that are due. -/
def exchange (s : Session) (message : List UInt8) : Checked Session Unit :=
  match s.line.send s.server.tick message with
  | .error overflow => (.error overflow, s)
  | .ok line =>
    let (due, line) := line.receive s.server.tick
    deliverAll due { s with line }

/-- Advances both sides by one tick, sends a snapshot, and delivers what is due. If the
snapshot cannot be encoded, both sides have advanced and nothing is sent. -/
def step (s : Session) : Checked Session (Option WireError) :=
  let s := s.advance
  match s.server.snapshot.encode s.version with
  | .ok message =>
    match s.exchange message with
    | (.ok (), s) => (.ok none, s)
    | (.error overflow, s) => (.error overflow, s)
  | .error e => (.ok (some e), s)

/-- Advances the session by `n` ticks, up to the first one that fails. -/
def run : Nat → Session → Checked Session (Option WireError)
  | 0, s => (.ok none, s)
  | n + 1, s =>
    match s.step with
    | (.ok none, s) => run n s
    | failed => failed

end Session

end Volley
