/-
# Predicting clients

A client runs a world of its own ahead of the server and reconciles it with every
snapshot it accepts. Without prediction its world holds the newest snapshot, and
drawing interpolates between the two newest ones.

A snapshot from the future of a client makes it tell how far its clock is behind. That
difference may overflow, and then the snapshot is in the history and nothing else has changed.

Key definitions: `Client`, `Client.fire`, `Client.tick`, `Client.lag`, `Client.receive`,
`Client.receiveBytes`, `Client.renderPositions`.
-/
import Volley.World.Reconcile
import Volley.History
import Volley.Snapshot.Wire

namespace Volley

/-- A player's side of the game. -/
structure Client where
  world : World
  history : History
  policy : MatchPolicy
  /-- The client predicts shots. -/
  predicting : Bool := true
deriving Inhabited

namespace Client

/-- A predicting client with an empty world. -/
def new (cfg : Config) (terrain : Terrain) : Client where
  world := World.new cfg terrain
  history := History.new cfg.snapshotHistory
  policy := cfg.matching

/-- Turns prediction on or off. -/
def setPredicting (c : Client) (on : Bool) : Client := { c with predicting := on }

/-- Fires a shot, if the client predicts. -/
def fire (c : Client) (l : Launch) : Option EntityId × Client :=
  if c.predicting then
    let (id, world) := c.world.fire l
    (some id, { c with world })
  else (none, c)

/-- Advances the client by one tick. Without prediction only the clock moves. -/
def tick (c : Client) : StepReport × Client :=
  if c.predicting then
    let (report, world) := c.world.step
    (report, { c with world })
  else
    let tick := c.world.tick.next
    ({ tick }, { c with world := c.world.setTick tick })

/-- The client after `n` ticks. -/
def runTicks : Nat → Client → Client
  | 0, c => c
  | n + 1, c => runTicks n c.tick.2

/-- The client with its clock run up to a tick. Predictions are stepped through every tick
between, so that obstacles on the way still stop them. -/
def runTo (c : Client) (t : Tick) : Client :=
  if c.predicting then runTicks (c.world.tick.stepsUpTo t) c
  else { c with world := c.world.setTick (max c.world.tick t) }

/-- How far the clock of the client is behind a snapshot. -/
def lag (c : Client) (s : Snapshot) : Except Tick.Overflow Tick :=
  s.tick.exactDifference c.world.tick

/-- The client with its clock no longer behind a snapshot. If it is behind, it first tells how
far, and that may overflow. -/
def catchUp (c : Client) (s : Snapshot) : Except Tick.Overflow Client :=
  if c.world.tick < s.tick then (c.lag s).map fun _ => c.runTo s.tick else .ok c

/-- The world with the shots of a snapshot in place of all its own. -/
def replaceAll (w : World) (s : Snapshot) : World :=
  s.items.foldl (fun w item => (w.addConfirmed item.id item.record s.tick).2)
    { w with live := [], retired := [], tick := s.tick }

/-- Takes a snapshot of the server. One that is not newer than the newest is refused. Once it
is in the history, the clock has to catch up with it. If that overflows, the world stays as it
was. -/
def receive (c : Client) (s : Snapshot) : Checked Client (Option ReconcileReport) :=
  match c.history.push s with
  | (false, _) => (.ok none, c)
  | (true, history) =>
    let c := { c with history }
    match c.catchUp s with
    | .error overflow => (.error overflow, c)
    | .ok c =>
      if c.predicting then
        let (report, world) := c.world.reconcile s c.policy
        (.ok (some report), { c with world })
      else
        let count := s.items.length
        (.ok (some { tick := s.tick, confirmed := count, spawned := count }),
          { c with world := replaceAll c.world s })

/-- Takes an encoded snapshot. Bytes that encode none are refused. -/
def receiveBytes (c : Client) (bytes : List UInt8) : Checked Client (Option ReconcileReport) :=
  match Snapshot.decode bytes with
  | .ok s => c.receive s
  | .error _ => (.ok none, c)

/-- The position that the snapshots give for a shot, at a fraction of the current tick. -/
def confirmedPosition (c : Client) (serverId : EntityId) (fraction : Scalar) : Option Vec2 :=
  (c.history.interpolate serverId fraction).or ((c.history.record? serverId).map (·.position))

/-- Where to draw an entity at a fraction of the current tick. -/
def renderPosition (c : Client) (fraction : Scalar) (e : Entity) : Vec2 :=
  let confirmed := if c.predicting then none
    else e.serverId.bind (c.confirmedPosition · fraction)
  confirmed.getD (e.shot.renderPosition c.world.context fraction)

/-- Where to draw every live shot at a fraction of the current tick. -/
def renderPositions (c : Client) (fraction : Scalar) : List (EntityId × Vec2) :=
  c.world.live.map fun e => (e.id, c.renderPosition fraction e)

/-- Takes every waiting effect. -/
def drainImpacts (c : Client) : List Impact × Client :=
  let (impacts, world) := c.world.drainImpacts
  (impacts, { c with world })

end Client

end Volley
