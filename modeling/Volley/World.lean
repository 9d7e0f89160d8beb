/-
# Worlds

A world owns the live shots and what they move against: the tuning table, the map and
the queue of effects. The same type runs the simulation on the server and the
prediction on a client.

A step advances all shots by one tick. Shots never interact, so their order does not
matter. A shot whose flight is over is put away after the step and kept for a while in
a list of retired ones, where a late snapshot can still find it.

Key definitions: `World`, `World.fire`, `World.addConfirmed`, `World.step`, `World.sweep`,
`World.snapshot`.
-/
import Volley.Shot.Launch
import Volley.Shot.Advance
import Volley.Snapshot

namespace Volley

/-- A shot under its local number. -/
structure Entity where
  id : EntityId
  /-- The number of the same shot on the server, once a snapshot has confirmed it. -/
  serverId : Option EntityId
  shot : Shot
deriving BEq, Inhabited

/-- What one step did: how many shots ended or bounced, by reason. -/
structure StepReport where
  tick : Tick
  bounced : Nat := 0
  impacts : Nat := 0
  expired : Nat := 0
  clipped : Nat := 0
  /-- Shots that were put away. -/
  removed : Nat := 0
deriving DecidableEq, Inhabited

/-- All shots of a simulation and what they move against. -/
structure World where
  tick : Tick := 0
  /-- Steps a second, at least one. -/
  hz : UInt32
  tuning : TuningTable
  terrain : Terrain
  /-- Effects that nobody has taken yet. -/
  effects : EventQueues := {}
  /-- Shots in flight, in order of arrival. -/
  live : List Entity := []
  /-- Shots whose flight is over, latest last. -/
  retired : List Entity := []
  /-- The number for the next shot. -/
  nextId : UInt64 := 1
deriving Inhabited

namespace World

/-- How many retired shots are kept. -/
def retiredCapacity : Nat := 256

/-- The empty world of a configuration. -/
def new (cfg : Config) (terrain : Terrain) : World :=
  { hz := max cfg.tickHz 1, tuning := cfg.tuning, terrain }

/-- What shots see at a tick. -/
def contextAt (w : World) (tick : Tick) : TickContext :=
  { tick, hz := w.hz, tuning := w.tuning, terrain := w.terrain }

/-- What shots see at the tick of the world. -/
def context (w : World) : TickContext := w.contextAt w.tick

/-- Moves the clock without moving any shot. -/
def setTick (w : World) (tick : Tick) : World := { w with tick }

/-- Adds a shot under a new local number. -/
def insert (w : World) (serverId : Option EntityId) (shot : Shot) : EntityId × World :=
  let id : EntityId := ⟨w.nextId⟩
  (id, { w with live := w.live ++ [{ id, serverId, shot }], nextId := w.nextId + 1 })

/-- Fires a shot at the tick of the world. -/
def fire (w : World) (l : Launch) : EntityId × World := w.insert none (Shot.fire w.context l)

/-- Adds the shot of a record that the server published at `seen`. -/
def addConfirmed (w : World) (serverId : EntityId) (r : Record) (seen : Tick) : EntityId × World :=
  w.insert (some serverId) (Shot.ofRecord (w.contextAt seen) r)

/-- The last entries of `entities`, as many as a world keeps. -/
def keepLatest (entities : List Entity) : List Entity :=
  entities.drop (entities.length - retiredCapacity)

/-- Puts away the shots whose flight is over. -/
def sweep (w : World) : World :=
  { w with
    live := w.live.filter (!·.shot.removed)
    retired := keepLatest (w.retired ++ w.live.filter (·.shot.removed)) }

/-- How many shots `sweep` puts away. -/
def removedCount (w : World) : Nat := w.live.countP (·.shot.removed)

/-- Every entity after the tick of the context, and what the tick did to it. -/
def advanceAll (ctx : TickContext) (entities : List Entity) : List (Entity × Outcome) :=
  entities.map fun e =>
    let (shot, outcome) := e.shot.advance ctx
    ({ e with shot }, outcome)

/-- Advances the world by one tick. -/
def step (w : World) : StepReport × World :=
  let w := w.setTick w.tick.next
  let advanced := advanceAll w.context w.live
  let outcomes := advanced.map Prod.snd
  let w : World := { w with
    live := advanced.map Prod.fst
    effects := w.effects.pushImpacts (outcomes.filterMap Outcome.impact?) }
  let report : StepReport :=
    { tick := w.tick
      bounced := outcomes.countP Outcome.isBounced
      impacts := outcomes.countP Outcome.isImpact
      expired := outcomes.countP Outcome.isExpired
      clipped := outcomes.countP Outcome.isClipped
      removed := w.removedCount }
  (report, w.sweep)

/-- What the server publishes: every live shot under its local number. -/
def snapshot (w : World) : Snapshot where
  tick := w.tick
  items := w.live.map fun e => { id := e.id, record := e.shot.toRecord w.context }

/-- Takes every waiting effect. -/
def drainImpacts (w : World) : List Impact × World :=
  let (impacts, effects) := w.effects.drainImpacts
  (impacts, { w with effects })

/-- The live shot with a given local number. -/
def get? (w : World) (id : EntityId) : Option Entity := w.live.find? (·.id = id)

/-- The live shot with a given number on the server. -/
def findServer? (w : World) (serverId : EntityId) : Option Entity :=
  w.live.find? (·.serverId = some serverId)

/-- The entities with the ones numbered `id` changed by `f`. -/
def updateId (entities : List Entity) (id : EntityId) (f : Entity → Entity) : List Entity :=
  entities.map fun e => if e.id = id then f e else e

/-- Changes a live shot. -/
def adjust (w : World) (id : EntityId) (f : Shot → Shot) : World :=
  { w with live := updateId w.live id fun e => { e with shot := f e.shot } }

/-- Drops every shot and every waiting effect. Numbers are not given out again. -/
def clear (w : World) : World := { w with live := [], retired := [], effects := .empty }

end World

end Volley
