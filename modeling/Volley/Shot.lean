/-
# Shots

A shot is one projectile in flight. It never stores where it is: its position is a
closed function of the launch origin, the unit launch direction, the tuning table and
the time since launch, so simulating the same ticks again gives the same positions bit
for bit.

Two ticks are kept. The start tick is the tick of creation. It never changes; it
identifies the shot and is the base of its lifespan. The launch tick is the start of the
current leg: it equals the start tick until a bounce starts a new leg at the surface.
Earlier legs are remembered, so a shot can still be compared with what a snapshot saw
before its latest bounce.

Key definitions: `Shot`, `TickContext`, `Shot.positionAt`, `Shot.renderPosition`,
`Shot.legAt`, `Shot.extraAt`, `Shot.agrees`, `Shot.agreesAt`, `Shot.adopt`.
-/
import Volley.Config
import Volley.Terrain
import Volley.Identity
import Volley.Record

namespace Volley

/-- What a shot sees of the world when it is built, moved or published. -/
structure TickContext where
  tick : Tick
  hz : UInt32
  tuning : TuningTable
  terrain : Terrain

/-- The time that `t` ticks take in this context. -/
def TickContext.seconds (ctx : TickContext) (t : Tick) : Scalar := t.seconds ctx.hz

/-- The stretch of a flight between two bounces. -/
structure Leg where
  launchTick : Tick
  direction : Vec2
deriving BEq, Inhabited

/-- A projectile in flight. -/
structure Shot where
  weapon : Weapon
  owner : Option ClientId
  /-- Where the current leg starts. -/
  origin : Vec2
  /-- The unit direction in which the current leg starts. -/
  direction : Vec2
  startTick : Tick
  launchTick : Tick
  /-- Lifetime in ticks; none for a shot that lives until it hits something. -/
  lifespan : Option UInt32
  explosive : Bool
  freeze : Bool
  force : Scalar
  impactSound : Option Int32
  /-- Bounces that are left. -/
  bounces : UInt32
  tuneZone : UInt32
  layer : Int32
  number : Int32
  /-- The legs before the current one, latest first. -/
  pastLegs : List Leg := []
  /-- The flight is over, and the world has not yet put the shot away. -/
  removed : Bool := false
deriving BEq, Inhabited

namespace Shot

/-- The way covered `time` seconds after launch. -/
def displacement (s : Shot) (time : Scalar) (tuning : TuningTable) : Vec2 :=
  let t := tuning.get s.tuneZone s.weapon
  s.direction * (t.speed * time) + Vec2.down * (0.5 * t.gravity * time * time)

/-- The position `time` seconds after launch. -/
def positionAt (s : Shot) (time : Scalar) (tuning : TuningTable) : Vec2 :=
  s.origin + s.displacement time tuning

/-- Ticks since the launch of the current leg. -/
def flight (s : Shot) (tick : Tick) : Tick := tick.minus s.launchTick

/-- The time since the launch of the current leg. -/
def flightSeconds (s : Shot) (ctx : TickContext) : Scalar := ctx.seconds (s.flight ctx.tick)

/-- The position at the tick of the context. -/
def positionIn (s : Shot) (ctx : TickContext) : Vec2 :=
  s.positionAt (s.flightSeconds ctx) ctx.tuning

/-- The position a fraction of a tick after the tick of the context. The fraction is
moved into `[0, 1]`; one that is not finite counts as zero. -/
def renderPosition (s : Shot) (ctx : TickContext) (fraction : Scalar) : Vec2 :=
  let fraction := if fraction.isFinite then fraction.clampUnit else 0.0
  s.positionAt (s.flightSeconds ctx + ctx.seconds 1 * fraction) ctx.tuning

/-! ### The past of a flight -/

/-- The current leg. -/
def leg (s : Shot) : Leg := ⟨s.launchTick, s.direction⟩

/-- All legs, latest first. -/
def legs (s : Shot) : List Leg := s.leg :: s.pastLegs

/-- The latest of `leg` and the legs before it, latest first, that was launched by
`tick`; the oldest if none was. -/
def latestLegBy (tick : Tick) : Leg → List Leg → Leg
  | leg, [] => leg
  | leg, earlier :: rest => if leg.launchTick ≤ tick then leg else latestLegBy tick earlier rest

/-- The leg in flight at a tick. -/
def legAt (s : Shot) (tick : Tick) : Leg := latestLegBy tick s.leg s.pastLegs

/-- The launch direction of the leg in flight at a tick. -/
def directionAt (s : Shot) (tick : Tick) : Vec2 := (s.legAt tick).direction

/-- The bounces taken after a tick: all legs but the first one start with a bounce. -/
def bouncesAfter (s : Shot) (tick : Tick) : Nat :=
  (s.legs.dropLast.filter fun leg => tick < leg.launchTick).length

/-- The bounces that were left at a tick. -/
def bouncesAt (s : Shot) (tick : Tick) : UInt32 :=
  UInt32.ofNatClamp (s.bounces.toNat + s.bouncesAfter tick)

/-- The extension block that describes the shot as it was at a tick. -/
def extraAt (s : Shot) (tick : Tick) : RecordExtra where
  layer := s.layer
  number := s.number
  tuneZone := s.tuneZone
  bounces := s.bouncesAt tick
  launchOffset := (s.legAt tick).launchTick.minus s.startTick

/-! ### Agreement between two shots -/

/-- `a`, heading in `direction`, is the same shot as `b`. The position is left out on
purpose: a shot rebuilt from a record that is a tick off sits elsewhere on the same
trajectory. -/
def sameShot (a b : Shot) (direction : Vec2) (policy : MatchPolicy) : Bool :=
  a.owner = b.owner && a.weapon = b.weapon
    && direction.distance b.direction ≤ policy.directionEpsilon
    && a.startTick.gap b.startTick ≤ policy.tickWindow.atLeastZero.toInt.toNat

/-- The two are the same shot. -/
def agrees (a b : Shot) (policy : MatchPolicy) : Bool := a.sameShot b a.direction policy

/-- `a` is the same shot as `observed`, which was seen at `tick`: the heading of `a` is
the one it had at that tick. -/
def agreesAt (a observed : Shot) (tick : Tick) (policy : MatchPolicy) : Bool :=
  a.sameShot observed (a.directionAt tick) policy

/-! ### Corrections by the server -/

/-- The shot with another number of bounces left. -/
def setBounces (s : Shot) (n : UInt32) : Shot := { s with bounces := n }

/-- The shot marked for removal. -/
def remove (s : Shot) : Shot := { s with removed := true }

/-- Takes over what the server decides from a confirmed shot, and keeps the trajectory.
The bounces left are kept too if the current leg of the flight started later than that of the
confirmed shot. -/
def adopt (s confirmed : Shot) : Shot :=
  { s with
    bounces := if s.launchTick ≤ confirmed.launchTick then confirmed.bounces else s.bounces
    lifespan := confirmed.lifespan
    explosive := confirmed.explosive
    freeze := confirmed.freeze
    force := confirmed.force
    impactSound := confirmed.impactSound
    tuneZone := confirmed.tuneZone
    layer := confirmed.layer
    number := confirmed.number }

end Shot

end Volley
