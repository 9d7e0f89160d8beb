/-
# Where shots come from

A shot is fired by a player (`Shot.fire`) or rebuilt from the record of a snapshot
(`Shot.ofRecord`), and published as a record (`Shot.toRecord`). A record tells where a
shot is at the tick of the snapshot; the launch origin is solved backward over the time
of flight, so a rebuilt shot answers every later question like a fired one.

Key definitions: `Launch`, `Shot.fire`, `Shot.ofRecord`, `Shot.toRecord`.
-/
import Volley.Shot

namespace Volley

/-- The parameters of a fired shot. -/
structure Launch where
  weapon : Weapon
  owner : Option ClientId
  origin : Vec2
  direction : Vec2
  /-- Lifetime in ticks; none for a shot that lives until it hits something. -/
  lifespan : Option UInt32 := none
  freeze : Bool := false
  explosive : Bool := weapon = .grenade
  force : Scalar := 0.0
  impactSound : Option Int32 := none
  bounces : UInt32 := 0
  /-- The tune zone; none for the zone of the map at the origin. -/
  tuneZone : Option UInt32 := none
  layer : Int32 := 0
  number : Int32 := 0

namespace Shot

/-- The largest deviation from unit length that is left alone. -/
def unitTolerance : Scalar := 0.0001

/-- The shot fired at the tick of the context. An origin or force that is not finite is
taken as zero, and so is a direction without a unit vector. -/
def fire (ctx : TickContext) (l : Launch) : Shot :=
  let origin := if l.origin.isFinite then l.origin else Vec2.zero
  { weapon := l.weapon
    owner := l.owner
    origin
    direction := l.direction.normalizeOrZero
    startTick := ctx.tick
    launchTick := ctx.tick
    lifespan := l.lifespan
    explosive := l.explosive
    freeze := l.freeze
    force := if l.force.isFinite then l.force else 0.0
    impactSound := l.impactSound
    bounces := l.bounces
    tuneZone := l.tuneZone.getD (ctx.terrain.zone origin)
    layer := l.layer
    number := l.number }

/-- The direction of a record, made a unit vector if it is not nearly one. -/
def recordedDirection (r : Record) : Vec2 :=
  if unitTolerance < (r.direction.length - 1.0).abs then r.direction.normalizeOrZero
  else r.direction

/-- The lifespan that a record field means: none if it is negative. -/
def lifespanOfWire (raw : Int32) : Option UInt32 := if raw < 0 then none else some raw.toUInt32

/-- The record field for a lifespan, at most the end of its range. -/
def lifespanToWire : Option UInt32 → Int32
  | some span => if span < 0x80000000 then span.toInt32 else Int32.maxValue
  | none => -1

/-- The shot of a record at the recorded position, as if it had just been launched from
there: what a record says without solving for the origin. -/
def observed (r : Record) : Shot :=
  let extra := r.extraOrDefault
  { weapon := r.weaponKind
    owner := r.ownerId
    origin := r.position
    direction := recordedDirection r
    startTick := r.startTick
    launchTick := r.startTick.plus extra.launchOffset
    lifespan := lifespanOfWire r.lifespan
    explosive := r.flags.contains .explosive
    freeze := r.flags.contains .freeze
    force := r.forceValue
    impactSound := if r.impactSound < 0 then none else some r.impactSound
    bounces := extra.bounces
    tuneZone := extra.tuneZone
    layer := extra.layer
    number := extra.number }

/-- The launch origin from which a shot at `s.origin` at the tick of the context came. -/
def solvedOrigin (s : Shot) (ctx : TickContext) : Vec2 :=
  s.origin - s.displacement (s.flightSeconds ctx) ctx.tuning

/-- The shot that a record describes, seen at the tick of the context. If the origin has
no finite solution, the flight starts anew at the recorded position. -/
def ofRecord (ctx : TickContext) (r : Record) : Shot :=
  let s := observed r
  let origin := s.solvedOrigin ctx
  if origin.isFinite then { s with origin } else { s with launchTick := ctx.tick }

/-- The record of a shot, seen at the tick of the context. -/
def toRecord (s : Shot) (ctx : TickContext) : Record :=
  let base : Record :=
    { weapon := s.weapon.toWire
      startTick := s.startTick
      owner := ClientId.toWire s.owner
      x := 0, y := 0, dirX := 0, dirY := 0
      lifespan := lifespanToWire s.lifespan
      flags := RecordFlags.ofBools s.explosive s.freeze
      force := 0
      impactSound := s.impactSound.getD (-1)
      extra := some (s.extraAt ctx.tick) }
  ((base.setPosition (s.positionIn ctx)).setDirection s.direction).setForce s.force

end Shot

end Volley
