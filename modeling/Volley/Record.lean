/-
# Projectile records

A record describes one projectile as the server saw it at the tick of a snapshot. Its
numbers are integers in fixed point, so a record survives any transport unchanged. The
extension block is optional: peers of the first protocol do not send it.

Key definitions: `RecordFlags`, `RecordExtra`, `Record`.
-/
import Volley.Vec2
import Volley.Tick
import Volley.Identity
import Volley.Weapon

namespace Volley

/-- A set of behaviours, one for each bit. Bits without a name are kept. -/
structure RecordFlags where
  bits : UInt32
deriving DecidableEq, Inhabited

namespace RecordFlags

/-- No behaviour. -/
def empty : RecordFlags := ⟨0⟩

/-- The projectile explodes where it hits. -/
def explosive : RecordFlags := ⟨1⟩

/-- The projectile freezes those it hits. -/
def freeze : RecordFlags := ⟨2⟩

/-- The behaviours in either set. -/
def union (a b : RecordFlags) : RecordFlags := ⟨a.bits ||| b.bits⟩

/-- Every behaviour of `b` is in `a`. -/
def contains (a b : RecordFlags) : Bool := a.bits &&& b.bits = b.bits

/-- The behaviours that have a name. -/
def known : RecordFlags := explosive.union freeze

/-- The behaviours of `a` that have a name. -/
def truncate (a : RecordFlags) : RecordFlags := ⟨a.bits &&& known.bits⟩

/-- The behaviours of a projectile. -/
def ofBools (isExplosive isFreeze : Bool) : RecordFlags :=
  (if isExplosive then explosive else empty).union (if isFreeze then freeze else empty)

end RecordFlags

/-- The extension block. -/
structure RecordExtra where
  /-- Layer of the switch that fired the projectile. -/
  layer : Int32 := 0
  /-- Number of the switch that fired the projectile. -/
  number : Int32 := 0
  tuneZone : UInt32 := 0
  /-- Bounces that are left. -/
  bounces : UInt32 := 0
  /-- Ticks from the creation to the launch of the current leg of the flight. -/
  launchOffset : Tick := 0
deriving DecidableEq, Inhabited

/-- One projectile at the tick of a snapshot. -/
structure Record where
  /-- Wire number of the weapon. -/
  weapon : Int32
  startTick : Tick
  /-- Number of the owner; negative for none. -/
  owner : Int32
  /-- Position at the tick of the snapshot, in hundredths of a unit. -/
  x : Int32
  y : Int32
  /-- Launch direction, in millionths. -/
  dirX : Int32
  dirY : Int32
  /-- Lifespan in ticks; negative for "until it hits something". -/
  lifespan : Int32
  flags : RecordFlags
  /-- Knockback, in hundredths. -/
  force : Int32
  /-- Number of the impact sound; negative for none. -/
  impactSound : Int32
  extra : Option RecordExtra
deriving DecidableEq, Inhabited

namespace Record

/-- Parts of a unit in which positions are counted. -/
def positionScale : Scalar := 100.0

/-- Parts of one in which directions are counted. -/
def directionScale : Scalar := 1000000.0

/-- Parts of one in which forces are counted. -/
def forceScale : Scalar := 100.0

/-- The fixed-point number nearest to `v`, at the end of the range if it is beyond it. -/
def quantize (v scale : Scalar) : Int32 := (v * scale).toInt32

/-- The value of a fixed-point number. -/
def unquantize (n : Int32) (scale : Scalar) : Scalar := Scalar.ofInt32 n / scale

/-- The record with another position. -/
def setPosition (r : Record) (pos : Vec2) : Record :=
  { r with x := quantize pos.x positionScale, y := quantize pos.y positionScale }

/-- The recorded position. -/
def position (r : Record) : Vec2 :=
  ⟨unquantize r.x positionScale, unquantize r.y positionScale⟩

/-- The record with another direction. -/
def setDirection (r : Record) (dir : Vec2) : Record :=
  { r with dirX := quantize dir.x directionScale, dirY := quantize dir.y directionScale }

/-- The recorded direction. -/
def direction (r : Record) : Vec2 :=
  ⟨unquantize r.dirX directionScale, unquantize r.dirY directionScale⟩

/-- The record with another force. -/
def setForce (r : Record) (force : Scalar) : Record :=
  { r with force := quantize force forceScale }

/-- The recorded force. -/
def forceValue (r : Record) : Scalar := unquantize r.force forceScale

/-- The weapon; an unknown number counts as a gun. -/
def weaponKind (r : Record) : Weapon := Weapon.ofWireLossy r.weapon

/-- The owner. -/
def ownerId (r : Record) : Option ClientId := ClientId.ofWire r.owner

/-- The extension block, or the one that a record without it implies. -/
def extraOrDefault (r : Record) : RecordExtra := r.extra.getD {}

end Record

end Volley
