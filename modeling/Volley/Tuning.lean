/-
# Ballistic tuning

No physical constant is stored on a projectile. A projectile carries the number of a
tune zone, and its weapon's constants are looked up there at every query, so a region
of the map can change ballistics for shots already in flight.

A zone map lists some zones with their tunings, in ascending order. Zone 0 stands in for every
zone that is not listed, so a lookup in a map without zone 0 can fail, and so can a change. A
table is a map that lists zone 0. There nothing fails.

Key definitions: `WeaponTuning`, `ZoneTuning`, `ZoneMap`, `ZoneMap.zone?`, `ZoneMap.adjust?`,
`TuningTable`, `TuningTable.ofMap`, `TuningTable.zone`, `TuningTable.setZone`,
`TuningTable.adjust`.
-/
import Volley.Scalar
import Volley.Weapon
import Volley.ZoneMap

namespace Volley

/-- The ballistics of one weapon in one zone. -/
structure WeaponTuning where
  /-- Launch speed, in units a second. -/
  speed : Scalar
  /-- Acceleration downward, in units a second squared. -/
  gravity : Scalar
  /-- Radius for hits on players. -/
  collisionRadius : Scalar
  /-- Default lifetime of a new projectile. -/
  lifetimeSecs : Scalar
deriving BEq, Inhabited

/-- The lifetime in whole ticks at `hz` ticks a second; a negative one counts as zero. -/
def WeaponTuning.lifetimeTicks (t : WeaponTuning) (hz : UInt32) : UInt32 :=
  Scalar.roundUInt32 (t.lifetimeSecs.atLeastZero * hz.toFloat32)

/-- The ballistics of every weapon in one zone. -/
structure ZoneTuning where
  gun : WeaponTuning
  shotgun : WeaponTuning
  grenade : WeaponTuning
deriving BEq

namespace ZoneTuning

/-- The tuning of one weapon. -/
def weapon (z : ZoneTuning) : Weapon → WeaponTuning
  | .gun => z.gun
  | .shotgun => z.shotgun
  | .grenade => z.grenade

/-- The tuning of one weapon, changed by `f`. -/
def adjust (z : ZoneTuning) (w : Weapon) (f : WeaponTuning → WeaponTuning) : ZoneTuning :=
  match w with
  | .gun => { z with gun := f z.gun }
  | .shotgun => { z with shotgun := f z.shotgun }
  | .grenade => { z with grenade := f z.grenade }

/-- The standard tuning. Gravity is `2 · curvature · speed² / 10⁴`, with curvature 1.25
for the gun and the shotgun and 7 for the grenade. -/
def standard : ZoneTuning where
  gun := ⟨2200.0, 1210.0, 6.0, 2.0⟩
  shotgun := ⟨2750.0, 1890.625, 6.0, 0.2⟩
  grenade := ⟨1000.0, 1400.0, 6.0, 2.0⟩

instance : Inhabited ZoneTuning := ⟨standard⟩

theorem weapon_adjust (z : ZoneTuning) (w w' : Weapon) (f : WeaponTuning → WeaponTuning) :
    (z.adjust w f).weapon w' = if w' = w then f (z.weapon w) else z.weapon w' := by
  cases w <;> cases w' <;> rfl

end ZoneTuning

/-- The zone that stands in for those that are not listed. -/
def defaultZone : UInt32 := 0

namespace ZoneMap

/-- The map in which every zone has the tuning `base`. -/
def ofBase (base : ZoneTuning) : ZoneMap ZoneTuning := empty.insert defaultZone base

/-- The map with the standard tuning for zone 0, if it does not list zone 0 itself. -/
def completed (m : ZoneMap ZoneTuning) : ZoneMap ZoneTuning := m.orInsert defaultZone .standard

/-- The tuning of a zone: its own, or that of zone 0. It fails if neither is listed. -/
def zone? (m : ZoneMap ZoneTuning) (zone : UInt32) : Option ZoneTuning :=
  match m.get? zone with
  | some tuning => some tuning
  | none => m.get? defaultZone

/-- The tuning of a weapon in a zone. -/
def weapon? (m : ZoneMap ZoneTuning) (zone : UInt32) (w : Weapon) : Option WeaponTuning :=
  (m.zone? zone).map (·.weapon w)

/-- Changes one weapon of one zone by `f`. Zone 0 is looked up first, and a zone that is not
listed is then listed with a copy of it. -/
def adjust? (m : ZoneMap ZoneTuning) (zone : UInt32) (w : Weapon)
    (f : WeaponTuning → WeaponTuning) : Option (ZoneMap ZoneTuning) :=
  (m.zone? defaultZone).map fun base => (m.orInsert zone base).modify zone (·.adjust w f)

variable {m m' : ZoneMap ZoneTuning}

theorem zone?_eq (m : ZoneMap ZoneTuning) (zone : UInt32) :
    m.zone? zone = (m.get? zone).or (m.get? defaultZone) := by
  unfold zone?
  cases m.get? zone <;> rfl

theorem contains_ofBase (base : ZoneTuning) : (ofBase base).contains defaultZone = true := by
  simp [ofBase]

theorem contains_completed (m : ZoneMap ZoneTuning) :
    m.completed.contains defaultZone = true := by
  simp [completed]

/-- A lookup fails exactly if neither the zone nor zone 0 is listed. -/
theorem isSome_zone? (m : ZoneMap ZoneTuning) (zone : UInt32) :
    (m.zone? zone).isSome = (m.contains zone || m.contains defaultZone) := by
  rw [zone?_eq, Option.isSome_or, contains, contains]

/-- A change of a weapon fails exactly without zone 0, whether or not its zone is listed. -/
theorem isSome_adjust? (m : ZoneMap ZoneTuning) (zone : UInt32) (w : Weapon)
    (f : WeaponTuning → WeaponTuning) :
    (m.adjust? zone w f).isSome = m.contains defaultZone := by
  rw [adjust?, Option.isSome_map, isSome_zone?, Bool.or_self]

theorem contains_insert_default (h : m.contains defaultZone = true) (zone : UInt32)
    (tuning : ZoneTuning) : (m.insert zone tuning).contains defaultZone = true := by
  rw [contains_insert, h, Bool.true_or]

theorem contains_adjust? {zone : UInt32} {w : Weapon} {f : WeaponTuning → WeaponTuning}
    (h : m.adjust? zone w f = some m') (asked : UInt32) :
    m'.contains asked = (m.contains asked || asked = zone) := by
  obtain ⟨base, -, rfl⟩ := Option.map_eq_some_iff.mp h
  rw [contains_modify, contains_orInsert]

theorem contains_adjust?_default {zone : UInt32} {w : Weapon} {f : WeaponTuning → WeaponTuning}
    (h : m.contains defaultZone = true) (hm : m.adjust? zone w f = some m') :
    m'.contains defaultZone = true := by
  rw [contains_adjust? hm, h, Bool.true_or]

end ZoneMap

/-- The tuning of all zones: a map that lists zone 0. -/
structure TuningTable where
  zones : ZoneMap ZoneTuning
  contains_default : zones.contains defaultZone = true

namespace TuningTable

instance : BEq TuningTable := ⟨fun t t' => t.zones == t'.zones⟩

/-- A table in which every zone has the tuning `base`. -/
def new (base : ZoneTuning) : TuningTable where
  zones := .ofBase base
  contains_default := ZoneMap.contains_ofBase base

/-- The standard table. -/
def standard : TuningTable := new .standard

instance : Inhabited TuningTable := ⟨standard⟩

/-- The table of any map. A missing zone 0 gets the standard tuning. -/
def ofMap (m : ZoneMap ZoneTuning) : TuningTable where
  zones := m.completed
  contains_default := m.contains_completed

/-- The zone is in the table. -/
def contains (t : TuningTable) (zone : UInt32) : Bool := t.zones.contains zone

theorem isSome_zone? (t : TuningTable) (zone : UInt32) : (t.zones.zone? zone).isSome = true := by
  rw [ZoneMap.isSome_zone?, t.contains_default, Bool.or_true]

theorem isSome_adjust? (t : TuningTable) (zone : UInt32) (w : Weapon)
    (f : WeaponTuning → WeaponTuning) : (t.zones.adjust? zone w f).isSome = true := by
  rw [ZoneMap.isSome_adjust?, t.contains_default]

/-- The tuning of a zone: its own, or that of zone 0. -/
def zone (t : TuningTable) (zone : UInt32) : ZoneTuning :=
  (t.zones.zone? zone).get (t.isSome_zone? zone)

/-- The tuning of a weapon in a zone. -/
def get (t : TuningTable) (zone : UInt32) (w : Weapon) : WeaponTuning := (t.zone zone).weapon w

/-- Gives a zone a tuning of its own, in place of the one it may have had. -/
def setZone (t : TuningTable) (zone : UInt32) (tuning : ZoneTuning) : TuningTable where
  zones := t.zones.insert zone tuning
  contains_default := ZoneMap.contains_insert_default t.contains_default zone tuning

/-- Changes one weapon of one zone by `f`. A zone that the table does not hold is first
given a copy of zone 0. -/
def adjust (t : TuningTable) (zone : UInt32) (w : Weapon) (f : WeaponTuning → WeaponTuning) :
    TuningTable where
  zones := (t.zones.adjust? zone w f).get (t.isSome_adjust? zone w f)
  contains_default := ZoneMap.contains_adjust?_default t.contains_default (Option.some_get _).symm

/-- The zones in the table, in ascending order. -/
def toList (t : TuningTable) : List (UInt32 × ZoneTuning) := t.zones.entries

@[simp] theorem zone?_zones (t : TuningTable) (zone : UInt32) :
    t.zones.zone? zone = some (t.zone zone) :=
  (Option.some_get _).symm

theorem weapon?_zones (t : TuningTable) (zone : UInt32) (w : Weapon) :
    t.zones.weapon? zone w = some (t.get zone w) := by
  rw [ZoneMap.weapon?, zone?_zones]
  rfl

theorem adjust?_zones (t : TuningTable) (zone : UInt32) (w : Weapon)
    (f : WeaponTuning → WeaponTuning) :
    t.zones.adjust? zone w f = some (t.adjust zone w f).zones :=
  (Option.some_get _).symm

end TuningTable

end Volley
