/-
# Weapons

Key definitions: `Weapon`, `Weapon.ofWire`, `Weapon.ofWireLossy`.
-/

namespace Volley

/-- The weapons that fire projectiles. -/
inductive Weapon where
  | gun
  | shotgun
  | grenade
deriving DecidableEq, Inhabited

namespace Weapon

/-- The number of a weapon on the wire. -/
def toWire : Weapon → Int32
  | gun => 1
  | shotgun => 2
  | grenade => 3

/-- The weapon with a given wire number. -/
def ofWire (raw : Int32) : Option Weapon :=
  if raw = 1 then some gun
  else if raw = 2 then some shotgun
  else if raw = 3 then some grenade
  else none

/-- The weapon with a given wire number; an unknown number counts as a gun. -/
def ofWireLossy (raw : Int32) : Weapon := (ofWire raw).getD gun

@[simp] theorem ofWire_toWire (w : Weapon) : ofWire w.toWire = some w := by
  cases w <;> rfl

@[simp] theorem ofWireLossy_toWire (w : Weapon) : ofWireLossy w.toWire = w := by
  cases w <;> rfl

end Weapon

end Volley
