/-
# Entities and their owners

Key definitions: `EntityId`, `ClientId`, `ClientId.ofWire`, `ClientId.toWire`.
-/

namespace Volley

/-- The number under which a world knows one projectile. -/
structure EntityId where
  val : UInt64
deriving DecidableEq, Inhabited

/-- The player who owns a projectile. -/
structure ClientId where
  val : UInt32
deriving DecidableEq, Inhabited

namespace ClientId

/-- The owner that a wire field names. Every negative value means that there is none. -/
def ofWire (raw : Int32) : Option ClientId :=
  if raw < 0 then none else some ⟨raw.toUInt32⟩

/-- The wire field for an owner. An owner that the field cannot hold is written as none. -/
def toWire : Option ClientId → Int32
  | some owner => if owner.val < 0x80000000 then owner.val.toInt32 else -1
  | none => -1

end ClientId

end Volley
