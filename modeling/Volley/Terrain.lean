/-
# What a map answers

A trajectory asks three things of the map: the first obstacle on a segment, whether a
position is too far outside to be followed, and the tune zone at a position. `Terrain`
is any map that answers them.

Key definitions: `SegmentHit`, `Terrain`, `Terrain.openSpace`.
-/
import Volley.Vec2
import Volley.Tuning

namespace Volley

/-- Where a segment meets an obstacle. -/
structure SegmentHit where
  /-- The first point found inside the obstacle. -/
  point : Vec2
  /-- The last point before it, which is still free. -/
  before : Vec2
  /-- The unit normal of the surface, against the direction of the segment. -/
  normal : Vec2
  /-- The surface throws projectiles back. -/
  bounce : Bool
deriving BEq, Inhabited

/-- A map, by its answers. -/
structure Terrain where
  /-- The first obstacle on the segment between two points. -/
  hit : Vec2 → Vec2 → Option SegmentHit
  /-- The position is so far outside the map that a projectile there is given up. -/
  clipped : Vec2 → Bool := fun _ => false
  /-- The tune zone at a position. -/
  zone : Vec2 → UInt32 := fun _ => defaultZone

/-- The map without obstacles, borders and zones. -/
def Terrain.openSpace : Terrain where
  hit := fun _ _ => none

instance : Inhabited Terrain := ⟨.openSpace⟩

end Volley
