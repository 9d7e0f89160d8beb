/-
# The first obstacle on a segment

A segment is probed at points that are about one unit apart, both ends included. The
first probe inside an obstacle is the hit, and the probe before it the last free point.
The surface normal follows from the cells of the two: it is the axis along which the
cell changed.

Key definitions: `TileGrid.probeCount`, `TileGrid.probe`, `TileGrid.firstHit`,
`TileGrid.terrain`.
-/
import Volley.TileGrid

namespace Volley
namespace TileGrid

/-- The most units of length that are probed one by one. -/
def maxProbes : Scalar := 1000000.0

/-- The number of intervals into which the way from `a` to `b` is divided. -/
def probeCount (a b : Vec2) : UInt32 := ((a.distance b).atMost maxProbes).toUInt32 + 1

/-- The point after `i` of `count` equal intervals. -/
@[inline] def probe (a b : Vec2) (count : UInt32) (i : Nat) : Vec2 :=
  a.lerp b ((UInt32.ofNat i).toFloat32 / count.toFloat32)

/-- The surface normal where a projectile goes from the free point `before` to `point`.
If both coordinates of the cell change, it is the axis along which the step alone would
be blocked, and if neither is, the direction against the step. -/
def normalBetween (g : TileGrid) (before point : Vec2) : Vec2 :=
  let step := point - before
  let horizontal : Vec2 := ⟨-step.x.unitSign, 0.0⟩
  let vertical : Vec2 := ⟨0.0, -step.y.unitSign⟩
  let crossesX := cellCoord before.x != cellCoord point.x
  let crossesY := cellCoord before.y != cellCoord point.y
  if crossesX && !crossesY then horizontal
  else if !crossesX && crossesY then vertical
  else if crossesX && crossesY && (g.tileAt ⟨before.x, point.y⟩).blocks then vertical
  else if crossesX && crossesY && (g.tileAt ⟨point.x, before.y⟩).blocks then horizontal
  else (-step).normalizeOrZero

/-- The first of the next `n` probes, from number `i` on, that lies inside an obstacle;
`last` is the probe before them. -/
def scan (g : TileGrid) (a b : Vec2) (count : UInt32) : (n i : Nat) → (last : Vec2) →
    Option SegmentHit
  | 0, _, _ => none
  | n + 1, i, last =>
    let point := probe a b count i
    let tile := g.tileAt point
    if tile.blocks then
      some { point, before := last, normal := g.normalBetween last point, bounce := tile = .bounce }
    else scan g a b count n (i + 1) point

/-- The first obstacle on the way from `a` to `b`. -/
def firstHit (g : TileGrid) (a b : Vec2) : Option SegmentHit :=
  let count := probeCount a b
  g.scan a b count (count.toNat + 1) 0 a

/-- The grid as a map for trajectories. -/
def terrain (g : TileGrid) : Terrain where
  hit := g.firstHit
  clipped := g.clipped
  zone := g.zoneAt

end TileGrid
end Volley
