/-
# Tile maps

A grid of square tiles. Each tile is empty, solid or bouncing, and belongs to a tune
zone. Outside the grid everything is empty. Both properties are stored row by row: the
tile in column `x` and row `y` is at place `y * width + x`. The size of a grid is asked for
in machine words. A grid is not built if the number of its tiles is no word, or if an array
with an entry for each of them would be larger than arrays get.

Key definitions: `TileGrid`, `TileGrid.empty`, `TileGrid.setTile`, `TileGrid.setZone`,
`TileGrid.index?`, `TileGrid.tileAt`, `TileGrid.zoneAt`.
-/
import Volley.Terrain

namespace Volley

/-- What a tile does to a projectile. -/
inductive Tile where
  /-- Lets it pass. -/
  | empty
  /-- Stops it. -/
  | solid
  /-- Throws it back if it has a bounce left, and stops it otherwise. -/
  | bounce
deriving DecidableEq, Inhabited

/-- The tile is an obstacle. -/
def Tile.blocks : Tile → Bool
  | empty => false
  | _ => true

/-- A map of square tiles. -/
structure TileGrid where
  width : Nat
  height : Nat
  tiles : Array Tile
  zones : Array UInt32
deriving Inhabited

namespace TileGrid

/-- The side of a tile, in world units. -/
def tileSize : Scalar := 32.0

/-- How many tiles a projectile may fly beyond the grid. -/
def clipMargin : Scalar := 200.0

/-- A grid without obstacles, all in the default zone. -/
def blank (width height : Nat) : TileGrid where
  width
  height
  tiles := Array.replicate (width * height) .empty
  zones := Array.replicate (width * height) defaultZone

/-- A number as a machine word, if it is one. -/
def word? (n : Nat) : Option UInt64 := if n < UInt64.size then some (.ofNat n) else none

/-- The most bytes that an array takes. -/
def maxBytes : Nat := 0x7fffffffffffffff

/-- The bytes of a tile in its array. -/
def tileBytes : Nat := 1

/-- The bytes of a tune zone in its array. -/
def zoneBytes : Nat := 4

/-- The grid of the given size without obstacles, all in the default zone, if it can be
built. -/
def empty (width height : UInt64) : Option TileGrid :=
  match word? (width.toNat * height.toNat) with
  | some count =>
    if tileBytes * count.toNat ≤ maxBytes ∧ zoneBytes * count.toNat ≤ maxBytes then
      some (blank width.toNat height.toNat)
    else none
  | none => none

/-- Replaces a tile. A place outside the grid is ignored. -/
def setTile (g : TileGrid) (x y : Nat) (tile : Tile) : TileGrid :=
  if x < g.width ∧ y < g.height then
    { g with tiles := g.tiles.setIfInBounds (y * g.width + x) tile }
  else g

/-- Moves a tile into a tune zone. A place outside the grid is ignored. -/
def setZone (g : TileGrid) (x y : Nat) (zone : UInt32) : TileGrid :=
  if x < g.width ∧ y < g.height then
    { g with zones := g.zones.setIfInBounds (y * g.width + x) zone }
  else g

/-- The column or row that a coordinate lies in. -/
def cellCoord (s : Scalar) : Int := (s / tileSize).floor

/-- The column and row that a position lies in. -/
@[inline] def cell (pos : Vec2) : Int × Int := (cellCoord pos.x, cellCoord pos.y)

/-- The place of a cell in the stored arrays, if it belongs to the grid. -/
@[inline] def cellIndex? (g : TileGrid) (cell : Int × Int) : Option Nat :=
  if 0 ≤ cell.1 ∧ 0 ≤ cell.2 ∧ cell.1 < g.width ∧ cell.2 < g.height then
    some (cell.2.toNat * g.width + cell.1.toNat)
  else none

/-- The place in the stored arrays of the tile at a position. -/
@[inline] def index? (g : TileGrid) (pos : Vec2) : Option Nat := g.cellIndex? (cell pos)

/-- The tile at a position. -/
def tileAt (g : TileGrid) (pos : Vec2) : Tile :=
  match g.index? pos with
  | some i => g.tiles.getD i .empty
  | none => .empty

/-- The tune zone at a position. -/
def zoneAt (g : TileGrid) (pos : Vec2) : UInt32 :=
  match g.index? pos with
  | some i => g.zones.getD i defaultZone
  | none => defaultZone

/-- The position is further outside the grid than the margin. -/
def clipped (g : TileGrid) (pos : Vec2) : Bool :=
  let x := pos.x / tileSize
  let y := pos.y / tileSize
  x < -clipMargin || y < -clipMargin
    || (UInt64.ofNat g.width).toFloat32 + clipMargin < x
    || (UInt64.ofNat g.height).toFloat32 + clipMargin < y

end TileGrid

end Volley
