/-
# Maps as text

A map is drawn in rows of one character a tile: `#` is solid, `*` bounces, `.` is empty,
and a digit from 1 to 9 is an empty tile in that tune zone. All rows are as wide as the
first one. The map is built, without obstacles, before the first row is read.

Key definitions: `TileGrid.cellOfChar`, `TileGrid.ofRows`, `TileGrid.parse`, `GridError`.
-/
import Volley.TileGrid
import Volley.Text.Quoted

namespace Volley

/-- Why rows do not draw a map. -/
inductive GridError where
  /-- A row is not as wide as the first one. -/
  | ragged (row tiles width : Nat)
  /-- No tile has this character. -/
  | unknownTile (c : Char) (x y : Nat)
deriving DecidableEq

/-- The text of an error. -/
def GridError.message : GridError → String
  | ragged row tiles width => s!"row {row} has {tiles} tiles, expected {width}"
  | unknownTile c x y => s!"unknown tile {Text.quoteChar c} at ({x}, {y})"

namespace TileGrid

/-- The tile and the tune zone that a character draws. -/
def cellOfChar (c : Char) : Option (Tile × UInt32) :=
  if c = '.' then some (.empty, defaultZone)
  else if c = '#' then some (.solid, defaultZone)
  else if c = '*' then some (.bounce, defaultZone)
  else if '1' ≤ c && c ≤ '9' then some (.empty, UInt32.ofNat (c.toNat - '0'.toNat))
  else none

/-- The cells of row `y`, from column `x` on. -/
def rowCells (y : Nat) : (x : Nat) → List Char → Except GridError (List (Tile × UInt32))
  | _, [] => .ok []
  | x, c :: rest => do
    let some cell := cellOfChar c | throw (.unknownTile c x y)
    return cell :: (← rowCells y (x + 1) rest)

/-- The cells of the rows from row `y` on, row by row. -/
def allCells (width : Nat) : (y : Nat) → List String → Except GridError (List (Tile × UInt32))
  | _, [] => .ok []
  | y, row :: rest => do
    if row.toList.length ≠ width then throw (.ragged y row.toList.length width)
    let cells ← rowCells y 0 row.toList
    return cells ++ (← allCells width (y + 1) rest)

/-- The map that the given rows draw. -/
def ofRows (rows : List String) : Except GridError TileGrid := do
  let width := (rows.head?.map (·.toList.length)).getD 0
  let cells ← allCells width 0 rows
  return {
    width
    height := rows.length
    tiles := (cells.map (·.1)).toArray
    zones := (cells.map (·.2)).toArray }

/-- How wide the first row is; nothing at all without rows. -/
def firstWidth (rows : List String) : Nat := (rows.head?.map (·.toList.length)).getD 0

/-- Reads the map that the given rows draw, if a map of that size can be built. -/
def parse (rows : List String) : Option (Except GridError TileGrid) := do
  let width ← word? (firstWidth rows)
  let height ← word? rows.length
  let _ ← empty width height
  return ofRows rows

end TileGrid

end Volley
