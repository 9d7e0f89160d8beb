/-
# The places of the cells

A cell of the grid has a place in the stored arrays, the one in column `x` and row `y` the place
`y * width + x`. Different cells have different places (`cellIndex?_inj`), and the places are all
numbers below that of the cells (`exists_cellIndex?_iff`).

An array has fewer than `2 ^ 63` entries. In a grid with no more cells than that, the number of
cells and the places are computed in machine words without overflow (`toNat_count`,
`toNat_placeWord`), and the columns and rows that do not fit into the words are all outside. So a
position has the same place in words, whatever it is (`indexWord?_eq`).

Key definitions: `TileGrid.Holds`, `TileGrid.placeWord`, `TileGrid.indexWord?`.
Key theorems: `TileGrid.cellIndex?_inj`, `TileGrid.exists_cellIndex?_iff`,
`TileGrid.toNat_placeWord`, `TileGrid.indexWord?_eq`.
-/
import Volley.Proofs.TileGrid.Words

namespace Volley
namespace TileGrid

variable {g : TileGrid} {c c' : Int × Int} {x y i : Nat}

/-! ### Places -/

/-- The cell belongs to the grid. -/
def Holds (g : TileGrid) (c : Int × Int) : Prop :=
  0 ≤ c.1 ∧ 0 ≤ c.2 ∧ c.1 < g.width ∧ c.2 < g.height

instance (g : TileGrid) (c : Int × Int) : Decidable (g.Holds c) :=
  inferInstanceAs (Decidable (_ ∧ _))

theorem holds_cell_iff {pos : Vec2} :
    g.Holds (cell pos) ↔ 0 ≤ cellCoord pos.x ∧ 0 ≤ cellCoord pos.y ∧
      cellCoord pos.x < g.width ∧ cellCoord pos.y < g.height :=
  Iff.rfl

@[simp] theorem holds_natCast_iff : g.Holds (↑x, ↑y) ↔ x < g.width ∧ y < g.height := by
  unfold Holds
  simp only
  omega

theorem place_lt {width height : Nat} (hx : x < width) (hy : y < height) :
    y * width + x < width * height := by
  calc y * width + x
      < y * width + width := Nat.add_lt_add_left hx _
    _ = (y + 1) * width := (Nat.succ_mul y width).symm
    _ ≤ height * width := Nat.mul_le_mul_right _ hy
    _ = width * height := Nat.mul_comm _ _

/-- A place in row order belongs to one row and one column. -/
theorem place_inj {width x' y' : Nat} (hx : x < width) (hx' : x' < width)
    (h : y * width + x = y' * width + x') : x = x' ∧ y = y' := by
  have hcolumn := congrArg (· % width) h
  simp only [Nat.mul_add_mod_of_lt hx, Nat.mul_add_mod_of_lt hx'] at hcolumn
  subst hcolumn
  exact ⟨rfl, Nat.eq_of_mul_eq_mul_right (Nat.zero_lt_of_lt hx) (Nat.add_right_cancel h)⟩

/-- What the place of a cell is. -/
theorem cellIndex?_eq_some_iff :
    g.cellIndex? c = some i ↔
      ∃ x y : Nat, c = (↑x, ↑y) ∧ x < g.width ∧ y < g.height ∧ y * g.width + x = i := by
  unfold cellIndex?
  constructor
  · intro h
    split_ifs at h with hinside
    cases h
    have hcell : c = (↑c.1.toNat, ↑c.2.toNat) :=
      Prod.ext (Int.toNat_of_nonneg hinside.1).symm (Int.toNat_of_nonneg hinside.2.1).symm
    exact ⟨c.1.toNat, c.2.toNat, hcell, by omega, by omega, rfl⟩
  · rintro ⟨x, y, rfl, hx, hy, rfl⟩
    rw [if_pos (by simp only; omega)]
    rfl

theorem cellIndex?_of_holds (h : g.Holds c) :
    g.cellIndex? c = some (c.2.toNat * g.width + c.1.toNat) :=
  if_pos h

theorem cellIndex?_eq_none_iff : g.cellIndex? c = none ↔ ¬g.Holds c := by
  unfold cellIndex? Holds
  simp

theorem holds_of_cellIndex? (h : g.cellIndex? c = some i) : g.Holds c := by
  by_contra hout
  rw [cellIndex?_eq_none_iff.mpr hout] at h
  cases h

/-- Different cells have different places. -/
theorem cellIndex?_inj (h : g.cellIndex? c = some i) (h' : g.cellIndex? c' = some i) :
    c = c' := by
  obtain ⟨x, y, rfl, hx, hy, rfl⟩ := cellIndex?_eq_some_iff.mp h
  obtain ⟨x', y', rfl, hx', hy', hplace⟩ := cellIndex?_eq_some_iff.mp h'
  obtain ⟨rfl, rfl⟩ := place_inj hx' hx hplace
  rfl

/-- The places are all numbers below that of the tiles. -/
theorem exists_cellIndex?_iff : (∃ c, g.cellIndex? c = some i) ↔ i < g.width * g.height := by
  constructor
  · rintro ⟨c, h⟩
    obtain ⟨x, y, -, hx, hy, rfl⟩ := cellIndex?_eq_some_iff.mp h
    exact place_lt hx hy
  · intro h
    have hpos : 0 < g.width := Nat.pos_of_mul_pos_right (Nat.zero_lt_of_lt h)
    exact ⟨(↑(i % g.width), ↑(i / g.width)), cellIndex?_eq_some_iff.mpr
      ⟨_, _, rfl, Nat.mod_lt i hpos, Nat.div_lt_of_lt_mul h, Nat.div_add_mod' i g.width⟩⟩

/-! ### Places in words -/

/-- The place of a column and row, computed in words. -/
def placeWord (width x y : UInt64) : UInt64 := y * width + x

/-- The place in the stored arrays of the tile at a position, computed in words. -/
def indexWord? (width height : UInt64) (pos : Vec2) : Option UInt64 :=
  let x := cellWord pos.x
  let y := cellWord pos.y
  if 0 ≤ x ∧ 0 ≤ y ∧ x.toUInt64 < width ∧ y.toUInt64 < height then
    some (placeWord width x.toUInt64 y.toUInt64)
  else none

section

variable {pos : Vec2} (fits : g.width * g.height < 2 ^ 63)

include fits

theorem sides_lt (hwidth : 0 < g.width) (hheight : 0 < g.height) :
    g.width < 2 ^ 63 ∧ g.height < 2 ^ 63 :=
  ⟨lt_of_le_of_lt (Nat.le_mul_of_pos_right _ hheight) fits,
    lt_of_le_of_lt (Nat.le_mul_of_pos_left _ hwidth) fits⟩

/-- The number of tiles does not overflow. -/
theorem toNat_count :
    (UInt64.ofNat g.width * UInt64.ofNat g.height).toNat = g.width * g.height := by
  rw [UInt64.toNat_mul, UInt64.toNat_ofNat', UInt64.toNat_ofNat', ← Nat.mul_mod,
    Nat.mod_eq_of_lt (lt_trans fits (by decide))]

/-- No place overflows. -/
theorem toNat_placeWord {x y : UInt64} (hx : x.toNat < g.width) (hy : y.toNat < g.height) :
    (placeWord (.ofNat g.width) x y).toNat = y.toNat * g.width + x.toNat := by
  have hplace := place_lt hx hy
  obtain ⟨hwidth, -⟩ := sides_lt fits (Nat.zero_lt_of_lt hx) (Nat.zero_lt_of_lt hy)
  have hrow : y.toNat * g.width < 2 ^ 64 := by omega
  unfold placeWord
  rw [UInt64.toNat_add, UInt64.toNat_mul, UInt64.toNat_ofNat_of_lt' (lt_trans hwidth (by decide)),
    Nat.mod_eq_of_lt hrow, Nat.mod_eq_of_lt (by omega)]

/-- The columns and rows of the grid do not reach the end of the words. -/
theorem toNat_of_holds (h : g.Holds (cell pos)) :
    (cellWord pos.x).toUInt64.toNat = (cellCoord pos.x).toNat ∧
      (cellWord pos.y).toUInt64.toNat = (cellCoord pos.y).toNat := by
  obtain ⟨hx, hy, hx', hy'⟩ := holds_cell_iff.mp h
  have hcolumn := toNat_cellWord hx
  have hrow := toNat_cellWord hy
  obtain ⟨hwidth, hheight⟩ := sides_lt fits (by omega) (by omega)
  omega

/-- A position is in the grid just if it is so in words: moving a column or row to the end of the
words does not move it into the grid. -/
theorem holds_iff_words (pos : Vec2) :
    g.Holds (cell pos) ↔ 0 ≤ cellWord pos.x ∧ 0 ≤ cellWord pos.y ∧
      (cellWord pos.x).toUInt64 < .ofNat g.width ∧
      (cellWord pos.y).toUInt64 < .ofNat g.height := by
  rw [← Int64.not_lt, ← Int64.not_lt, cellWord_neg_iff, cellWord_neg_iff, Int.not_lt, Int.not_lt,
    UInt64.lt_iff_toNat_lt, UInt64.lt_iff_toNat_lt, UInt64.toNat_ofNat', UInt64.toNat_ofNat']
  constructor
  · intro h
    obtain ⟨hcolumn, hrow⟩ := toNat_of_holds fits h
    obtain ⟨hx, hy, hx', hy'⟩ := holds_cell_iff.mp h
    obtain ⟨hwidth, hheight⟩ := sides_lt fits (by omega) (by omega)
    omega
  · rintro ⟨hx, hy, hx', hy'⟩
    have hcolumn := toNat_cellWord hx
    have hrow := toNat_cellWord hy
    -- A side that is cut to a word is not longer than the side, so neither of them is empty.
    have hwidth := lt_of_lt_of_le hx' (Nat.mod_le g.width _)
    have hheight := lt_of_lt_of_le hy' (Nat.mod_le g.height _)
    obtain ⟨hwidth', hheight'⟩ :=
      sides_lt fits (Nat.zero_lt_of_lt hwidth) (Nat.zero_lt_of_lt hheight)
    exact holds_cell_iff.mpr (by omega)

/-- The place of a position is the same in words. -/
theorem indexWord?_eq (pos : Vec2) :
    (indexWord? (.ofNat g.width) (.ofNat g.height) pos).map UInt64.toNat = g.index? pos := by
  unfold indexWord? index?
  simp only [← holds_iff_words fits]
  by_cases h : g.Holds (cell pos)
  · obtain ⟨hcolumn, hrow⟩ := toNat_of_holds fits h
    obtain ⟨hx, hy, hx', hy'⟩ := holds_cell_iff.mp h
    rw [if_pos h, cellIndex?_of_holds h, Option.map_some,
      toNat_placeWord fits (by omega) (by omega), hcolumn, hrow]
    rfl
  · rw [if_neg h, cellIndex?_eq_none_iff.mpr h, Option.map_none]

end

end TileGrid
end Volley
