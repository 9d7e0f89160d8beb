/-
# Where a hit is finite

The columns and rows of a map are counted in machine words, so no tile lies at infinity
(`isFinite_of_blocks`). A probe between two ends whose difference is finite is a number, so it is
finite if it lies in an obstacle; and the point that was tried before is between the start and
that probe. If the difference is not finite, no probe is. The first one is not a number then, and
what is not a number counts as zero when its column and row are looked up, so it can lie in an
obstacle all the same. Hence a hit is at a finite point exactly if the difference is finite
(`firstHit_finite`).

Key theorems: `TileGrid.isFinite_of_blocks`, `TileGrid.isFinite_of_coordinate`,
`TileGrid.firstHit_finite`.
-/
import Volley.Proofs.Scalar.Bounds
import Volley.Proofs.TileGrid.Facing

namespace Volley

open Float.Model Float.Model.UnpackedFloat

namespace TileGrid

/-! ### No tile lies at infinity -/

theorem cellCoord_of_infinite {x : Scalar} {s : Sign} (h : x.unpacked = .infinity s) :
    cellCoord x < 0 ∨ cellCoord x = 2 ^ 64 - 1 := by
  show Scalar.floor (.ofModel (.pack (.div .binary32 x.unpacked tileSize.unpacked))) < 0 ∨
    Scalar.floor (.ofModel (.pack (.div .binary32 x.unpacked tileSize.unpacked))) = 2 ^ 64 - 1
  rw [h]
  cases s <;> decide +kernel

theorem isFinite_of_cellCoord {x : Scalar} (hx : x.isNaN = false) {n : Nat} (hn : n < 2 ^ 64)
    (hlow : 0 ≤ cellCoord x) (hhigh : cellCoord x < n) : x.isFinite = true := by
  by_contra hinfinite
  obtain ⟨s, hs⟩ := Scalar.unpacked_of_not_isFinite hx hinfinite
  rcases cellCoord_of_infinite hs with hneg | hlast <;> omega

/-- What lies in an obstacle is finite, if it is a number. -/
theorem isFinite_of_blocks {g : TileGrid} (fits : g.Addressable) {pos : Vec2}
    (hx : pos.x.isNaN = false) (hy : pos.y.isNaN = false)
    (hblocks : (g.tileAt pos).blocks = true) : pos.isFinite = true := by
  unfold tileAt index? cellIndex? at hblocks
  by_cases hinside : 0 ≤ (cell pos).1 ∧ 0 ≤ (cell pos).2 ∧ (cell pos).1 < g.width ∧
      (cell pos).2 < g.height
  · obtain ⟨hcolumn, hrow, hcolumn', hrow'⟩ := hinside
    exact Vec2.isFinite_iff.mpr ⟨isFinite_of_cellCoord hx fits.width hcolumn hcolumn',
      isFinite_of_cellCoord hy fits.height hrow hrow'⟩
  · rw [if_neg hinside] at hblocks
    cases hblocks

/-! ### Probes between two ends -/

section

variable {s t : Scalar} {count : UInt32} {k : Nat}

/-- A finite probe has a finite difference of the ends. -/
theorem isFinite_of_coordinate (h : (coordinate s t count k).isFinite = true) :
    (t - s).isFinite = true :=
  (Scalar.isFinite_of_mul (Scalar.isFinite_of_add h).2).1

/-- If the difference of the ends is finite, every probe is a number. -/
theorem isNaN_coordinate (hcount : count ≠ 0) (hk : k ≤ count.toNat)
    (hd : (t - s).isFinite = true) : (coordinate s t count k).isNaN = false := by
  obtain ⟨hlow, hhigh⟩ := fraction_bounds hcount hk
  have hway := Scalar.nearest_mul hd (isFinite_fraction hcount hk)
  have hshort : |(t - s).value * (fraction count k).value| ≤ |(t - s).value| := by
    rw [abs_mul, abs_of_nonneg hlow]
    exact mul_le_of_le_one_right (abs_nonneg _) hhigh
  have hpart : ((t - s) * fraction count k).isFinite = true :=
    Scalar.isFinite_of_abs_le hway.number hd
      (hway.abs_value_le (Scalar.rounds_abs_value hd) hshort)
  unfold coordinate
  rw [clampUnit_fraction hcount hk]
  exact (Scalar.nearest_add (Scalar.isFinite_of_sub hd).2 hpart).number

/-- The point that was tried before a finite probe is finite. -/
theorem isFinite_lastCoordinate (hcount : count ≠ 0) (hk : k ≤ count.toNat)
    (h : (coordinate s t count k).isFinite = true) :
    (lastCoordinate s t count k).isFinite = true := by
  have hd := isFinite_of_coordinate h
  obtain ⟨ht, hs⟩ := Scalar.isFinite_of_sub hd
  cases k with
  | zero => exact hs
  | succ k =>
    obtain ⟨hfirst, -⟩ := coordinate_first hcount hs hd
    have hnumber := Scalar.isNaN_of_isFinite hfirst
    have hnumber' := isNaN_coordinate hcount (Nat.le_of_succ_le hk) hd
    have hnumber'' := Scalar.isNaN_of_isFinite h
    show (coordinate s t count k).isFinite = true
    rcases le_total s.value t.value with hle | hle
    · have hst : s ≤ t :=
        Scalar.le_iff_value.mpr ⟨Scalar.isNaN_of_isFinite hs, Scalar.isNaN_of_isFinite ht, hle⟩
      exact Scalar.isFinite_of_between hfirst h
        (coordinate_mono hcount hst (Nat.zero_le k) (Nat.le_of_succ_le hk) hnumber hnumber')
        (coordinate_mono hcount hst (Nat.le_succ k) hk hnumber' hnumber'')
    · have hts : t ≤ s :=
        Scalar.le_iff_value.mpr ⟨Scalar.isNaN_of_isFinite ht, Scalar.isNaN_of_isFinite hs, hle⟩
      exact Scalar.isFinite_of_between h hfirst
        (coordinate_anti hcount hts (Nat.le_succ k) hk hnumber' hnumber'')
        (coordinate_anti hcount hts (Nat.zero_le k) (Nat.le_of_succ_le hk) hnumber hnumber')

end

/-- **Where a hit is finite.** On a map whose sizes fit machine words, the point of a hit is
finite exactly if the difference of the ends of the segment is. Then the last free point before
it is finite too. -/
theorem firstHit_finite {g : TileGrid} (fits : g.Addressable) {a b : Vec2} {hit : SegmentHit}
    (h : g.firstHit a b = some hit) :
    (hit.point.isFinite = true ↔ (b - a).isFinite = true) ∧
      ((b - a).isFinite = true → hit.before.isFinite = true) := by
  obtain ⟨k, hk, -, hblocks, rfl⟩ := firstHit_eq_some h
  have hcount := probeCount_ne_zero a b
  have hpoint : (probe a b (probeCount a b) k).isFinite = true ↔ (b - a).isFinite = true := by
    rw [probe_eq] at hblocks ⊢
    constructor
    · intro hfinite
      obtain ⟨hx, hy⟩ := Vec2.isFinite_iff.mp hfinite
      exact Vec2.isFinite_iff.mpr ⟨isFinite_of_coordinate hx, isFinite_of_coordinate hy⟩
    · intro hd
      obtain ⟨hx, hy⟩ := Vec2.isFinite_iff.mp hd
      exact isFinite_of_blocks fits (isNaN_coordinate hcount hk hx) (isNaN_coordinate hcount hk hy)
        hblocks
  refine ⟨hpoint, fun hd => ?_⟩
  have hfinite := hpoint.mpr hd
  rw [probe_eq] at hfinite
  obtain ⟨hx, hy⟩ := Vec2.isFinite_iff.mp hfinite
  show (lastFree a b (probeCount a b) k).isFinite = true
  rw [lastFree_eq]
  exact Vec2.isFinite_iff.mpr
    ⟨isFinite_lastCoordinate hcount hk hx, isFinite_lastCoordinate hcount hk hy⟩

end TileGrid
end Volley
