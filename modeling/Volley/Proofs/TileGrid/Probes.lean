/-
# Where the probes of a sweep lie

The fractions of the way at which a segment is probed grow from zero to one, whatever the
number of intervals (`fraction_mono`). So in each coordinate the probes move in one direction,
that from the start to the end of the segment (`coordinate_mono`, `coordinate_anti`); the first
one is at the start, and the last one at the start plus the rounded difference, which need not
be the end (`coordinate_first`, `coordinate_last`).

Key definitions: `TileGrid.fraction`, `TileGrid.coordinate`.
Key theorems: `TileGrid.probeCount_ne_zero`, `TileGrid.coordinate_mono`,
`TileGrid.coordinate_anti`, `TileGrid.coordinate_first`, `TileGrid.coordinate_last`.
-/
import Volley.Proofs.TileGrid.Sweep

namespace Volley

open Float.Model Float.Model.UnpackedFloat

namespace TileGrid

variable {a b : Vec2} {s t : Scalar} {count : UInt32} {i j : Nat}

/-! ### The number of intervals -/

theorem value_maxProbes : maxProbes.value = 1000000 := by
  rw [Scalar.value_of_digits (m := 16000000) (e := -4) (by decide) rfl]
  norm_num

theorem value_atMost_le (s : Scalar) : (s.atMost maxProbes).value ≤ 1000000 := by
  unfold Scalar.atMost
  split
  · rename_i hless
    rw [Scalar.lt_iff_value, value_maxProbes] at hless
    exact hless.2.2.le
  · exact value_maxProbes.le

/-- The number of intervals does not wrap around. -/
theorem probeCount_ne_zero (a b : Vec2) : probeCount a b ≠ 0 := by
  unfold probeCount
  generalize a.distance b = s
  have hcut := Scalar.toInt_le (n := 1000000) (value_atMost_le s) (by norm_num) (UInt32.size - 1)
  have hle : (s.atMost maxProbes).toUInt32.toNat ≤ 1000000 := by
    show (UInt32.ofNatClamp
      ((s.atMost maxProbes).unpacked.toInt 0 (UInt32.size - 1)).toNat).toNat ≤ _
    rw [UInt32.toNat_ofNatClamp_of_lt (by unfold UInt32.size at hcut ⊢; omega)]
    omega
  intro hzero
  have hwrap := congrArg UInt32.toNat hzero
  rw [UInt32.toNat_add] at hwrap
  have hone : (1 : UInt32).toNat = 1 := rfl
  have hnone : (0 : UInt32).toNat = 0 := rfl
  omega

/-! ### Fractions of the way -/

/-- The fraction of the way at which probe `i` lies. -/
def fraction (count : UInt32) (i : Nat) : Scalar :=
  (UInt32.ofNat i).toFloat32 / count.toFloat32

section

variable (hcount : count ≠ 0)
include hcount

theorem nearest_fraction (i : Nat) :
    Scalar.Nearest (Scalar.value (UInt32.ofNat i).toFloat32 / Scalar.value count.toFloat32)
      (fraction count i) :=
  Scalar.nearest_div (Scalar.isFinite_toFloat32 _) (Scalar.isFinite_toFloat32 _)
    (Scalar.value_toFloat32_pos hcount).ne'

theorem fraction_mono (hij : i ≤ j) (hj : j ≤ count.toNat) :
    fraction count i ≤ fraction count j := by
  have hsize := lt_of_le_of_lt hj count.toNat_lt
  have hi : (UInt32.ofNat i).toNat = i := UInt32.toNat_ofNat_of_lt (lt_of_le_of_lt hij hsize)
  have hj : (UInt32.ofNat j).toNat = j := UInt32.toNat_ofNat_of_lt hsize
  have hle : (UInt32.ofNat i).toFloat32 ≤ (UInt32.ofNat j).toFloat32 := by
    refine (Scalar.nearest_toFloat32 _).mono (Scalar.nearest_toFloat32 _) ?_
    rw [hi, hj]
    exact_mod_cast hij
  refine (nearest_fraction hcount i).mono (nearest_fraction hcount j) ?_
  exact div_le_div_of_nonneg_right (Scalar.le_iff_value.mp hle).2.2
    (Scalar.value_toFloat32_pos hcount).le

theorem value_fraction_zero : (fraction count 0).value = 0 := by
  have hzero : Scalar.value (UInt32.ofNat 0).toFloat32 = 0 := rfl
  have hnear := nearest_fraction hcount 0
  rw [hzero, zero_div] at hnear
  exact hnear.value_eq Scalar.rounds_zero (by norm_num)

theorem value_fraction_last : (fraction count count.toNat).value = 1 := by
  have hnear := nearest_fraction hcount count.toNat
  rw [UInt32.ofNat_toNat, div_self (Scalar.value_toFloat32_pos hcount).ne'] at hnear
  exact hnear.value_eq Scalar.rounds_one (by norm_num)

theorem fraction_bounds (hi : i ≤ count.toNat) :
    0 ≤ (fraction count i).value ∧ (fraction count i).value ≤ 1 := by
  rw [← value_fraction_zero hcount, ← value_fraction_last hcount]
  exact ⟨(Scalar.le_iff_value.mp (fraction_mono hcount (Nat.zero_le i) hi)).2.2,
    (Scalar.le_iff_value.mp (fraction_mono hcount hi le_rfl)).2.2⟩

theorem isFinite_fraction (hi : i ≤ count.toNat) : (fraction count i).isFinite = true := by
  obtain ⟨hlow, hhigh⟩ := fraction_bounds hcount hi
  rw [Scalar.isFinite_iff_value (nearest_fraction hcount i).number, abs_of_nonneg hlow]
  exact lt_of_le_of_lt hhigh (by norm_num)

/-- No fraction is moved by the clamp. -/
theorem clampUnit_fraction (hi : i ≤ count.toNat) :
    (fraction count i).clampUnit = fraction count i := by
  obtain ⟨hlow, hhigh⟩ := fraction_bounds hcount hi
  have hzero : ¬fraction count i < 0.0 := by
    rw [Scalar.lt_iff_value, Scalar.value_zero]
    exact fun h => absurd h.2.2 (not_lt.mpr hlow)
  have hone : ¬1.0 < fraction count i := by
    rw [Scalar.lt_iff_value, Scalar.value_one]
    exact fun h => absurd h.2.2 (not_lt.mpr hhigh)
  simp only [Scalar.clampUnit, if_neg hzero, if_neg hone]

end

/-! ### Coordinates of probes -/

/-- One coordinate of probe `i` on the way from `s` to `t`. -/
def coordinate (s t : Scalar) (count : UInt32) (i : Nat) : Scalar :=
  s + (t - s) * (fraction count i).clampUnit

theorem probe_eq (a b : Vec2) (count : UInt32) (i : Nat) :
    probe a b count i = ⟨coordinate a.x b.x count i, coordinate a.y b.y count i⟩ := rfl

section

variable (hcount : count ≠ 0)
include hcount

/-- The first probe is at the start. -/
theorem coordinate_first (hs : s.isFinite = true) (hd : (t - s).isFinite = true) :
    (coordinate s t count 0).isFinite = true ∧ (coordinate s t count 0).value = s.value := by
  have hway := Scalar.nearest_mul hd (isFinite_fraction hcount (Nat.zero_le _))
  rw [value_fraction_zero hcount, mul_zero] at hway
  have hsum := Scalar.nearest_add hs (hway.isFinite (by norm_num))
  rw [hway.value_eq Scalar.rounds_zero (by norm_num), add_zero] at hsum
  unfold coordinate
  rw [clampUnit_fraction hcount (Nat.zero_le _)]
  exact hsum.congr (Scalar.nearest_self hs) hs

/-- The last probe is at the start plus the difference, each rounded. -/
theorem coordinate_last (hs : s.isFinite = true) (hd : (t - s).isFinite = true)
    (he : (s + (t - s)).isFinite = true) :
    (coordinate s t count count.toNat).isFinite = true ∧
      (coordinate s t count count.toNat).value = (s + (t - s)).value := by
  have hway := Scalar.nearest_mul hd (isFinite_fraction hcount le_rfl)
  rw [value_fraction_last hcount, mul_one] at hway
  obtain ⟨hfinite, hvalue⟩ := hway.congr (Scalar.nearest_self hd) hd
  have hsum := Scalar.nearest_add hs hfinite
  rw [hvalue] at hsum
  unfold coordinate
  rw [clampUnit_fraction hcount le_rfl]
  exact hsum.congr (Scalar.nearest_add hs hd) he

/-- If the first probe is a number, it is at the start even where the start is infinite. -/
theorem value_coordinate_first (h : (coordinate s t count 0).isNaN = false) :
    (coordinate s t count 0).value = s.value := by
  have hfraction : Scalar.IsZero (fraction count 0) :=
    ⟨isFinite_fraction hcount (Nat.zero_le _), value_fraction_zero hcount⟩
  unfold coordinate at h ⊢
  rw [clampUnit_fraction hcount (Nat.zero_le _)] at h ⊢
  exact Scalar.value_add_zero (Scalar.isZero_mul (Or.inr hfraction) (Scalar.numbers_of_add h).2) h

/-- Probes do not go back where the end is not below the start. -/
theorem coordinate_mono (hst : s ≤ t) (hij : i ≤ j) (hj : j ≤ count.toNat)
    (hi' : (coordinate s t count i).isNaN = false) (hj' : (coordinate s t count j).isNaN = false) :
    coordinate s t count i ≤ coordinate s t count j := by
  unfold coordinate at hi' hj' ⊢
  rw [clampUnit_fraction hcount hj] at hj' ⊢
  rw [clampUnit_fraction hcount (hij.trans hj)] at hi' ⊢
  obtain ⟨hs, hway⟩ := Scalar.numbers_of_add hi'
  obtain ⟨-, hway'⟩ := Scalar.numbers_of_add hj'
  have hd := Scalar.value_sub_nonneg hst (Scalar.numbers_of_mul hway).1
  refine Scalar.sum_mono (Scalar.le_iff_value.mpr ⟨hs, hs, le_rfl⟩) ?_ hi' hj'
  exact Scalar.product_mono_of_nonneg hd (fraction_mono hcount hij hj) hway hway'

/-- Nor do they go forward where it is not above the start. -/
theorem coordinate_anti (hst : t ≤ s) (hij : i ≤ j) (hj : j ≤ count.toNat)
    (hi' : (coordinate s t count i).isNaN = false) (hj' : (coordinate s t count j).isNaN = false) :
    coordinate s t count j ≤ coordinate s t count i := by
  unfold coordinate at hi' hj' ⊢
  rw [clampUnit_fraction hcount hj] at hj' ⊢
  rw [clampUnit_fraction hcount (hij.trans hj)] at hi' ⊢
  obtain ⟨hs, hway⟩ := Scalar.numbers_of_add hi'
  obtain ⟨-, hway'⟩ := Scalar.numbers_of_add hj'
  have hd := Scalar.value_sub_nonpos hst (Scalar.numbers_of_mul hway).1
  refine Scalar.sum_mono (Scalar.le_iff_value.mpr ⟨hs, hs, le_rfl⟩) ?_ hj' hi'
  exact Scalar.product_anti_of_nonpos hd (fraction_mono hcount hij hj) hway' hway

end

end TileGrid
end Volley
