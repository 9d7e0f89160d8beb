/-
# The cell of a position

The column or row of a coordinate is decided by its value alone (`cellCoord_congr`), whatever
the sign of a zero. A coordinate that is not too close to zero loses nothing in the division
by the side of a tile, so its cell is the integer part of the exact quotient
(`cellCoord_eq_floor`).

Key definitions: `TileGrid.Addressable`.
Key theorems: `TileGrid.cellCoord_congr`, `Scalar.floor_eq`, `TileGrid.cellCoord_eq_floor`.
-/
import Volley.Proofs.Scalar.Signs
import Volley.TileGrid

namespace Volley

open Float.Model Float.Model.UnpackedFloat

namespace Scalar

variable {x : Scalar} {a : UnpackedFloat} {m : Nat} {e : Int}

/-! ### The integer part -/

theorem roundToInt_eq (m : Nat) (e : Int) :
    roundToInt .positive m e = (m <<< e.toNat / 2 ^ (-e).toNat : ℕ) := by
  have hleft : (e - 0).toNat = e.toNat := by omega
  have hright : (0 - (e - e.toNat)).toNat = (-e).toNat := by omega
  unfold roundToInt decreaseExponent shiftToExponent
  simp only [hleft, hright, mantissa_shiftRight, mantissa_ofMantissaAndAccuracy]
  rfl

/-- Dropping the digits behind the point gives the integer part of a magnitude. -/
theorem roundToInt_eq_floor (m : Nat) (e : Int) :
    roundToInt .positive m e = ⌊(m * 2 ^ e : ℚ)⌋ := by
  have hscale : (m * 2 ^ e : ℚ) = (m <<< e.toNat : ℕ) / (2 ^ (-e).toNat : ℕ) := by
    have hsplit : (2 : ℚ) ^ e.toNat = 2 ^ e * 2 ^ (-e).toNat := by
      rw [← zpow_natCast, ← zpow_natCast, ← two_zpow_add]
      congr 1
      omega
    rw [Nat.shiftLeft_eq, eq_div_iff (by positivity)]
    push_cast
    rw [hsplit, mul_assoc]
  rw [roundToInt_eq, hscale, Rat.floor_natCast_div_natCast]
  exact Int.natCast_div _ _

/-- A number that is not negative is cut to its integer part. -/
theorem toInt_eq_floor {low high : Int} (h : a.isFinite = true) (hpos : 0 ≤ rational a) :
    a.toInt low high = ⌊rational a⌋ := by
  cases a with
  | notANumber | infinity => cases h
  | zero => exact Int.floor_zero.symm
  | finite s m e hm =>
    cases s with
    | negative =>
      rw [rational_negative] at hpos
      linarith [magnitude_pos hm e]
    | positive => exact roundToInt_eq_floor m e

/-- What is cut to an integer that is not negative does not grow. -/
theorem toInt_le {n : Nat} (h : rational a ≤ n) (hn : (n : ℚ) < 2 ^ 128) (high : Int) :
    a.toInt 0 high ≤ n := by
  cases a with
  | notANumber => exact Int.natCast_nonneg n
  | infinity s =>
    cases s with
    | negative => exact Int.natCast_nonneg n
    | positive =>
      rw [rational_infinity_positive] at h
      exact absurd hn (not_lt.mpr h)
  | zero => exact Int.natCast_nonneg n
  | finite s m e hm =>
    cases s with
    | negative =>
      have hmag : (UnpackedFloat.finite .negative m e hm).toInt 0 high =
        -roundToInt .positive m e := rfl
      rw [hmag, roundToInt_eq]
      generalize m <<< e.toNat / 2 ^ (-e).toNat = k
      omega
    | positive =>
      rw [toInt_eq_floor rfl (by rw [rational_positive]; exact (magnitude_pos hm e).le)]
      exact_mod_cast le_trans (Int.floor_le _) h

theorem toNat_toUInt64 (hx : x.isFinite = true) (hpos : 0 ≤ x.value) (hlt : x.value < 2 ^ 24) :
    (x.toUInt64.toNat : ℤ) = ⌊x.value⌋ := by
  have hcut : x.unpacked.toInt 0 (UInt64.size - 1) = ⌊x.value⌋ := toInt_eq_floor hx hpos
  have hfloor : 0 ≤ ⌊x.value⌋ := Int.floor_nonneg.mpr hpos
  have hfloor' : ⌊x.value⌋ < 2 ^ 24 := Int.floor_lt.mpr (by exact_mod_cast hlt)
  show ((UInt64.ofNatClamp (x.unpacked.toInt 0 (UInt64.size - 1)).toNat).toNat : ℤ) = _
  rw [hcut, UInt64.toNat_ofNatClamp_of_lt (by unfold UInt64.size; omega)]
  omega

/-- An integer of at most 24 digits is converted without rounding. -/
theorem value_toFloat32_of_lt {n : UInt64} (h : (n.toNat : ℚ) < 2 ^ 24) :
    value n.toFloat32 = n.toNat := by
  refine (nearest_toFloat32_of_uint64 n).value_eq ?_ ?_
  · have hself := rounds_self (n := n.toNat) (e := 0)
      (by rw [Nat.abs_cast]; exact_mod_cast h) (by norm_num)
    rwa [zpow_zero, mul_one, Int.cast_natCast] at hself
  · rw [Nat.abs_cast]
    linarith

theorem floor_of_neg (hx : x.isFinite = true) (hneg : x.value < 0) (hlow : -2 ^ 23 < x.value) :
    x.floor = ⌊x.value⌋ := by
  have hnumber := isNaN_of_isFinite hx
  have hvalue := value_neg x
  have hless : x < 0.0 := lt_iff_value.mpr ⟨hnumber, rfl, by rwa [value_zero]⟩
  have hwhole := toNat_toUInt64 ((isFinite_neg x).trans hx) (by linarith) (by linarith)
  unfold floor
  rw [if_pos hless]
  simp only
  generalize (-x).toUInt64 = n at hwhole
  have hle : (n.toNat : ℚ) ≤ (-x).value := by
    rw [← Int.cast_natCast, hwhole]
    exact Int.floor_le _
  have hlt : (-x).value < n.toNat + 1 := by
    rw [← Int.cast_natCast, hwhole]
    exact Int.lt_floor_add_one _
  have hexact := value_toFloat32_of_lt (n := n) (by linarith)
  have hcompare : n.toFloat32 < -x ↔ (n.toNat : ℚ) < -x.value := by
    rw [lt_iff_value, hexact, hvalue]
    exact ⟨fun h => h.2.2, fun h =>
      ⟨(nearest_toFloat32_of_uint64 n).number, (isNaN_neg x).trans hnumber, h⟩⟩
  by_cases hfrac : n.toFloat32 < -x
  · rw [if_pos hfrac, eq_comm, Int.floor_eq_iff]
    rw [hcompare] at hfrac
    push_cast
    constructor <;> linarith
  · rw [if_neg hfrac, eq_comm, Int.floor_eq_iff]
    rw [hcompare] at hfrac
    push_cast
    constructor <;> linarith

/-- The integer below a number of moderate size. -/
theorem floor_eq (hx : x.isFinite = true) (h : |x.value| < 2 ^ 23) : x.floor = ⌊x.value⌋ := by
  obtain ⟨hlow, hhigh⟩ := abs_lt.mp h
  by_cases hneg : x.value < 0
  · exact floor_of_neg hx hneg hlow
  · have hnot : ¬x < 0.0 := by
      rw [lt_iff_value, value_zero]
      exact fun hless => hneg hless.2.2
    unfold floor
    rw [if_neg hnot]
    exact toNat_toUInt64 hx (not_lt.mp hneg) (by linarith)

end Scalar

namespace TileGrid

/-- The columns and rows of a map are counted in machine words. -/
structure Addressable (g : TileGrid) : Prop where
  width : g.width < 2 ^ 64
  height : g.height < 2 ^ 64

instance (g : TileGrid) : Decidable g.Addressable :=
  decidable_of_iff (g.width < 2 ^ 64 ∧ g.height < 2 ^ 64)
    ⟨fun ⟨width, height⟩ => ⟨width, height⟩, fun ⟨width, height⟩ => ⟨width, height⟩⟩

variable {x y : Scalar}

theorem cellCoord_of_zero {s : Sign} (h : x.unpacked = .zero s) : cellCoord x = 0 := by
  show Scalar.floor (.ofModel (.pack (.div .binary32 x.unpacked tileSize.unpacked))) = 0
  rw [h]
  cases s <;> decide +kernel

/-- Numbers of the same value lie in the same column or row. -/
theorem cellCoord_congr (hx : x.isFinite = true) (hy : y.isFinite = true)
    (h : x.value = y.value) : cellCoord x = cellCoord y := by
  rcases Scalar.unpacked_of_value hx hy h with heq | ⟨s, t, hs, ht⟩
  · show Scalar.floor (.ofModel (.pack (.div .binary32 x.unpacked tileSize.unpacked))) =
      Scalar.floor (.ofModel (.pack (.div .binary32 y.unpacked tileSize.unpacked)))
    rw [heq]
  · rw [cellCoord_of_zero hs, cellCoord_of_zero ht]

theorem value_tileSize : tileSize.value = 32 := by
  rw [Scalar.value_of_digits (m := 2 ^ 23) (e := -18) (by decide) rfl]
  norm_num

/-- A coordinate that is neither tiny nor huge lies in the cell of the exact quotient. -/
theorem cellCoord_eq_floor (hx : x.isFinite = true) (hlow : 2 ^ (-20 : ℤ) ≤ |x.value|)
    (hhigh : |x.value| < 2 ^ 28) : cellCoord x = ⌊x.value / 32⌋ := by
  have hquot := Scalar.nearest_div (y := tileSize) hx rfl (by rw [value_tileSize]; norm_num)
  rw [value_tileSize] at hquot
  have habs : |x.value / 32| = |x.value| / 32 := by
    rw [abs_div, abs_of_pos (by norm_num : (0 : ℚ) < 32)]
  have hself : Scalar.Rounds (x.value / 32) (x.value / 32) := by
    obtain ⟨n, e, hn, -, hvalue⟩ := Scalar.exists_digits hx
    have he : -149 ≤ e - 5 := by
      have hshort : |x.value| < 2 ^ (24 + e) := by
        rw [hvalue, abs_mul, abs_of_pos (Scalar.two_zpow_pos e), Scalar.two_zpow_add]
        exact mul_lt_mul_of_pos_right (by exact_mod_cast hn) (Scalar.two_zpow_pos e)
      have hlt := (zpow_lt_zpow_iff_right₀ (by norm_num)).mp (lt_of_le_of_lt hlow hshort)
      omega
    have hdigits := Scalar.rounds_self hn he
    have hshift : (n * 2 ^ (e - 5) : ℚ) = x.value / 32 := by
      have hside : (2 : ℚ) ^ (-5 : ℤ) = 1 / 32 := by norm_num
      rw [hvalue, sub_eq_add_neg, Scalar.two_zpow_add, hside]
      ring
    rwa [hshift] at hdigits
  have hvalue := hquot.value_eq hself (by rw [habs]; linarith)
  have hfinite := hquot.isFinite (by rw [habs]; linarith)
  unfold cellCoord
  rw [Scalar.floor_eq hfinite (by rw [hvalue, habs]; linarith), hvalue]

end TileGrid
end Volley
