/-
# Columns and rows as machine words

A column or row is the coordinate in tiles, rounded down and moved into the range of the signed
64-bit words: what is not a number is in column 0, and what is infinite in the first or the last
one (`cellWord`). `cellCoord` counts columns and rows beyond that range, up to the end of the
unsigned words. Rounding down is exact as far as it counts (`Scalar.floor_eq_of_high`,
`Scalar.floor_of_nonneg`), so inside the range of the signed words the two are the same
(`toInt_cellWord`).

Key definitions: `TileGrid.cellWord`.
Key theorems: `Scalar.ofIntClamp_floor`, `TileGrid.toInt_cellWord`.
-/
import Volley.Proofs.Scalar.Bounds
import Volley.Proofs.TileGrid.Cells

namespace Volley

open Float.Model Float.Model.UnpackedFloat

/-! ### Saturation -/

theorem toNat_ofNatClamp (n : Nat) : (UInt64.ofNatClamp n).toNat = min n (2 ^ 64 - 1) := by
  have hsize : UInt64.size = 2 ^ 64 := rfl
  by_cases h : n < UInt64.size
  · rw [UInt64.toNat_ofNatClamp_of_lt h]
    omega
  · rw [UInt64.toNat_ofNatClamp_of_le (Nat.le_of_not_lt h)]
    omega

theorem toInt_ofIntClamp (n : Int) :
    (Int64.ofIntClamp n).toInt = max (-2 ^ 63) (min n (2 ^ 63 - 1)) := by
  have hmin : Int64.minValue.toInt = -2 ^ 63 := by decide
  have hmax : Int64.maxValue.toInt = 2 ^ 63 - 1 := by decide
  unfold Int64.ofIntClamp
  split_ifs with hlow hhigh
  · rw [Int64.toInt_ofIntLE]
    omega
  · omega
  · omega

namespace Scalar

variable {x : Scalar} {a : UnpackedFloat}

/-! ### Rounding down, all over the range -/

theorem min_toInt_eq (hpos : 0 ≤ rational a) :
    min (a.toInt 0 (2 ^ 64 - 1)) (2 ^ 64 - 1) = min ⌊rational a⌋ (2 ^ 64 - 1) := by
  cases a with
  | notANumber => rfl
  | infinity s =>
    cases s with
    | negative =>
      rw [rational_infinity_negative] at hpos
      norm_num at hpos
    | positive =>
      have hend : ⌊(2 ^ 128 : ℚ)⌋ = 2 ^ 128 := by exact_mod_cast Int.floor_natCast (2 ^ 128)
      rw [rational_infinity_positive, hend]
      rfl
  | zero | finite => rw [toInt_eq_floor rfl hpos]

/-- What is not negative is cut to its integer part, up to the end of the unsigned words. -/
theorem toNat_toUInt64_eq_min (hpos : 0 ≤ x.value) :
    (x.toUInt64.toNat : ℤ) = min ⌊x.value⌋ (2 ^ 64 - 1) := by
  have hword : x.toUInt64.toNat = min (x.unpacked.toInt 0 (2 ^ 64 - 1)).toNat (2 ^ 64 - 1) :=
    toNat_ofNatClamp _
  have hcut : min (x.unpacked.toInt 0 (2 ^ 64 - 1)) (2 ^ 64 - 1) = min ⌊x.value⌋ (2 ^ 64 - 1) :=
    min_toInt_eq hpos
  have hfloor : 0 ≤ ⌊x.value⌋ := Int.floor_nonneg.mpr hpos
  omega

theorem lt_zero_iff : x < 0.0 ↔ x.value < 0 := by
  rw [lt_iff_value, value_zero]
  exact ⟨fun h => h.2.2, fun h => ⟨isNaN_of_value_ne h.ne, rfl, h⟩⟩

theorem floor_of_nonneg (hpos : 0 ≤ x.value) : x.floor = min ⌊x.value⌋ (2 ^ 64 - 1) := by
  unfold floor
  rw [if_neg (lt_zero_iff.not.mpr (not_lt.mpr hpos))]
  exact toNat_toUInt64_eq_min hpos

/-- A number with a large magnitude has no digits behind the point. -/
theorem exists_int_value_eq (hx : x.isFinite = true) (hlarge : 2 ^ 23 ≤ |x.value|) :
    ∃ k : ℤ, x.value = k := by
  obtain ⟨n, e, hn, -, hvalue⟩ := exists_digits hx
  have hshort : |x.value| < 2 ^ (24 + e) := by
    rw [hvalue, abs_mul, abs_of_pos (two_zpow_pos e), two_zpow_add]
    exact mul_lt_mul_of_pos_right (by exact_mod_cast hn) (two_zpow_pos e)
  have he : 0 ≤ e := by
    have hlt : (2 : ℚ) ^ (23 : ℤ) < 2 ^ (24 + e) := lt_of_le_of_lt hlarge hshort
    have := (zpow_lt_zpow_iff_right₀ (by norm_num)).mp hlt
    omega
  obtain ⟨k, rfl⟩ := Int.eq_ofNat_of_zero_le he
  refine ⟨n * 2 ^ k, hvalue.trans ?_⟩
  push_cast
  rfl

/-- A negative integer inside the range of the unsigned words is its own integer part. -/
theorem floor_of_whole {k : ℕ} (hx : x.isFinite = true) (hvalue : x.value = -k) (hk : 0 < k)
    (hhigh : k < 2 ^ 64) : x.floor = -k := by
  have hneg : (-x).value = k := by rw [value_neg, hvalue, neg_neg]
  have hword : ((-x).toUInt64.toNat : ℤ) = k := by
    rw [toNat_toUInt64_eq_min (by rw [hneg]; positivity), hneg, Int.floor_natCast]
    omega
  -- The magnitude is a word and has a scalar, so converting it back loses nothing.
  have hexact : value (-x).toUInt64.toFloat32 = k := by
    have hself := rounds_value ((isFinite_neg x).trans hx)
    have hnear := nearest_toFloat32_of_uint64 (-x).toUInt64
    rw [hneg] at hself
    rw [Int.natCast_inj.mp hword] at hnear
    refine hnear.value_eq hself ?_
    rw [Nat.abs_cast]
    exact_mod_cast (by omega : k ≤ 2 ^ 128)
  have hless : x < 0.0 := lt_zero_iff.mpr (by rw [hvalue]; simpa using hk)
  have hnot : ¬(-x).toUInt64.toFloat32 < -x := by
    rw [lt_iff_value, hexact, hneg]
    exact fun h => h.2.2.ne rfl
  unfold floor
  rw [if_pos hless]
  simp only
  rw [if_neg hnot, hword]

/-- Below the range of the unsigned words, rounding down leaves that of the signed ones. -/
theorem floor_le_of_low (hlow : x.value ≤ -2 ^ 64) : x.floor ≤ -(2 ^ 64 - 1) := by
  have hneg : 2 ^ 64 ≤ (-x).value := by
    rw [value_neg]
    linarith
  have hfloor : 2 ^ 64 ≤ ⌊(-x).value⌋ := Int.le_floor.mpr (by exact_mod_cast hneg)
  have hword := toNat_toUInt64_eq_min (x := -x) (by linarith)
  have hless : x < 0.0 := lt_zero_iff.mpr (by linarith)
  unfold floor
  rw [if_pos hless]
  simp only
  split <;> omega

/-- Rounding down is exact, but for the ends of the range of the unsigned words. -/
theorem floor_eq_of_high (hhigh : -2 ^ 64 < x.value) (hneg : x.value < 0) :
    x.floor = ⌊x.value⌋ := by
  have hx : x.isFinite = true := by
    refine isFinite_of_value (isNaN_of_value_ne hneg.ne) ?_ ?_
    · intro hlimit
      norm_num [hlimit] at hhigh
    · intro hlimit
      norm_num [hlimit] at hneg
  by_cases hsmall : -2 ^ 23 < x.value
  · exact floor_of_neg hx hneg hsmall
  · obtain ⟨k, hk⟩ := exists_int_value_eq hx (by rw [abs_of_neg hneg]; linarith)
    rw [hk] at hhigh hneg
    have hhigh' : -2 ^ 64 < k := by exact_mod_cast hhigh
    have hneg' : k < 0 := by exact_mod_cast hneg
    obtain ⟨n, rfl⟩ := Int.exists_eq_neg_ofNat hneg'.le
    rw [hk, Int.floor_intCast]
    exact floor_of_whole hx (by rw [hk]; push_cast; rfl) (by omega) (by omega)

/-- **Rounding down into the signed words** is exact, saturates at both ends, and takes what is
not a number to zero. -/
theorem ofIntClamp_floor (x : Scalar) :
    Int64.ofIntClamp x.floor = Int64.ofIntClamp ⌊x.value⌋ := by
  rcases lt_or_ge x.value 0 with hneg | hpos
  · rcases le_or_gt x.value (-2 ^ 64) with hlow | hhigh
    -- The magnitude stops at the end of the unsigned words, beyond that of the signed ones.
    · have hfloor := floor_le_of_low hlow
      have hvalue : ⌊x.value⌋ ≤ -2 ^ 64 :=
        Int.floor_le_iff.mpr (by push_cast; linarith)
      apply Int64.toInt.inj
      rw [toInt_ofIntClamp, toInt_ofIntClamp]
      omega
    · rw [floor_eq_of_high hhigh hneg]
  · apply Int64.toInt.inj
    rw [floor_of_nonneg hpos, toInt_ofIntClamp, toInt_ofIntClamp]
    omega

end Scalar

namespace TileGrid

/-! ### Columns and rows -/

/-- The column or row that a coordinate lies in, as a signed word. -/
def cellWord (s : Scalar) : Int64 := .ofIntClamp ⌊(s / tileSize).value⌋

/-- It is the column or row of a map, moved into the range of the words. -/
theorem toInt_cellWord (s : Scalar) :
    (cellWord s).toInt = max (-2 ^ 63) (min (cellCoord s) (2 ^ 63 - 1)) := by
  unfold cellWord cellCoord
  rw [← Scalar.ofIntClamp_floor, toInt_ofIntClamp]

theorem cellWord_neg_iff (s : Scalar) : cellWord s < 0 ↔ cellCoord s < 0 := by
  rw [Int64.lt_iff_toInt_lt, toInt_cellWord, Int64.toInt_zero]
  omega

/-- A column or row that is not negative, as an unsigned word. -/
theorem toNat_cellWord {s : Scalar} (h : 0 ≤ cellCoord s) :
    ((cellWord s).toUInt64.toNat : ℤ) = min (cellCoord s) (2 ^ 63 - 1) := by
  have hpos : 0 ≤ cellWord s := by
    rw [Int64.le_iff_toInt_le, toInt_cellWord, Int64.toInt_zero]
    omega
  have hnat : (cellWord s).toNatClampNeg = (cellWord s).toInt.toNat := rfl
  rw [Int64.toNat_toUInt64_of_le hpos, hnat, toInt_cellWord]
  omega

end TileGrid
end Volley
