/-
# Bounds on results

How large a result can get is counted in powers of two, which are not rounded: a product of two
scalars within `2 ^ j` and `2 ^ k` is within `2 ^ (j + k)`, and a sum of two within `2 ^ k` is
within `2 ^ (k + 1)`, as long as these are in range (`Within.mul`, `Within.add`). A finite scalar
stays finite when something is added that is below its last place (`isFinite_add_within`).
The coordinates of unit vectors are within two, although the length they are divided by was
rounded three times (`Vec2.within_normalizeOrZero`).

Key definitions: `Scalar.Within`, `Vec2.Within`.
Key theorems: `Scalar.Nearest.within`, `Scalar.isFinite_add_within`,
`Scalar.isFinite_sub_within`, `Vec2.within_normalizeOrZero`.
-/
import Volley.Proofs.Scalar.Root
import Volley.Proofs.Scalar.Signs

namespace Volley

open Float.Model Float.Model.UnpackedFloat

namespace Scalar

variable {x y z : Scalar} {q r : ℚ} {j k : Nat}

/-! ### Bounds that are not rounded -/

theorem abs_clamp_le (q : ℚ) : |clamp q| ≤ |q| := by
  have hself := abs_le.mp (le_refl |q|)
  have hpos := abs_nonneg q
  refine abs_le.mpr ⟨le_max_of_le_right (le_min hself.1 ?_), max_le ?_ ?_⟩
  · linarith
  · linarith
  · exact (min_le_left _ _).trans hself.2

/-- Rounding does not carry a number over a bound that is not rounded. -/
theorem Nearest.abs_value_le (h : Nearest q x) (hr : Rounds r r) (hq : |q| ≤ r) :
    |x.value| ≤ r := by
  obtain ⟨v, hv, hvalue⟩ := h.rounds
  obtain ⟨hlow, hhigh⟩ := abs_le.mp hq
  rw [hvalue]
  exact (abs_clamp_le v).trans (abs_le.mpr ⟨hr.neg.mono hv hlow, hv.mono hr hhigh⟩)

theorem rounds_abs_value (hx : x.isFinite = true) : Rounds |x.value| |x.value| := by
  have hself := rounds_value hx
  rcases abs_choice x.value with h | h <;> rw [h]
  · exact hself
  · exact hself.neg

theorem rounds_two_pow (k : Nat) : Rounds (2 ^ k) (2 ^ k) := by
  have hself := rounds_two_zpow (k := k) (by omega)
  rwa [zpow_natCast] at hself

/-- The scalar is finite, and at most `2 ^ k` from zero. -/
structure Within (k : Nat) (x : Scalar) : Prop where
  finite : x.isFinite = true
  abs_le : |x.value| ≤ 2 ^ k

theorem Within.mono (h : Within j x) (hjk : j ≤ k) : Within k x :=
  ⟨h.finite, h.abs_le.trans (pow_le_pow_right₀ (by norm_num) hjk)⟩

/-- A scalar is within every bound that a larger one is within. -/
theorem Within.of_abs_le (h : Within k y) (hle : x.abs ≤ y) : Within k x := by
  obtain ⟨hnumber, -, hvalue⟩ := le_iff_value.mp hle
  rw [isNaN_abs] at hnumber
  rw [value_abs] at hvalue
  have hlarge := hvalue.trans (le_abs_self y.value)
  exact ⟨isFinite_of_abs_le hnumber h.finite hlarge, hlarge.trans h.abs_le⟩

theorem Nearest.within (h : Nearest q x) (hk : k ≤ 127) (hq : |q| ≤ 2 ^ k) : Within k x := by
  have hrange : (2 : ℚ) ^ k ≤ 2 ^ 127 := pow_le_pow_right₀ (by norm_num) hk
  exact ⟨h.isFinite (hq.trans hrange), h.abs_value_le (rounds_two_pow k) hq⟩

theorem Within.mul (hx : Within j x) (hy : Within k y) (hjk : j + k ≤ 127) :
    Within (j + k) (x * y) := by
  refine (nearest_mul hx.finite hy.finite).within hjk ?_
  rw [abs_mul, pow_add]
  exact mul_le_mul hx.abs_le hy.abs_le (abs_nonneg _) (by positivity)

theorem Within.add (hx : Within k x) (hy : Within k y) (hk : k + 1 ≤ 127) :
    Within (k + 1) (x + y) := by
  refine (nearest_add hx.finite hy.finite).within hk ?_
  have hsum := abs_add_le x.value y.value
  rw [pow_succ]
  linarith [hx.abs_le, hy.abs_le]

/-- A quotient by something that is not below one is within the same bound. -/
theorem Within.div (hx : Within k x) (hk : k ≤ 127) (hy : y.isFinite = true) (hone : 1 ≤ y.value) :
    Within k (x / y) := by
  have hpos : 0 < y.value := by linarith
  refine (nearest_div hx.finite hy hpos.ne').within hk ?_
  rw [abs_div, abs_of_pos hpos]
  exact (div_le_self (abs_nonneg _) hone).trans hx.abs_le

theorem Within.neg (hx : Within k x) : Within k (-x) :=
  ⟨(isFinite_neg x).trans hx.finite, by rw [value_neg, abs_neg]; exact hx.abs_le⟩

theorem Within.sub (hx : Within k x) (hy : Within k y) (hk : k + 1 ≤ 127) :
    Within (k + 1) (x - y) := by
  rw [sub_eq]
  exact hx.add hy.neg hk

theorem within_zero (k : Nat) : Within k 0.0 :=
  ⟨rfl, by rw [value_zero, abs_zero]; positivity⟩

theorem within_one : Within 0 1.0 := ⟨rfl, by rw [value_one]; norm_num⟩

theorem within_half : Within 0 0.5 := ⟨rfl, by rw [value_half]; norm_num [abs_of_pos]⟩

theorem within_toFloat32 (n : UInt32) : Within 32 n.toFloat32 := by
  refine (nearest_toFloat32 n).within (by norm_num) ?_
  rw [Nat.abs_cast]
  exact_mod_cast n.toNat_lt.le

theorem within_ofInt32 (n : Int32) : Within 32 (ofInt32 n) := by
  unfold ofInt32
  split
  · exact (within_toFloat32 _).neg
  · exact within_toFloat32 _

/-! ### Fractions -/

theorem within_of_unit (h₀ : 0.0 ≤ x) (h₁ : x ≤ 1.0) : Within 0 x := by
  rw [le_iff_value, value_zero] at h₀
  rw [le_iff_value, value_one] at h₁
  obtain ⟨-, hnumber, hlow⟩ := h₀
  obtain ⟨-, -, hhigh⟩ := h₁
  have habs : |x.value| ≤ 1 := abs_le.mpr ⟨by linarith, hhigh⟩
  refine ⟨(isFinite_iff_value hnumber).mpr (lt_of_le_of_lt habs (by norm_num)), ?_⟩
  rwa [pow_zero]

/-- The clamp moves every number into the unit interval. -/
theorem clampUnit_bounds (h : x.isNaN = false) : 0.0 ≤ x.clampUnit ∧ x.clampUnit ≤ 1.0 := by
  have hunit : (0.0 : Scalar) ≤ 1.0 := by decide +kernel
  have hself : (0.0 : Scalar) ≤ 0.0 ∧ (1.0 : Scalar) ≤ 1.0 := by decide +kernel
  by_cases hlow : x < 0.0
  · have hclamp : x.clampUnit = 0.0 := by
      simp only [clampUnit, if_pos hlow]
      rfl
    rw [hclamp]
    exact ⟨hself.1, hunit⟩
  · by_cases hhigh : 1.0 < x
    · have hclamp : x.clampUnit = 1.0 := by simp only [clampUnit, if_neg hlow, if_pos hhigh]
      rw [hclamp]
      exact ⟨hunit, hself.2⟩
    · have hclamp : x.clampUnit = x := by simp only [clampUnit, if_neg hlow, if_neg hhigh]
      rw [hclamp]
      exact ⟨le_of_not_less rfl h hlow, le_of_not_less h rfl hhigh⟩

/-- What is not a number passes the clamp. -/
theorem clampUnit_of_isNaN (h : x.isNaN = true) : x.clampUnit = x := by
  have hlow : ¬x < 0.0 := fun hlt => Bool.noConfusion (h.symm.trans (lt_iff_value.mp hlt).1)
  have hhigh : ¬1.0 < x := fun hlt => Bool.noConfusion (h.symm.trans (lt_iff_value.mp hlt).2.1)
  simp only [clampUnit, if_neg hlow, if_neg hhigh]

/-! ### The end of the range -/

theorem isFinite_of_between (hx : x.isFinite = true) (hz : z.isFinite = true)
    (hxy : x ≤ y) (hyz : y ≤ z) : y.isFinite = true := by
  obtain ⟨hnumber, hnumber', hle⟩ := le_iff_value.mp hxy
  obtain ⟨-, hnumber'', hle'⟩ := le_iff_value.mp hyz
  rw [isFinite_iff_value hnumber, abs_lt] at hx
  rw [isFinite_iff_value hnumber'', abs_lt] at hz
  rw [isFinite_iff_value hnumber', abs_lt]
  exact ⟨hx.1.trans_le hle, hle'.trans_lt hz.2⟩

/-- The largest magnitude of the layout has 24 digits. -/
theorem abs_value_le_largest (hx : x.isFinite = true) : |x.value| ≤ 2 ^ 128 - 2 ^ 104 := by
  have hcanonical := canonical_unpacked x
  rw [isFinite_iff] at hx
  unfold value
  generalize x.unpacked = a at hcanonical hx
  cases a with
  | notANumber | infinity => cases hx
  | zero => norm_num [rational]
  | finite s m e hm =>
    have hdigits : (m : ℚ) ≤ 2 ^ 24 - 1 := by
      have hwidth : m < 2 ^ 24 := hcanonical.width
      have hle : m + 1 ≤ 2 ^ 24 := by omega
      have hcast : (m + 1 : ℚ) ≤ 2 ^ 24 := by exact_mod_cast hle
      linarith
    have habs : |rational (.finite s m e hm)| = m * 2 ^ e := by
      cases s with
      | negative => rw [rational_negative, abs_neg, abs_of_pos (magnitude_pos hm e)]
      | positive => rw [rational_positive, abs_of_pos (magnitude_pos hm e)]
    rw [habs]
    calc (m * 2 ^ e : ℚ) ≤ (2 ^ 24 - 1) * 2 ^ (104 : ℤ) :=
          mul_le_mul hdigits (two_zpow_le hcanonical.high) (two_zpow_pos e).le (by norm_num)
      _ = 2 ^ 128 - 2 ^ 104 := by norm_num

/-- Rounding leads out of the range only from less than half a unit of the last place before its
end. -/
theorem Nearest.error_of_lt (h : Nearest q x) (hq : |q| < 2 ^ 128 - 2 ^ 103) :
    x.isFinite = true ∧ |x.value - q| ≤ 2 ^ 103 := by
  obtain ⟨v, hv, hvalue⟩ := h.rounds
  have hlt : |q| < 2 ^ (128 : ℤ) := hq.trans (by norm_num)
  have herror : |v - q| ≤ 2 ^ 103 := by
    have hle := hv.error_le (by norm_num) hlt
    norm_num at hle ⊢
    exact hle
  have hrange : |v| < 2 ^ 128 := by
    have hsum := abs_add_le (v - q) q
    rw [sub_add_cancel] at hsum
    linarith
  rw [isFinite_iff_value h.number, hvalue, clamp_of_abs_le hrange.le]
  exact ⟨hrange, herror⟩

/-- What is added below the last place does not lead out of the range, nor far away. -/
theorem isFinite_add_within (hx : x.isFinite = true) (hy : Within 102 y) :
    (x + y).isFinite = true ∧ |(x + y).value - x.value| ≤ 2 ^ 104 := by
  have hlarge := abs_value_le_largest hx
  have hsum := abs_add_le x.value y.value
  obtain ⟨hfinite, herror⟩ := (nearest_add hx hy.finite).error_of_lt
    (by norm_num; linarith [hy.abs_le])
  refine ⟨hfinite, ?_⟩
  have hsplit : (x + y).value - x.value = (x + y).value - (x.value + y.value) + y.value := by ring
  rw [hsplit]
  have htriangle := abs_add_le ((x + y).value - (x.value + y.value)) y.value
  linarith [hy.abs_le]

/-- So two sums of this kind are not too far apart. -/
theorem isFinite_sub_within (hx : x.isFinite = true) (hy : Within 102 y) (hz : Within 102 z) :
    (x + y - (x + z)).isFinite = true := by
  obtain ⟨hfinite, hnear⟩ := isFinite_add_within hx hy
  obtain ⟨hfinite', hnear'⟩ := isFinite_add_within hx hz
  have htriangle := abs_sub_le (x + y).value x.value (x + z).value
  rw [abs_sub_comm] at hnear'
  refine (nearest_sub hfinite hfinite').isFinite ?_
  linarith

/-! ### Unit vectors -/

theorem value_epsilon : epsilon.value = 2 ^ (-23 : ℤ) := by
  rw [value_of_digits (m := 2 ^ 23) (e := -46) (by decide) unpacked_epsilon]
  norm_num

theorem lt_value_of_gt_epsilon (hx : x.isFinite = true) (h : ¬x ≤ epsilon) :
    2 ^ (-23 : ℤ) < x.value := by
  rw [le_iff_value, value_epsilon] at h
  exact not_le.mp fun hle => h ⟨isNaN_of_isFinite hx, rfl, hle⟩

theorem value_mul_self_nonneg (h : (x * x).isFinite = true) : 0 ≤ (x * x).value :=
  value_mul_nonneg (isNaN_of_isFinite h) (mul_self_nonneg _)

/-- The rounded root of a rounded sum, one term of which is a rounded square, is at least half as
large as what was squared. -/
theorem abs_le_sqrt (hsquare : (x * x).isFinite = true) (hr : 0 ≤ r)
    (hsum : Nearest ((x * x).value + r) y) (hroot : y.sqrt.isFinite = true)
    (hlarge : ¬y.sqrt ≤ epsilon) : |x.value| ≤ 2 * value y.sqrt := by
  have hx := (isFinite_of_mul hsquare).1
  have hlow := lt_value_of_gt_epsilon hroot hlarge
  by_cases hzero : x.value = 0
  · rw [hzero, abs_zero]
    linarith [two_zpow_pos (-23)]
  have hlog : (2 : ℚ) ^ Int.log 2 |x.value| ≤ |x.value| := by
    exact_mod_cast Int.zpow_log_le_self (b := 2) (by norm_num) (abs_pos.mpr hzero)
  have hlog' : |x.value| < 2 ^ (Int.log 2 |x.value| + 1) := by
    exact_mod_cast Int.lt_zpow_succ_log_self (b := 2) (by norm_num) |x.value|
  generalize Int.log 2 |x.value| = k at hlog hlog'
  rw [two_zpow_add, zpow_one] at hlog'
  rcases lt_or_ge k (-63) with hsmall | hplaced
  · -- the square may be rounded to zero, but the root is not that small
    linarith [two_zpow_le (show k ≤ -23 by omega)]
  · have hself : Rounds (2 ^ (2 * k)) (2 ^ (2 * k)) := rounds_two_zpow (by omega)
    have hexact : 2 ^ (2 * k) ≤ x.value * x.value := by
      rw [two_mul, two_zpow_add, ← abs_mul_abs_self x.value]
      exact mul_le_mul hlog hlog (two_zpow_pos k).le (abs_nonneg _)
    have hpart : 2 ^ (2 * k) ≤ (x * x).value :=
      hself.mono ((nearest_mul hx hx).rounds_value hsquare) hexact
    have hwhole : 2 ^ (2 * k) ≤ y.value :=
      hself.mono (hsum.rounds_value (isFinite_of_sqrt hroot)) (by linarith)
    have hle := two_zpow_le_sqrt hroot (by omega) hwhole
    linarith

/-- So the quotient of the two is within two. -/
theorem within_div_sqrt (hsquare : (x * x).isFinite = true) (hr : 0 ≤ r)
    (hsum : Nearest ((x * x).value + r) y) (hroot : y.sqrt.isFinite = true)
    (hlarge : ¬y.sqrt ≤ epsilon) : Within 1 (x / y.sqrt) := by
  have hle := abs_le_sqrt hsquare hr hsum hroot hlarge
  have hpos : 0 < value y.sqrt := (two_zpow_pos _).trans (lt_value_of_gt_epsilon hroot hlarge)
  refine (nearest_div (isFinite_of_mul hsquare).1 hroot hpos.ne').within (by norm_num) ?_
  rw [abs_div, abs_of_pos hpos, div_le_iff₀ hpos, pow_one]
  exact hle

end Scalar

namespace Vec2

/-- Both coordinates are finite, and at most `2 ^ k` from zero. -/
structure Within (k : Nat) (a : Vec2) : Prop where
  x : a.x.Within k
  y : a.y.Within k

theorem Within.mono {a : Vec2} {j k : Nat} (h : a.Within j) (hjk : j ≤ k) : a.Within k :=
  ⟨h.x.mono hjk, h.y.mono hjk⟩

theorem Within.isFinite {a : Vec2} {k : Nat} (h : a.Within k) : a.isFinite = true :=
  isFinite_iff.mpr ⟨h.x.finite, h.y.finite⟩

/-- Between two points that are not too far away a fraction of the way gives a finite point
exactly if it is a number. -/
theorem isFinite_lerp_iff {a b : Vec2} {k : Nat} (ha : a.Within k) (hb : b.Within k)
    (hk : k + 2 ≤ 127) (t : Scalar) : (a.lerp b t).isFinite = true ↔ t.isNaN = false := by
  constructor
  · intro h
    obtain ⟨hx, -⟩ := isFinite_iff.mp h
    have hclamped := (Scalar.isFinite_of_mul (Scalar.isFinite_of_add hx).2).2
    by_contra hnot
    rw [Scalar.clampUnit_of_isNaN (by simpa using hnot)] at hclamped
    exact hnot (Scalar.isNaN_of_isFinite hclamped)
  · intro h
    obtain ⟨hlow, hhigh⟩ := Scalar.clampUnit_bounds h
    have hpart := Scalar.within_of_unit hlow hhigh
    have hcoordinate {x y : Scalar} (hx : x.Within k) (hy : y.Within k) :
        (x + (y - x) * t.clampUnit).isFinite = true := by
      have hway := (hy.sub hx (by omega)).mul hpart (by omega)
      exact ((hx.mono (Nat.le_succ k)).add hway (by omega)).finite
    exact isFinite_iff.mpr ⟨hcoordinate ha.x hb.x, hcoordinate ha.y hb.y⟩

/-- **Unit vectors.** Their coordinates are within two. -/
theorem within_normalizeOrZero (a : Vec2) : a.normalizeOrZero.Within 1 := by
  unfold normalizeOrZero
  simp only
  split
  · exact ⟨Scalar.within_zero 1, Scalar.within_zero 1⟩
  · rename_i h
    rw [Bool.or_eq_true, not_or, Bool.not_eq_true', Bool.not_eq_false, decide_eq_true_eq] at h
    obtain ⟨hroot, hlarge⟩ := h
    obtain ⟨hx, hy⟩ := Scalar.isFinite_of_add (Scalar.isFinite_of_sqrt hroot)
    have hsum := Scalar.nearest_add hx hy
    refine ⟨Scalar.within_div_sqrt hx (Scalar.value_mul_self_nonneg hy) hsum hroot hlarge, ?_⟩
    rw [add_comm] at hsum
    exact Scalar.within_div_sqrt hy (Scalar.value_mul_self_nonneg hx) hsum hroot hlarge

end Vec2

end Volley
