/-
# Scalar operations, by value

Each operation on numbers gives the scalar that is nearest to the exact result (`Nearest`). So
a result that can be represented is exact, and the order of two exact results is that of the
scalars. Turning a sign around is always exact, and a difference is the sum with the opposite
(`sub_eq`).

Key definitions: `Scalar.Nearest`.
Key theorems: `Scalar.nearest_add`, `Scalar.nearest_sub`, `Scalar.nearest_mul`,
`Scalar.nearest_div`, `Scalar.nearest_toFloat32`, `Scalar.Nearest.mono`, `Scalar.Nearest.error`.
-/
import Volley.Proofs.Scalar.Arithmetic

namespace Volley

open Float.Model Float.Model.UnpackedFloat

namespace Scalar

variable {x y z : Scalar} {p q : ℚ}

/-! ### Values of scalars -/

theorem abs_value_le (x : Scalar) : |x.value| ≤ 2 ^ 128 := by
  have hcanonical := canonical_unpacked x
  unfold value
  generalize x.unpacked = a at hcanonical
  cases a with
  | notANumber => norm_num [rational]
  | infinity s =>
    cases s with
    | negative => rw [rational_infinity_negative, abs_neg, abs_of_pos (by norm_num)]
    | positive => rw [rational_infinity_positive, abs_of_pos (by norm_num)]
  | zero | finite => exact (abs_rational_lt hcanonical rfl).le

/-- Numbers are comparable. -/
theorem le_of_not_less (hx : x.isNaN = false) (hy : y.isNaN = false) (h : ¬y < x) : x ≤ y := by
  rw [le_iff_value]
  refine ⟨hx, hy, not_lt.mp fun hlt => h ?_⟩
  exact lt_iff_value.mpr ⟨hy, hx, hlt⟩

/-- The finite scalars are the numbers inside the range. -/
theorem isFinite_iff_value (h : x.isNaN = false) : x.isFinite = true ↔ |x.value| < 2 ^ 128 := by
  constructor
  · intro hx
    exact abs_rational_lt (canonical_unpacked x) hx
  · intro hx
    rw [isNaN_eq_false_iff] at h
    rw [isFinite_iff]
    unfold value at hx
    generalize x.unpacked = a at h hx
    cases a with
    | notANumber => exact absurd rfl h
    | infinity s =>
      cases s with
      | negative =>
        rw [rational_infinity_negative, abs_neg, abs_of_pos (by norm_num)] at hx
        exact absurd hx (lt_irrefl _)
      | positive =>
        rw [rational_infinity_positive, abs_of_pos (by norm_num)] at hx
        exact absurd hx (lt_irrefl _)
    | zero | finite => rfl

theorem clamp_neg (q : ℚ) : clamp (-q) = -clamp q := by
  have hends : max (-2 ^ 128 : ℚ) (2 ^ 128) = 2 ^ 128 := max_eq_right (by norm_num)
  unfold clamp
  rw [max_min_distrib_left, hends, ← min_neg_neg, ← max_neg_neg, neg_neg, min_comm, max_comm (-q)]

/-- Inside the range, the clamp has done nothing. -/
theorem clamp_of_abs_lt (h : |clamp q| < 2 ^ 128) : clamp q = q := by
  refine clamp_of_abs_le ?_
  by_contra hlarge
  rcases lt_abs.mp (not_le.mp hlarge) with hq | hq
  · rw [clamp_of_ge hq.le, abs_of_pos (by norm_num)] at h
    exact lt_irrefl _ h
  · rw [clamp_of_le (by linarith), abs_neg, abs_of_pos (by norm_num)] at h
    exact lt_irrefl _ h

theorem rounds_one : Rounds 1 1 := by
  have hself := rounds_self (n := 1) (e := 0) (by norm_num) (by norm_num)
  rwa [Int.cast_one, one_mul, zpow_zero] at hself

theorem rounds_value (hx : x.isFinite = true) : Rounds x.value x.value :=
  (result_self (canonical_unpacked x) hx).near

/-! ### Constants -/

theorem value_of_digits {m : Nat} {e : Int} (hm : 0 < m)
    (h : x.unpacked = .finite .positive m e hm) : x.value = m * 2 ^ e := by
  rw [value, h, rational_positive]

theorem value_zero : (0.0 : Scalar).value = 0 := rfl

theorem value_half : (0.5 : Scalar).value = 1 / 2 := by
  rw [value_of_digits (m := 2 ^ 23) (e := -24) (by decide) rfl]
  norm_num

theorem value_one : (1.0 : Scalar).value = 1 := by
  rw [value_of_digits (m := 2 ^ 23) (e := -23) (by decide) rfl]
  norm_num

theorem value_two : (2.0 : Scalar).value = 2 := by
  rw [value_of_digits (m := 2 ^ 23) (e := -22) (by decide) rfl]
  norm_num

/-! ### The nearest scalar -/

/-- `x` is the scalar nearest to `q`, and infinite if `q` is too large. -/
structure Nearest (q : ℚ) (x : Scalar) : Prop where
  number : x.isNaN = false
  rounds : ∃ v, Rounds q v ∧ x.value = clamp v

theorem Result.nearest {a : UnpackedFloat} (h : Result q a) :
    Nearest q (.ofModel (.pack a)) := by
  refine ⟨?_, rational a, h.near, value_pack h.rounded⟩
  rw [isNaN_eq_false_iff, unpacked_pack h.rounded]
  have hnumber := h.number
  cases a with
  | notANumber | infinity => cases hnumber
  | zero => exact UnpackedFloat.noConfusion
  | finite s m e hm =>
    show (if e ≤ 104 then _ else _) ≠ UnpackedFloat.notANumber
    split <;> exact UnpackedFloat.noConfusion

theorem Nearest.mono (hx : Nearest p x) (hy : Nearest q y) (h : p ≤ q) : x ≤ y := by
  obtain ⟨u, hu, hxu⟩ := hx.rounds
  obtain ⟨v, hv, hyv⟩ := hy.rounds
  rw [le_iff_value, hxu, hyv]
  exact ⟨hx.number, hy.number, clamp_mono (hu.mono hv h)⟩

/-- What can be represented is not rounded. -/
theorem Nearest.value_eq (h : Nearest q x) (hq : Rounds q q) (hsmall : |q| ≤ 2 ^ 128) :
    x.value = q := by
  obtain ⟨v, hv, hx⟩ := h.rounds
  rw [hx, hv.unique hq, clamp_of_abs_le hsmall]

theorem nearest_self (hx : x.isFinite = true) : Nearest x.value x :=
  ⟨isNaN_of_isFinite hx, x.value, Scalar.rounds_value hx, (clamp_of_abs_le (abs_value_le x)).symm⟩

theorem Nearest.nonneg (h : Nearest q x) (hq : 0 ≤ q) : 0 ≤ x.value := by
  obtain ⟨v, hv, hvalue⟩ := h.rounds
  rw [hvalue, ← clamp_zero]
  exact clamp_mono (hv.nonneg hq)

theorem Nearest.nonpos (h : Nearest q x) (hq : q ≤ 0) : x.value ≤ 0 := by
  obtain ⟨v, hv, hvalue⟩ := h.rounds
  rw [hvalue, ← clamp_zero]
  exact clamp_mono (hv.nonpos hq)

/-- Two scalars nearest to the same number have the same value. -/
theorem Nearest.congr (hx : Nearest q x) (hy : Nearest q y) (hfinite : y.isFinite = true) :
    x.isFinite = true ∧ x.value = y.value := by
  have hvalue : x.value = y.value :=
    le_antisymm (le_iff_value.mp (hx.mono hy le_rfl)).2.2 (le_iff_value.mp (hy.mono hx le_rfl)).2.2
  rw [isFinite_iff_value hy.number, ← hvalue] at hfinite
  exact ⟨(isFinite_iff_value hx.number).mpr hfinite, hvalue⟩

theorem Nearest.rounds_value (h : Nearest q x) (hx : x.isFinite = true) : Rounds q x.value := by
  obtain ⟨v, hv, hvalue⟩ := h.rounds
  rw [isFinite_iff_value h.number, hvalue] at hx
  rw [hvalue, clamp_of_abs_lt hx]
  exact hv

/-- What is well inside the range is not rounded out of it. -/
theorem Nearest.isFinite (h : Nearest q x) (hq : |q| ≤ 2 ^ 127) : x.isFinite = true := by
  obtain ⟨v, hv, hvalue⟩ := h.rounds
  have hend : Rounds (2 ^ 127) (2 ^ 127) := by
    have hself := rounds_self (n := 1) (e := 127) (by norm_num) (by norm_num)
    norm_num at hself
    exact_mod_cast hself
  obtain ⟨hlow, hhigh⟩ := abs_le.mp hq
  have habs : |v| ≤ 2 ^ 127 := abs_le.mpr ⟨hend.neg.mono hv hlow, hv.mono hend hhigh⟩
  have hrange : |v| < 2 ^ 128 := lt_of_le_of_lt habs (by norm_num)
  rw [isFinite_iff_value h.number, hvalue, clamp_of_abs_le hrange.le]
  exact hrange

/-- Below `2 ^ k` the nearest scalar is finite, and `2 ^ (k - 25)` away at most. -/
theorem Nearest.error (h : Nearest q x) {k : ℤ} (hlow : -125 ≤ k) (hhigh : k ≤ 127)
    (hq : |q| < 2 ^ k) : x.isFinite = true ∧ |x.value - q| ≤ 2 ^ (k - 25) := by
  have hrange : (2 : ℚ) ^ k ≤ 2 ^ 127 := by exact_mod_cast two_zpow_le hhigh
  have hx := h.isFinite (hq.le.trans hrange)
  exact ⟨hx, (h.rounds_value hx).error_le hlow hq⟩

theorem nearest_add (hx : x.isFinite = true) (hy : y.isFinite = true) :
    Nearest (x.value + y.value) (x + y) :=
  (result_add (canonical_unpacked x) (canonical_unpacked y) hx hy).nearest

theorem nearest_mul (hx : x.isFinite = true) (hy : y.isFinite = true) :
    Nearest (x.value * y.value) (x * y) :=
  (result_mul (canonical_unpacked x) (canonical_unpacked y) hx hy).nearest

theorem nearest_div (hx : x.isFinite = true) (hy : y.isFinite = true) (h : y.value ≠ 0) :
    Nearest (x.value / y.value) (x / y) :=
  (result_div (canonical_unpacked x) (canonical_unpacked y) hx hy h).nearest

theorem nearest_ofInt (n : Int) :
    Nearest n (.ofModel (.pack (.ofInt .binary32 n))) := by
  have hresult := (result_normalize n 0 .positive).nearest
  rw [zpow_zero, mul_one] at hresult
  exact hresult

theorem nearest_toFloat32 (n : UInt32) : Nearest n.toNat n.toFloat32 := by
  have h := nearest_ofInt n.toNat
  rw [Int.cast_natCast] at h
  exact h

theorem isFinite_toFloat32 (n : UInt32) : n.toFloat32.isFinite = true := by
  refine (nearest_toFloat32 n).isFinite ?_
  rw [Nat.abs_cast]
  have hlt : (n.toNat : ℚ) < 2 ^ 32 := by exact_mod_cast n.toNat_lt
  linarith

theorem nearest_toFloat32_of_uint64 (n : UInt64) : Nearest n.toNat n.toFloat32 := by
  have h := nearest_ofInt n.toNat
  rw [Int.cast_natCast] at h
  exact h

/-! ### Exact results -/

theorem rational_neg (a : UnpackedFloat) : rational a.neg = -rational a := by
  cases a with
  | notANumber => exact neg_zero.symm
  | infinity s =>
    cases s with
    | negative =>
      show rational (.infinity .positive) = _
      rw [rational_infinity_positive, rational_infinity_negative, neg_neg]
    | positive =>
      show rational (.infinity .negative) = _
      rw [rational_infinity_positive, rational_infinity_negative]
  | zero => exact neg_zero.symm
  | finite s m e hm =>
    cases s with
    | negative =>
      show rational (.finite .positive m e hm) = _
      rw [rational_positive, rational_negative, neg_neg]
    | positive =>
      show rational (.finite .negative m e hm) = _
      rw [rational_positive, rational_negative]

/-- What the layout can hold is stored as it is. -/
theorem unpacked_of_canonical {a : UnpackedFloat} (ha : Canonical a) :
    unpacked (.ofModel (.pack a)) = a := by
  cases a with
  | finite s m e hm =>
    rw [unpacked_pack (a := .finite s m e hm) (Held.placed ha)]
    exact if_pos (Held.high ha)
  | notANumber => exact unpacked_pack (a := .notANumber) trivial
  | infinity s => exact unpacked_pack (a := .infinity s) trivial
  | zero s => exact unpacked_pack (a := .zero s) trivial

theorem unpacked_neg (x : Scalar) : (-x).unpacked = x.unpacked.neg := by
  have hcanonical := canonical_unpacked x
  refine unpacked_of_canonical ?_
  show Canonical x.unpacked.neg
  generalize x.unpacked = a at hcanonical
  cases a with
  | finite => exact hcanonical
  | _ => trivial

theorem unpacked_abs (x : Scalar) : unpacked x.abs = x.unpacked.abs := by
  have hcanonical := canonical_unpacked x
  refine unpacked_of_canonical ?_
  show Canonical x.unpacked.abs
  generalize x.unpacked = a at hcanonical
  cases a with
  | finite => exact hcanonical
  | _ => trivial

theorem value_neg (x : Scalar) : (-x).value = -x.value := by
  unfold value
  rw [unpacked_neg, rational_neg]

theorem isFinite_neg (x : Scalar) : (-x).isFinite = x.isFinite := by
  show (-x).unpacked.isFinite = x.unpacked.isFinite
  rw [unpacked_neg]
  cases x.unpacked <;> rfl

theorem isNaN_neg (x : Scalar) : (-x).isNaN = x.isNaN := by
  show (-x).unpacked.isNaN = x.unpacked.isNaN
  rw [unpacked_neg]
  cases x.unpacked <;> rfl

theorem sub_eq (x y : Scalar) : x - y = x + -y := by
  show Float32.ofModel (.pack (.sub .binary32 x.unpacked y.unpacked)) =
    Float32.ofModel (.pack (.add .binary32 x.unpacked (-y).unpacked))
  rw [unpacked_neg]
  congr 2
  generalize x.unpacked = a
  generalize y.unpacked = b
  cases a with
  | notANumber => rfl
  | infinity | zero => cases b <;> rfl
  | finite s m e hm =>
    cases b with
    | notANumber | infinity | zero => rfl
    | finite t n f hn =>
      have happly (k : Int) : (-t).apply k = -t.apply k := by
        cases t with
        | negative => exact (neg_neg k).symm
        | positive => rfl
      simp only [UnpackedFloat.sub, UnpackedFloat.add, UnpackedFloat.neg, happly, sub_eq_add_neg]

theorem nearest_sub (hx : x.isFinite = true) (hy : y.isFinite = true) :
    Nearest (x.value - y.value) (x - y) := by
  rw [sub_eq, sub_eq_add_neg, ← value_neg]
  exact nearest_add hx ((isFinite_neg y).trans hy)

theorem value_abs (x : Scalar) : value x.abs = |x.value| := by
  unfold value
  rw [unpacked_abs]
  generalize x.unpacked = a
  cases a with
  | notANumber | zero => exact abs_zero.symm
  | infinity s =>
    show rational (.infinity .positive) = _
    cases s with
    | negative => norm_num [rational_infinity_positive, rational_infinity_negative]
    | positive => norm_num [rational_infinity_positive]
  | finite s m e hm =>
    have hpos := magnitude_pos hm e
    show rational (.finite .positive m e hm) = _
    cases s with
    | negative => rw [rational_positive, rational_negative, abs_neg, abs_of_pos hpos]
    | positive => rw [rational_positive, abs_of_pos hpos]

theorem isNaN_abs (x : Scalar) : x.abs.isNaN = x.isNaN := by
  show (unpacked x.abs).isNaN = x.unpacked.isNaN
  rw [unpacked_abs]
  cases x.unpacked <;> rfl

end Scalar
end Volley
