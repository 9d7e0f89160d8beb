/-
# The number that a scalar stands for

Every scalar that is not infinite stands for a rational number, its `value`; an infinite one
counts as the first power of two that is too large. Values are compared as scalars are
(`compare_value`), and storing a rounded result keeps its value as far as the layout goes
(`value_pack`).

Key definitions: `Scalar.rational`, `Scalar.value`, `Scalar.Placed`, `Scalar.clamp`.
Key theorems: `Scalar.unpacked_pack`, `Scalar.value_pack`, `Scalar.le_iff_value`,
`Scalar.lt_iff_value`, `Scalar.unpacked_of_value`.
-/
import Volley.Proofs.Scalar.Finite
import Volley.Proofs.Scalar.Nearest

namespace Volley

open Float.Model Float.Model.UnpackedFloat

namespace Scalar

/-! ### Values -/

/-- The rational number that an unpacked scalar stands for. -/
def rational : UnpackedFloat → ℚ
  | .notANumber => 0
  | .infinity s => s.apply 1 * 2 ^ 128
  | .zero _ => 0
  | .finite s m e _ => s.apply m * 2 ^ e

/-- The number that a scalar stands for: zero if it is not a number, and the end of the range
if it is infinite. -/
def value (x : Scalar) : ℚ := rational x.unpacked

/-- Mantissas and exponents of rounded results, which may still be too large to be stored. -/
structure Placed (m : Nat) (e : Int) : Prop where
  width : m < 2 ^ 24
  low : -149 ≤ e
  normal : -149 < e → 2 ^ 23 ≤ m

theorem Held.placed {m : Nat} {e : Int} (h : Held m e) : Placed m e := ⟨h.width, h.low, h.normal⟩

variable {m n : Nat} {e f : Int}

theorem magnitude_pos (hm : 0 < m) (e : Int) : (0 : ℚ) < m * 2 ^ e :=
  mul_pos (Nat.cast_pos.mpr hm) (two_zpow_pos e)

/-- Of two rounded results the one with the larger exponent is larger. -/
theorem magnitude_lt (hm : Placed m e) (hn : Placed n f) (h : e < f) :
    (m * 2 ^ e : ℚ) < n * 2 ^ f := by
  have hfull : 2 ^ 23 ≤ n := hn.normal (lt_of_le_of_lt hm.low h)
  calc (m * 2 ^ e : ℚ)
      < 2 ^ 24 * 2 ^ e := mul_lt_mul_of_pos_right (by exact_mod_cast hm.width) (two_zpow_pos e)
    _ = 2 ^ 23 * 2 ^ (e + 1) := by rw [two_zpow_add]; ring
    _ ≤ 2 ^ 23 * 2 ^ f := mul_le_mul_of_nonneg_left (two_zpow_le h) (by norm_num)
    _ ≤ n * 2 ^ f := mul_le_mul_of_nonneg_right (by exact_mod_cast hfull) (two_zpow_pos f).le

theorem compare_magnitude (hm : Placed m e) (hn : Placed n f) :
    (compare e f).then (compare m n) = compare (m * 2 ^ e : ℚ) (n * 2 ^ f) := by
  rcases lt_trichotomy e f with hlt | rfl | hgt
  · rw [compare_lt_iff_lt.mpr hlt, compare_lt_iff_lt.mpr (magnitude_lt hm hn hlt)]
    rfl
  · have hpos := two_zpow_pos e
    rw [compare_eq_iff_eq.mpr (rfl : e = e)]
    show compare m n = _
    rcases lt_trichotomy m n with hlt | rfl | hgt
    · have hcast : (m : ℚ) < n := Nat.cast_lt.mpr hlt
      rw [compare_lt_iff_lt.mpr hlt, compare_lt_iff_lt.mpr (mul_lt_mul_of_pos_right hcast hpos)]
    · rw [compare_eq_iff_eq.mpr rfl, compare_eq_iff_eq.mpr rfl]
    · have hcast : (n : ℚ) < m := Nat.cast_lt.mpr hgt
      rw [compare_gt_iff_gt.mpr hgt, compare_gt_iff_gt.mpr (mul_lt_mul_of_pos_right hcast hpos)]
  · rw [compare_gt_iff_gt.mpr hgt, compare_gt_iff_gt.mpr (magnitude_lt hn hm hgt)]
    rfl

/-- The range ends at `2 ^ 128`. -/
theorem magnitude_lt_limit (hm : Placed m e) (he : e ≤ 104) : (m * 2 ^ e : ℚ) < 2 ^ 128 := by
  calc (m * 2 ^ e : ℚ)
      < 2 ^ 24 * 2 ^ e := mul_lt_mul_of_pos_right (by exact_mod_cast hm.width) (two_zpow_pos e)
    _ ≤ 2 ^ 24 * 2 ^ (104 : ℤ) := mul_le_mul_of_nonneg_left (two_zpow_le he) (by norm_num)
    _ = 2 ^ 128 := by norm_num

theorem limit_le_magnitude (hm : Placed m e) (he : ¬e ≤ 104) : (2 ^ 128 : ℚ) ≤ m * 2 ^ e := by
  have hfull : 2 ^ 23 ≤ m := hm.normal (by omega)
  calc (2 ^ 128 : ℚ)
      = 2 ^ 23 * 2 ^ (105 : ℤ) := by norm_num
    _ ≤ 2 ^ 23 * 2 ^ e := mul_le_mul_of_nonneg_left (two_zpow_le (by omega)) (by norm_num)
    _ ≤ m * 2 ^ e := mul_le_mul_of_nonneg_right (by exact_mod_cast hfull) (two_zpow_pos e).le

/-! ### Order -/

/-- The mantissa and the exponent, if there are any, are such as the layout has. -/
def Canonical : UnpackedFloat → Prop
  | .finite _ m e _ => Held m e
  | _ => True

theorem canonical_unpacked (x : Scalar) : Canonical x.unpacked := by
  cases h : x.unpacked with
  | finite => exact held_of_unpack h
  | _ => trivial

theorem isNaN_eq_false_iff {x : Scalar} : x.isNaN = false ↔ x.unpacked ≠ .notANumber := by
  show x.unpacked.isNaN = false ↔ _
  cases x.unpacked <;> simp [UnpackedFloat.isNaN]

theorem isNaN_of_isFinite {x : Scalar} (h : x.isFinite = true) : x.isNaN = false := by
  rw [isFinite_iff] at h
  rw [isNaN_eq_false_iff]
  intro hnan
  rw [hnan] at h
  cases h

theorem rational_positive {hm : 0 < m} : rational (.finite .positive m e hm) = m * 2 ^ e := rfl

theorem rational_negative {hm : 0 < m} :
    rational (.finite .negative m e hm) = -(m * 2 ^ e) := by
  show ((-(m : ℤ) : ℤ) : ℚ) * 2 ^ e = _
  rw [Int.cast_neg, neg_mul]
  rfl

theorem rational_infinity (s : Sign) : rational (.infinity s) = s.apply 1 * 2 ^ 128 := rfl

/-- Numbers lie inside the range. -/
theorem abs_rational_lt {a : UnpackedFloat} (ha : Canonical a) (h : a.isFinite = true) :
    |rational a| < 2 ^ 128 := by
  cases a with
  | notANumber => cases h
  | infinity => cases h
  | zero => norm_num [rational]
  | finite s m e hm =>
    have hlt := magnitude_lt_limit (Held.placed ha) (Held.high ha)
    have hpos := magnitude_pos hm e
    cases s with
    | positive => rwa [rational_positive, abs_of_pos hpos]
    | negative => rwa [rational_negative, abs_neg, abs_of_pos hpos]

theorem compare_neg (p q : ℚ) : compare (-p) (-q) = (compare p q).swap := by
  rcases lt_trichotomy p q with h | rfl | h
  · rw [compare_lt_iff_lt.mpr h, compare_gt_iff_gt.mpr (neg_lt_neg h)]
    rfl
  · rw [compare_eq_iff_eq.mpr rfl, compare_eq_iff_eq.mpr rfl]
    rfl
  · rw [compare_gt_iff_gt.mpr h, compare_lt_iff_lt.mpr (neg_lt_neg h)]
    rfl

theorem rational_zero (s : Sign) : rational (.zero s) = 0 := rfl

theorem rational_infinity_positive : rational (.infinity .positive) = 2 ^ 128 := by
  norm_num [rational, Sign.apply]

theorem rational_infinity_negative : rational (.infinity .negative) = -2 ^ 128 := by
  norm_num [rational, Sign.apply]

/-- Numbers lie between the infinite values. -/
theorem compare_infinity {a : UnpackedFloat} (ha : Canonical a) (h : a.isFinite = true)
    (s : Sign) :
    a.compare (.infinity s) = some (compare (rational a) (rational (.infinity s))) ∧
      (UnpackedFloat.infinity s).compare a =
        some (compare (rational (.infinity s)) (rational a)) := by
  obtain ⟨hlow, hhigh⟩ := abs_lt.mp (abs_rational_lt ha h)
  cases s with
  | negative =>
    rw [rational_infinity_negative, compare_lt_iff_lt.mpr hlow, compare_gt_iff_gt.mpr hlow]
    cases a with
    | notANumber | infinity => cases h
    | zero | finite => exact ⟨rfl, rfl⟩
  | positive =>
    rw [rational_infinity_positive, compare_lt_iff_lt.mpr hhigh, compare_gt_iff_gt.mpr hhigh]
    cases a with
    | notANumber | infinity => cases h
    | zero s => exact ⟨rfl, rfl⟩
    | finite s => cases s <;> exact ⟨rfl, rfl⟩

/-- Unpacked scalars are compared by their values. -/
theorem compare_rational {a b : UnpackedFloat} (ha : Canonical a) (hb : Canonical b)
    (hnan : a ≠ .notANumber) (hnan' : b ≠ .notANumber) :
    a.compare b = some (compare (rational a) (rational b)) := by
  have hlimit : (0 : ℚ) < 2 ^ 128 := by norm_num
  cases a with
  | notANumber => exact absurd rfl hnan
  | infinity s =>
    cases b with
    | notANumber => exact absurd rfl hnan'
    | infinity t =>
      cases s <;> cases t
      · rw [compare_eq_iff_eq.mpr (rfl : rational (.infinity .negative) = _)]; rfl
      · rw [rational_infinity_negative, rational_infinity_positive,
          compare_lt_iff_lt.mpr (by linarith)]; rfl
      · rw [rational_infinity_negative, rational_infinity_positive,
          compare_gt_iff_gt.mpr (by linarith)]; rfl
      · rw [compare_eq_iff_eq.mpr (rfl : rational (.infinity .positive) = _)]; rfl
    | zero | finite => exact (compare_infinity hb rfl s).2
  | zero s =>
    cases b with
    | notANumber => exact absurd rfl hnan'
    | infinity t => exact (compare_infinity ha rfl t).1
    | zero t => rw [rational_zero, rational_zero, compare_eq_iff_eq.mpr rfl]; rfl
    | finite t n f hn =>
      have hpos := magnitude_pos hn f
      cases t with
      | positive => rw [rational_zero, rational_positive, compare_lt_iff_lt.mpr hpos]; rfl
      | negative =>
        rw [rational_zero, rational_negative, compare_gt_iff_gt.mpr (neg_neg_of_pos hpos)]; rfl
  | finite s m e hm =>
    have hpos := magnitude_pos hm e
    cases b with
    | notANumber => exact absurd rfl hnan'
    | infinity t => exact (compare_infinity ha rfl t).1
    | zero t =>
      cases s with
      | positive => rw [rational_zero, rational_positive, compare_gt_iff_gt.mpr hpos]; rfl
      | negative =>
        rw [rational_zero, rational_negative, compare_lt_iff_lt.mpr (neg_neg_of_pos hpos)]; rfl
    | finite t n f hn =>
      have hpos' := magnitude_pos hn f
      have hmag := compare_magnitude (Held.placed ha) (Held.placed hb)
      cases s <;> cases t
      · rw [rational_negative, rational_negative, compare_neg, ← hmag]; rfl
      · rw [rational_negative, rational_positive, compare_lt_iff_lt.mpr (by linarith)]; rfl
      · rw [rational_negative, rational_positive, compare_gt_iff_gt.mpr (by linarith)]; rfl
      · rw [rational_positive, rational_positive, ← hmag]; rfl

section

variable {x y : Scalar}

theorem compare_value (hx : x.isNaN = false) (hy : y.isNaN = false) :
    x.unpacked.compare y.unpacked = some (compare x.value y.value) :=
  compare_rational (canonical_unpacked x) (canonical_unpacked y) (isNaN_eq_false_iff.mp hx)
    (isNaN_eq_false_iff.mp hy)

/-- What is not a number is not compared. -/
theorem isNaN_of_compare {o : Ordering} (h : x.unpacked.compare y.unpacked = some o) :
    x.isNaN = false ∧ y.isNaN = false := by
  rw [isNaN_eq_false_iff, isNaN_eq_false_iff]
  constructor
  · intro hx
    rw [hx] at h
    cases h
  · intro hy
    rw [hy] at h
    cases hx : x.unpacked <;> rw [hx] at h <;> cases h

theorem le_iff_value :
    x ≤ y ↔ x.isNaN = false ∧ y.isNaN = false ∧ x.value ≤ y.value := by
  rw [le_iff, UnpackedFloat.le]
  constructor
  · intro h
    cases ho : x.unpacked.compare y.unpacked with
    | none => simp [ho] at h
    | some o =>
      obtain ⟨hx, hy⟩ := isNaN_of_compare ho
      rw [compare_value hx hy, Option.any_some] at h
      exact ⟨hx, hy, compare_le_iff_le.mp (Ordering.isLE_iff_ne_gt.mp h)⟩
  · rintro ⟨hx, hy, h⟩
    rw [compare_value hx hy]
    exact Ordering.isLE_iff_ne_gt.mpr (compare_le_iff_le.mpr h)

theorem lt_iff : x < y ↔ UnpackedFloat.lt x.unpacked y.unpacked = true :=
  decide_eq_true_iff

theorem lt_iff_value :
    x < y ↔ x.isNaN = false ∧ y.isNaN = false ∧ x.value < y.value := by
  rw [lt_iff, UnpackedFloat.lt, beq_iff_eq]
  constructor
  · intro h
    obtain ⟨hx, hy⟩ := isNaN_of_compare h
    rw [compare_value hx hy, Option.some_inj] at h
    exact ⟨hx, hy, compare_lt_iff_lt.mp h⟩
  · rintro ⟨hx, hy, h⟩
    rw [compare_value hx hy, compare_lt_iff_lt.mpr h]

theorem beq_iff_value :
    (x == y) = true ↔ x.isNaN = false ∧ y.isNaN = false ∧ x.value = y.value := by
  have hbeq : (x == y) = (x.unpacked.compare y.unpacked == some .eq) := rfl
  rw [hbeq, beq_iff_eq]
  constructor
  · intro h
    obtain ⟨hx, hy⟩ := isNaN_of_compare h
    rw [compare_value hx hy, Option.some_inj] at h
    exact ⟨hx, hy, compare_eq_iff_eq.mp h⟩
  · rintro ⟨hx, hy, h⟩
    rw [compare_value hx hy, compare_eq_iff_eq.mpr h]

/-- Numbers of the same value differ in the sign of a zero at most. -/
theorem unpacked_of_value (hx : x.isFinite = true) (hy : y.isFinite = true)
    (h : x.value = y.value) :
    x.unpacked = y.unpacked ∨ ∃ s t, x.unpacked = .zero s ∧ y.unpacked = .zero t := by
  have hcompare := compare_value (isNaN_of_isFinite hx) (isNaN_of_isFinite hy)
  rw [compare_eq_iff_eq.mpr h] at hcompare
  rw [isFinite_iff] at hx hy
  generalize x.unpacked = a at hx hcompare
  generalize y.unpacked = b at hy hcompare
  cases a with
  | notANumber | infinity => cases hx
  | zero s =>
    cases b with
    | notANumber | infinity => cases hy
    | zero t => exact Or.inr ⟨s, t, rfl, rfl⟩
    | finite t => cases t <;> cases hcompare
  | finite s m e hm =>
    cases b with
    | notANumber | infinity => cases hy
    | zero t => cases s <;> cases hcompare
    | finite t n f hn =>
      left
      have hsame : s = t ∧ (compare e f).then (compare m n) = .eq := by
        cases s <;> cases t
        · exact ⟨rfl, Ordering.swap_eq_eq.mp (Option.some_inj.mp hcompare)⟩
        · cases hcompare
        · cases hcompare
        · exact ⟨rfl, Option.some_inj.mp hcompare⟩
      obtain ⟨rfl, hthen⟩ := hsame
      obtain ⟨hexp, hmant⟩ := Ordering.then_eq_eq.mp hthen
      obtain rfl := compare_eq_iff_eq.mp hexp
      obtain rfl := compare_eq_iff_eq.mp hmant
      rfl

end

/-! ### Storing -/

/-- What an unpacked scalar becomes when it is stored: a result that is too large becomes
infinite. -/
def stored : UnpackedFloat → UnpackedFloat
  | .finite s m e hm => if e ≤ 104 then .finite s m e hm else .infinity s
  | a => a

/-- The mantissa and the exponent, if there are any, are those of a rounded result. -/
def Rounded : UnpackedFloat → Prop
  | .finite _ m e _ => Placed m e
  | _ => True

theorem unpackSign_packComponents {spec : Format} (s : Sign)
    (exponent : BitVec spec.exponentBits) (mantissa : BitVec spec.mantissaBitsWithoutImplicit) :
    unpackSign (packComponents spec s exponent mantissa) = s.toBitVec := by
  apply BitVec.eq_of_getLsbD_eq
  intro i hi
  obtain rfl : i = 0 := by omega
  simp [unpackSign, packComponents, BitVec.getLsbD_append, BitVec.getElem_append]

theorem ofBitVec_toBitVec (s : Sign) : Sign.ofBitVec s.toBitVec = s := by
  cases s <;> rfl

theorem toNat_append_one (b : BitVec 23) : (1#1 ++ b).toNat = 2 ^ 23 + b.toNat := by
  rw [BitVec.toNat_append, ← Nat.shiftLeft_add_eq_or_of_lt b.isLt]
  rfl

theorem unpack_normal (s : Sign) {exponent : BitVec 8} (mantissa : BitVec 23)
    (hfull : exponent ≠ -1#8) (hzero : exponent ≠ 0#8) (hm : 0 < m)
    (hmant : 2 ^ 23 + mantissa.toNat = m) (hexp : (exponent.toNat : Int) - 150 = e) :
    UnpackedFloat.unpack .binary32 (packComponents .binary32 s exponent mantissa) =
      .finite s m e hm := by
  unfold UnpackedFloat.unpack
  simp only [unpackMantissa_packComponents, unpackExponent_packComponents,
    unpackSign_packComponents, ofBitVec_toBitVec]
  rw [if_neg hfull, if_neg hzero]
  simp only [toNat_append_one, hmant, ← hexp]
  rfl

theorem unpack_subnormal (s : Sign) {mantissa : BitVec 23} (hm : 0 < m)
    (hmant : mantissa.toNat = m) :
    UnpackedFloat.unpack .binary32 (packComponents .binary32 s 0#8 mantissa) =
      .finite s m (-149) hm := by
  have hne : mantissa ≠ 0#23 := by
    rintro rfl
    have hzero : 0 = m := hmant
    omega
  unfold UnpackedFloat.unpack
  simp only [unpackMantissa_packComponents, unpackExponent_packComponents,
    unpackSign_packComponents, ofBitVec_toBitVec]
  rw [if_neg (by decide), if_pos trivial, dif_neg hne]
  simp only [hmant]
  rfl

/-- **Storing keeps rounded results**, as far as the range goes. -/
theorem unpack_pack {a : UnpackedFloat} (ha : Rounded a) :
    UnpackedFloat.unpack .binary32 (UnpackedFloat.pack .binary32 a) = stored a := by
  cases a with
  | notANumber => rfl
  | infinity s => cases s <;> rfl
  | zero s => cases s <;> rfl
  | finite s m e hm =>
    obtain ⟨hwidth, hlow, hnormal⟩ := ha
    have hbiased : (e + Format.binary32.exponentBias +
        Format.binary32.mantissaBitsWithoutImplicit).toNat = (e + 150).toNat := by
      have hbias : (Format.binary32.exponentBias : Int) = 127 := rfl
      have hplaces : (Format.binary32.mantissaBitsWithoutImplicit : Int) = 23 := rfl
      rw [hbias, hplaces]
      congr 1
      omega
    have hbits : Format.binary32.mantissaBits = 24 := rfl
    have hlog : m.log2 ≤ 23 := Nat.lt_succ_iff.mp ((Nat.log2_lt hm.ne').mpr hwidth)
    unfold UnpackedFloat.pack stored
    simp only [hbiased, hbits]
    by_cases hlarge : 2 ^ 8 ≤ (e + 150).toNat + 1
    · rw [if_pos hlarge, if_neg (by omega)]
      cases s <;> rfl
    have he : e ≤ 104 := by omega
    rw [if_neg hlarge, if_pos he]
    by_cases hfull : m.log2 + 1 = 24
    · -- the leading digit of a normal number is not stored
      rw [if_pos hfull]
      have hlead : 2 ^ 23 ≤ m := (Nat.le_log2 hm.ne').mp (by omega)
      have hexp : (BitVec.ofNat 8 (e + 150).toNat).toNat = (e + 150).toNat := by
        rw [BitVec.toNat_ofNat, Nat.mod_eq_of_lt (by omega)]
      refine unpack_normal s _ ?_ ?_ hm ?_ ?_
      · intro h
        rw [h] at hexp
        have hexp : 255 = (e + 150).toNat := hexp
        omega
      · intro h
        rw [h] at hexp
        have hexp : 0 = (e + 150).toNat := hexp
        omega
      · rw [BitVec.toNat_ofNat]
        omega
      · rw [hexp]
        omega
    · rw [if_neg hfull]
      have hshort : m < 2 ^ 23 := (Nat.log2_lt hm.ne').mp (by omega)
      obtain rfl : e = -149 := by
        by_contra hne
        have hlead := hnormal (by omega)
        omega
      exact unpack_subnormal s hm (by rw [BitVec.toNat_ofNat, Nat.mod_eq_of_lt hshort])

theorem unpacked_pack {a : UnpackedFloat} (ha : Rounded a) :
    unpacked (.ofModel (.pack a)) = stored a :=
  unpack_pack ha

/-- A number moved into the range. -/
def clamp (q : ℚ) : ℚ := max (-2 ^ 128) (min q (2 ^ 128))

theorem clamp_mono {p q : ℚ} (h : p ≤ q) : clamp p ≤ clamp q :=
  max_le_max_left _ (min_le_min_right _ h)

theorem clamp_of_abs_le {q : ℚ} (h : |q| ≤ 2 ^ 128) : clamp q = q := by
  obtain ⟨hlow, hhigh⟩ := abs_le.mp h
  rw [clamp, min_eq_left hhigh, max_eq_right hlow]

theorem clamp_of_ge {q : ℚ} (h : 2 ^ 128 ≤ q) : clamp q = 2 ^ 128 := by
  rw [clamp, min_eq_right h, max_eq_right (by norm_num)]

theorem clamp_of_le {q : ℚ} (h : q ≤ -2 ^ 128) : clamp q = -2 ^ 128 := by
  rw [clamp, min_eq_left (le_trans h (by norm_num)), max_eq_left h]

theorem clamp_zero : clamp 0 = 0 := clamp_of_abs_le (by norm_num)

theorem rational_stored {a : UnpackedFloat} (ha : Rounded a) :
    rational (stored a) = clamp (rational a) := by
  cases a with
  | notANumber => exact clamp_zero.symm
  | infinity s =>
    cases s with
    | negative =>
      show rational (.infinity .negative) = _
      rw [rational_infinity_negative, clamp_of_le le_rfl]
    | positive =>
      show rational (.infinity .positive) = _
      rw [rational_infinity_positive, clamp_of_ge le_rfl]
  | zero s => exact clamp_zero.symm
  | finite s m e hm =>
    have hpos := magnitude_pos hm e
    show rational (if e ≤ 104 then _ else _) = _
    by_cases he : e ≤ 104
    · rw [if_pos he]
      have hlt := magnitude_lt_limit ha he
      cases s with
      | negative =>
        rw [rational_negative, clamp_of_abs_le (by rw [abs_neg, abs_of_pos hpos]; exact hlt.le)]
      | positive =>
        rw [rational_positive, clamp_of_abs_le (by rw [abs_of_pos hpos]; exact hlt.le)]
    · rw [if_neg he]
      have hle := limit_le_magnitude ha he
      cases s with
      | negative =>
        rw [rational_infinity_negative, rational_negative, clamp_of_le (neg_le_neg hle)]
      | positive => rw [rational_infinity_positive, rational_positive, clamp_of_ge hle]

/-- The value of a stored result. -/
theorem value_pack {a : UnpackedFloat} (ha : Rounded a) :
    value (.ofModel (.pack a)) = clamp (rational a) := by
  rw [value, unpacked_pack ha, rational_stored ha]

end Scalar
end Volley
