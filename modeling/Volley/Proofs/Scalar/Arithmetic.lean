/-
# Arithmetic is exact arithmetic, rounded

The exact result of an operation reaches the rounding step as a mantissa with two more
digits: whether the rest is at least a half, and whether there is more. `Marks` says which
numbers such a mantissa stands for; a shift halves them (`Marks.shift`), and the rounded
mantissa is the integer nearest to them (`Marks.nearestInt`). So rounding an unpacked result
rounds the number it stands for (`rounding`), and sums, products and quotients of unpacked
numbers are the exact ones, rounded.

Key definitions: `Scalar.Marks`, `Scalar.Result`.
Key theorems: `Scalar.rounding`, `Scalar.result_normalize`, `Scalar.result_add`,
`Scalar.result_mul`, `Scalar.result_div`.
-/
import Volley.Proofs.Scalar.Value

namespace Volley

open Float.Model Float.Model.UnpackedFloat

namespace Scalar

/-! ### Mantissas with a rest -/

/-- The mantissa with its two further digits stands for `x`. -/
def Marks (em : ExtendedMantissa) (x : ℚ) : Prop :=
  match em.roundBit, em.stickyBit with
  | false, false => x = em.mantissa
  | false, true => em.mantissa < x ∧ x < em.mantissa + 1 / 2
  | true, false => x = em.mantissa + 1 / 2
  | true, true => em.mantissa + 1 / 2 < x ∧ x < em.mantissa + 1

variable {em : ExtendedMantissa} {x : ℚ}

theorem marks_exact (m : Nat) : Marks (.ofMantissaAndAccuracy m .exact) m := rfl

theorem Marks.half (h : Marks em x) : Marks em.shiftRightOne (x / 2) := by
  obtain ⟨m, round, sticky⟩ := em
  have hdigits : ((m / 2 : ℕ) : ℚ) * 2 + ((m % 2 : ℕ) : ℚ) = m := by
    exact_mod_cast Nat.div_add_mod' m 2
  -- The last digit of the mantissa becomes the first digit of the rest.
  have hlast : (m % 2 != 0) = false ∧ ((m % 2 : ℕ) : ℚ) = 0 ∨
      (m % 2 != 0) = true ∧ ((m % 2 : ℕ) : ℚ) = 1 := by
    rcases Nat.mod_two_eq_zero_or_one m with hm | hm <;> rw [hm] <;> norm_num
  rcases hlast with ⟨hbit, hdigit⟩ | ⟨hbit, hdigit⟩ <;>
    rw [hdigit] at hdigits <;>
    cases round <;> cases sticky <;>
    simp only [Marks, ExtendedMantissa.shiftRightOne, hbit, Bool.or_self, Bool.or_true,
      Bool.or_false] at h ⊢ <;>
    first
      | linarith
      | constructor <;> linarith

theorem Marks.shift (h : Marks em x) (k : Nat) : Marks (em >>> k) (x / 2 ^ k) := by
  induction k with
  | zero =>
    rw [pow_zero, div_one]
    exact h
  | succ k ih =>
    rw [pow_succ, ← div_div]
    exact ih.half

/-- The rounded mantissa is the integer nearest to what the mantissa stands for. -/
theorem Marks.nearestInt (h : Marks em x) : NearestInt x em.roundedMantissa := by
  obtain ⟨m, round, sticky⟩ := em
  cases round <;> cases sticky
  · have hx : x = ((m : ℤ) : ℚ) := h
    rw [hx]
    exact nearestInt_self m
  · obtain ⟨hlow, hhigh⟩ : (m : ℚ) < x ∧ x < m + 1 / 2 := h
    have hdist : |x - ((m : ℤ) : ℚ)| < 1 / 2 := by
      rw [abs_lt, Int.cast_natCast]
      constructor <;> linarith
    exact ⟨hdist.le, fun htie => absurd htie hdist.ne⟩
  · have hx : x = m + 1 / 2 := h
    -- halfway between two integers, the even one is taken
    show NearestInt x ((m + m % 2 : ℕ) : ℤ)
    rcases Nat.mod_two_eq_zero_or_one m with hm | hm
    · rw [hm, hx]
      exact ⟨by norm_num, fun _ => (Int.even_coe_nat _).mpr (Nat.even_iff.mpr hm)⟩
    · rw [hm, hx]
      refine ⟨?_, fun _ => (Int.even_coe_nat _).mpr (Nat.even_iff.mpr (by omega))⟩
      rw [abs_le]
      push_cast
      constructor <;> linarith
  · obtain ⟨hlow, hhigh⟩ : (m : ℚ) + 1 / 2 < x ∧ x < m + 1 := h
    have hdist : |x - (((m + 1 : ℕ) : ℤ) : ℚ)| < 1 / 2 := by
      rw [abs_lt, Int.cast_natCast, Nat.cast_add, Nat.cast_one]
      constructor <;> linarith
    exact ⟨hdist.le, fun htie => absurd htie hdist.ne⟩

theorem Marks.floor (h : Marks em x) : em.mantissa ≤ x ∧ x < em.mantissa + 1 := by
  obtain ⟨m, round, sticky⟩ := em
  cases round <;> cases sticky <;> simp only [Marks] at h ⊢ <;> constructor <;> linarith

theorem mantissa_ofMantissaAndAccuracy (m : Nat) (acc : Accuracy) :
    (ExtendedMantissa.ofMantissaAndAccuracy m acc).mantissa = m := by
  rcases acc with _ | (_ | _ | _) <;> rfl

/-! ### Rounding -/

variable {m : Nat} {e : Int} {acc : Accuracy} {q : ℚ}

/-- The leading digit of a mantissa is that of the number it stands for. -/
theorem log_of_marks (hq : 0 < q) (hm : 0 < m)
    (hmarks : Marks (.ofMantissaAndAccuracy m acc) (q / 2 ^ e)) :
    Int.log 2 q = m.log2 + e := by
  obtain ⟨hlow, hhigh⟩ := hmarks.floor
  rw [mantissa_ofMantissaAndAccuracy] at hlow hhigh
  rw [le_div_iff₀ (two_zpow_pos e)] at hlow
  rw [div_lt_iff₀ (two_zpow_pos e)] at hhigh
  have hlead : 2 ^ m.log2 ≤ m := Nat.log2_self_le hm.ne'
  have hnext : m + 1 ≤ 2 ^ (m.log2 + 1) := Nat.lt_log2_self
  have hge : m.log2 + e ≤ Int.log 2 q := by
    rw [← Int.zpow_le_iff_le_log (by norm_num) hq]
    push_cast
    rw [two_zpow_add, zpow_natCast]
    refine le_trans (mul_le_mul_of_nonneg_right ?_ (two_zpow_pos e).le) hlow
    exact_mod_cast hlead
  have hlt : Int.log 2 q < m.log2 + 1 + e := by
    rw [← Int.lt_zpow_iff_log_lt (by norm_num) hq]
    push_cast
    rw [two_zpow_add]
    refine lt_of_lt_of_le hhigh (mul_le_mul_of_nonneg_right ?_ (two_zpow_pos e).le)
    exact_mod_cast hnext
  omega

theorem targetExponent_of_log (hq : 0 < q) (hlog : Int.log 2 q = m.log2 + e) :
    Format.binary32.targetExponent (totalExponent m e) = lastPlace q := by
  rw [targetExponent_eq]
  unfold totalExponent lastPlace
  rw [abs_of_pos hq, hlog]
  omega

/-- The place at which rounding cuts is the last place of the exact result. -/
theorem targetExponent_of_marks (hq : 0 < q)
    (hmarks : Marks (.ofMantissaAndAccuracy m acc) (q / 2 ^ e)) (hplace : e ≤ lastPlace q) :
    Format.binary32.targetExponent (totalExponent m e) = lastPlace q := by
  rcases Nat.eq_zero_or_pos m with rfl | hm
  · -- a result without a digit is below the lowest place
    have hsmall := hmarks.floor.2
    rw [mantissa_ofMantissaAndAccuracy, div_lt_iff₀ (two_zpow_pos e), Nat.cast_zero, zero_add,
      one_mul] at hsmall
    have hlog : Int.log 2 q < e := by
      rw [← Int.lt_zpow_iff_log_lt (by norm_num) hq]
      exact_mod_cast hsmall
    have hzero : Nat.log2 0 = 0 := by decide
    rw [targetExponent_eq]
    unfold totalExponent
    unfold lastPlace at hplace ⊢
    rw [abs_of_pos hq] at hplace ⊢
    rw [hzero]
    omega
  · exact targetExponent_of_log hq (log_of_marks hq hm hmarks)

/-- The second shift of rounding repairs a mantissa that has got one digit too many. -/
theorem carry {r : Nat} {p : Int} (hr : r ≤ 2 ^ 24) (hp : -149 ≤ p)
    (hfull : -149 < p → 2 ^ 23 ≤ r) :
    let last := shiftToTargetExponent .binary32 r p .exact
    Placed last.1.mantissa last.2 ∧ (last.1.mantissa * 2 ^ last.2 : ℚ) = r * 2 ^ p := by
  intro last
  obtain ⟨hmant, hexp⟩ := shiftToTargetExponent_eq r p .exact
  rw [targetExponent_eq] at hmant hexp
  unfold totalExponent at hmant hexp
  rcases hr.lt_or_eq with hlt | rfl
  · have hlog : r.log2 ≤ 23 := by
      rcases Nat.eq_zero_or_pos r with rfl | hpos
      · decide
      · exact Nat.lt_succ_iff.mp ((Nat.log2_lt hpos.ne').mpr hlt)
    have hshift : (max ((r.log2 : Int) + 1 + p - 24) (-149) - p).toNat = 0 := by omega
    rw [hshift] at hmant hexp
    have hmant : last.1.mantissa = r := by rw [hmant, pow_zero, Nat.div_one]
    have hexp : last.2 = p := by rw [hexp]; simp
    rw [hmant, hexp]
    exact ⟨⟨hlt, hp, hfull⟩, rfl⟩
  · have hlog : (2 ^ 24 : Nat).log2 = 24 := Nat.log2_two_pow
    rw [hlog] at hmant hexp
    have hshift : (max (((24 : Nat) : Int) + 1 + p - 24) (-149) - p).toNat = 1 := by omega
    rw [hshift] at hmant hexp
    have hmant : last.1.mantissa = 2 ^ 23 := hmant
    have hexp : last.2 = p + 1 := hexp
    rw [hmant, hexp]
    refine ⟨⟨by decide, by omega, fun _ => le_rfl⟩, ?_⟩
    rw [two_zpow_add]
    push_cast
    ring

theorem rational_finite (s : Sign) {hm : 0 < m} :
    rational (.finite s m e hm) = s.apply 1 * (m * 2 ^ e) := by
  cases s with
  | negative => rw [rational_negative]; norm_num [Sign.apply]
  | positive => rw [rational_positive]; norm_num [Sign.apply]

/-- The unpacked value is what rounding makes of `q`. -/
structure Result (q : ℚ) (a : UnpackedFloat) : Prop where
  rounded : Rounded a
  number : a.isFinite = true
  near : Rounds q (rational a)

theorem Result.of_magnitude {s : Sign} {a : UnpackedFloat} {v : ℚ} (rounded : Rounded a)
    (number : a.isFinite = true) (hv : Rounds q v) (ha : rational a = s.apply 1 * v) :
    Result (s.apply 1 * q) a := by
  refine ⟨rounded, number, ?_⟩
  rw [ha]
  cases s with
  | negative =>
    norm_num [Sign.apply]
    exact hv.neg
  | positive =>
    norm_num [Sign.apply]
    exact hv

/-- **Rounding.** A mantissa that stands for a positive number is rounded to the nearest one. -/
theorem rounding (s : Sign) (hq : 0 < q)
    (hmarks : Marks (.ofMantissaAndAccuracy m acc) (q / 2 ^ e)) (hplace : e ≤ lastPlace q) :
    Result (s.apply 1 * q) (roundWithAccuracy .binary32 s m e acc) := by
  obtain ⟨k, hk⟩ := Int.le.dest hplace
  have hfirst : shiftToTargetExponent .binary32 m e acc =
      (ExtendedMantissa.ofMantissaAndAccuracy m acc >>> k, lastPlace q) := by
    have hshift : (lastPlace q - e).toNat = k := by omega
    unfold shiftToTargetExponent shiftToExponent
    simp only [targetExponent_of_marks hq hmarks hplace, hshift, hk]
  have hshifted :
      Marks (ExtendedMantissa.ofMantissaAndAccuracy m acc >>> k) (q / 2 ^ lastPlace q) := by
    have hscale : q / 2 ^ lastPlace q = q / 2 ^ e / 2 ^ k := by
      rw [← hk, two_zpow_add, zpow_natCast, div_div]
    rw [hscale]
    exact hmarks.shift k
  have hnear := hshifted.nearestInt
  generalize ExtendedMantissa.ofMantissaAndAccuracy m acc >>> k = em at hfirst hnear
  have hlow : -149 ≤ lastPlace q := le_max_right _ _
  have hshort : em.roundedMantissa ≤ 2 ^ 24 := by
    have hlt := lt_of_lastPlace q
    rw [abs_of_pos hq, add_comm, two_zpow_add] at hlt
    have hle : (em.roundedMantissa : ℤ) ≤ 2 ^ 24 := by
      refine hnear.mono (nearestInt_self (2 ^ 24)) ?_
      rw [div_le_iff₀ (two_zpow_pos _)]
      exact_mod_cast hlt.le
    exact_mod_cast hle
  have hfull : -149 < lastPlace q → 2 ^ 23 ≤ em.roundedMantissa := by
    intro habove
    have hge := le_of_lastPlace hq.ne' habove
    rw [abs_of_pos hq, add_comm, two_zpow_add] at hge
    have hle : (2 ^ 23 : ℤ) ≤ em.roundedMantissa := by
      refine (nearestInt_self (2 ^ 23)).mono hnear ?_
      rw [le_div_iff₀ (two_zpow_pos _)]
      exact_mod_cast hge
    exact_mod_cast hle
  obtain ⟨hplaced, hvalue⟩ := carry hshort hlow hfull
  have hrounds : Rounds q (em.roundedMantissa * 2 ^ lastPlace q) :=
    ⟨em.roundedMantissa, hnear, by rw [Int.cast_natCast]⟩
  simp only [roundWithAccuracy, hfirst]
  split
  · rename_i hzero
    rw [hzero, Nat.cast_zero, zero_mul] at hvalue
    refine .of_magnitude trivial rfl hrounds ?_
    rw [← hvalue, mul_zero]
    rfl
  · refine .of_magnitude hplaced rfl hrounds ?_
    rw [rational_finite, hvalue]

theorem result_round (s : Sign) (hm : 0 < m) (e : Int) :
    Result (s.apply 1 * (m * 2 ^ e)) (UnpackedFloat.round .binary32 s m e) := by
  have hq := magnitude_pos hm e
  have hmarks : Marks (.ofMantissaAndAccuracy m .exact) (m * 2 ^ e / 2 ^ e) := by
    rw [mul_div_cancel_right₀ _ (two_zpow_pos e).ne']
    exact marks_exact m
  have htarget := targetExponent_of_log hq (log_of_marks hq hm hmarks)
  -- Rounding starts with a shift to the left, so that no digit is missing at the last place.
  unfold UnpackedFloat.round decreaseExponent
  simp only [htarget]
  generalize hk : (e - lastPlace (m * 2 ^ e)).toNat = k
  refine rounding s hq ?_ (by omega)
  have hscale : (m * 2 ^ e / 2 ^ (e - k) : ℚ) = ((m <<< k : ℕ) : ℚ) := by
    rw [div_eq_iff (two_zpow_pos _).ne', Nat.shiftLeft_eq]
    push_cast
    rw [mul_assoc, ← zpow_natCast, ← two_zpow_add]
    congr 2
    omega
  rw [hscale]
  exact marks_exact _

/-- Rounding a signed mantissa. -/
theorem result_normalize (n e : Int) (zeroSign : Sign) :
    Result (n * 2 ^ e) (UnpackedFloat.normalize .binary32 n e zeroSign) := by
  unfold UnpackedFloat.normalize
  rcases lt_trichotomy n 0 with hlt | rfl | hgt
  · rw [compare_lt_iff_lt.mpr hlt]
    have hresult := result_round .negative (m := (-n).toNat) (by omega) e
    have hcast : (((-n).toNat : ℕ) : ℚ) = -n := by
      have hnat : (((-n).toNat : ℕ) : ℤ) = -n := Int.toNat_of_nonneg (by omega)
      exact_mod_cast hnat
    rw [hcast] at hresult
    have hsign : (n * 2 ^ e : ℚ) = (Sign.apply .negative 1 : ℤ) * (-n * 2 ^ e) := by
      norm_num [Sign.apply]
    rw [hsign]
    exact hresult
  · refine ⟨trivial, rfl, ?_⟩
    rw [Int.cast_zero, zero_mul]
    exact rounds_zero
  · rw [compare_gt_iff_gt.mpr hgt]
    have hresult := result_round .positive (m := n.toNat) (by omega) e
    have hcast : ((n.toNat : ℕ) : ℚ) = n := by
      have hnat : ((n.toNat : ℕ) : ℤ) = n := Int.toNat_of_nonneg (by omega)
      exact_mod_cast hnat
    rw [hcast] at hresult
    have hsign : (n * 2 ^ e : ℚ) = (Sign.apply .positive 1 : ℤ) * (n * 2 ^ e) := by
      norm_num [Sign.apply]
    rw [hsign]
    exact hresult

/-! ### The operations on unpacked numbers -/

variable {a b : UnpackedFloat}

theorem abs_apply (s : Sign) (m : Nat) : |s.apply (m : ℤ)| = m := by
  cases s with
  | negative => exact (abs_neg _).trans (Nat.abs_cast m)
  | positive => exact Nat.abs_cast m

/-- A number of the layout is its own rounded result. -/
theorem result_self (ha : Canonical a) (h : a.isFinite = true) : Result (rational a) a := by
  cases a with
  | notANumber | infinity => cases h
  | zero => exact ⟨trivial, rfl, rounds_zero⟩
  | finite s m e hm =>
    refine ⟨ha.placed, rfl, ?_⟩
    have hself : Rounds ((s.apply m : ℤ) * 2 ^ e) ((s.apply m : ℤ) * 2 ^ e) := by
      refine rounds_self ?_ ha.low
      rw [abs_apply]
      exact_mod_cast ha.width
    exact hself

/-- A mantissa moved to a smaller exponent. -/
theorem decreaseExponent_rational (s : Sign) (m : Nat) {d : Int} (h : d ≤ e) :
    ((s.apply ((decreaseExponent m e d).1 : ℤ) : ℤ) * 2 ^ d : ℚ) = (s.apply m : ℤ) * 2 ^ e := by
  obtain ⟨k, rfl⟩ := Int.le.dest h
  have hmant : ((decreaseExponent m (d + k) d).1 : ℤ) = m * 2 ^ k := by
    have hshift : (d + k - d).toNat = k := by omega
    simp only [decreaseExponent, hshift, Nat.shiftLeft_eq]
    push_cast
    rfl
  rw [hmant, two_zpow_add, zpow_natCast]
  cases s <;> simp only [Sign.apply] <;> push_cast <;> ring

theorem result_add (ha : Canonical a) (hb : Canonical b) (hfa : a.isFinite = true)
    (hfb : b.isFinite = true) :
    Result (rational a + rational b) (UnpackedFloat.add .binary32 a b) := by
  cases a with
  | notANumber | infinity => cases hfa
  | zero s =>
    rw [rational_zero, zero_add]
    cases b with
    | notANumber | infinity => cases hfb
    | zero t => cases s <;> cases t <;> exact ⟨trivial, rfl, rounds_zero⟩
    | finite => exact result_self hb hfb
  | finite s m e hm =>
    cases b with
    | notANumber | infinity => cases hfb
    | zero t =>
      rw [rational_zero, add_zero]
      exact result_self ha hfa
    | finite t n f hn =>
      have hsum : rational (.finite s m e hm) + rational (.finite t n f hn) =
          ((s.apply (decreaseExponent m e (min e f)).1 +
            t.apply (decreaseExponent n f (min e f)).1 : ℤ) : ℚ) * 2 ^ min e f := by
        push_cast
        rw [add_mul, decreaseExponent_rational s m (min_le_left e f),
          decreaseExponent_rational t n (min_le_right e f)]
        rfl
      rw [hsum]
      exact result_normalize _ _ _

theorem apply_mul (s t : Sign) : (s * t).apply 1 = s.apply 1 * t.apply 1 := by
  cases s <;> cases t <;> rfl

theorem apply_div (s t : Sign) : (s / t).apply 1 = s.apply 1 * t.apply 1 := by
  cases s <;> cases t <;> rfl

theorem apply_one_mul_self (s : Sign) : ((s.apply 1 : ℤ) : ℚ) * (s.apply 1 : ℤ) = 1 := by
  cases s <;> norm_num [Sign.apply]

theorem le_log_of_magnitude {d : ℤ} (hq : 0 < q) (h : 2 ^ d ≤ q) : d ≤ Int.log 2 q := by
  rw [← Int.zpow_le_iff_le_log (by norm_num) hq]
  exact_mod_cast h

theorem magnitude_mul (m n : Nat) (e f : Int) :
    (m * 2 ^ e * (n * 2 ^ f) : ℚ) = (m * n : ℕ) * 2 ^ (e + f) := by
  rw [two_zpow_add]
  push_cast
  ring

/-- The product of two full mantissas, or of a full and a short one, is long enough to be
rounded. -/
theorem le_lastPlace_mul {n : Nat} {f : Int} (hm : 0 < m) (hn : 0 < n) (ha : Held m e)
    (hb : Held n f) : e + f ≤ lastPlace (m * 2 ^ e * (n * 2 ^ f)) := by
  have hpos : (0 : ℚ) < m * 2 ^ e * (n * 2 ^ f) := mul_pos (magnitude_pos hm e) (magnitude_pos hn f)
  by_cases hlow : e = -149 ∧ f = -149
  · exact le_trans (by omega) (le_max_right _ _)
  · have hlong : 2 ^ 23 ≤ m * n := by
      have hlow' : e ≠ -149 ∨ f ≠ -149 := by tauto
      rcases hlow' with he | hf
      · exact le_trans (ha.normal (lt_of_le_of_ne ha.low he.symm)) (Nat.le_mul_of_pos_right m hn)
      · exact le_trans (hb.normal (lt_of_le_of_ne hb.low hf.symm)) (Nat.le_mul_of_pos_left n hm)
    have hlog : 23 + (e + f) ≤ Int.log 2 (m * 2 ^ e * (n * 2 ^ f) : ℚ) := by
      refine le_log_of_magnitude hpos ?_
      rw [magnitude_mul, two_zpow_add]
      refine mul_le_mul_of_nonneg_right ?_ (two_zpow_pos _).le
      exact_mod_cast hlong
    unfold lastPlace
    rw [abs_of_pos hpos]
    omega

theorem result_mul (ha : Canonical a) (hb : Canonical b) (hfa : a.isFinite = true)
    (hfb : b.isFinite = true) :
    Result (rational a * rational b) (UnpackedFloat.mul .binary32 a b) := by
  cases a with
  | notANumber | infinity => cases hfa
  | zero s =>
    rw [rational_zero, zero_mul]
    cases b with
    | notANumber | infinity => cases hfb
    | zero | finite => exact ⟨trivial, rfl, rounds_zero⟩
  | finite s m e hm =>
    cases b with
    | notANumber | infinity => cases hfb
    | zero t =>
      rw [rational_zero, mul_zero]
      exact ⟨trivial, rfl, rounds_zero⟩
    | finite t n f hn =>
      have hsigned : rational (.finite s m e hm) * rational (.finite t n f hn) =
          ((s * t).apply 1 : ℤ) * (m * 2 ^ e * (n * 2 ^ f)) := by
        rw [rational_finite, rational_finite, apply_mul]
        push_cast
        ring
      rw [hsigned]
      refine rounding (s * t) (mul_pos (magnitude_pos hm e) (magnitude_pos hn f)) ?_ ?_
      · rw [magnitude_mul, mul_div_cancel_right₀ _ (two_zpow_pos _).ne']
        exact marks_exact _
      · exact le_lastPlace_mul hm hn ha hb

/-- Division with remainder gives the mantissa of a quotient, and its rest. -/
theorem marks_quotient (m : Nat) {n : Nat} (hn : 0 < n) :
    Marks (.ofMantissaAndAccuracy (m / n) (accuracyOfFraction (m % n) n)) (m / n) := by
  have hn' : (0 : ℚ) < n := Nat.cast_pos.mpr hn
  have hrest : m % n < n := Nat.mod_lt m hn
  have hsplit : (m / n : ℚ) = (m / n : ℕ) + (m % n : ℕ) / n := by
    rw [div_eq_iff hn'.ne', add_mul, div_mul_cancel₀ _ hn'.ne']
    exact_mod_cast (Nat.div_add_mod' m n).symm
  generalize m % n = r at hrest hsplit
  generalize m / n = d at hsplit
  rw [hsplit]
  unfold accuracyOfFraction
  by_cases hzero : r = 0
  · rw [if_pos hzero, hzero, Nat.cast_zero, zero_div, add_zero]
    exact marks_exact d
  · rw [if_neg hzero]
    have hpos : (0 : ℚ) < r / n := div_pos (Nat.cast_pos.mpr (Nat.pos_of_ne_zero hzero)) hn'
    rcases lt_trichotomy (2 * r) n with hlt | heq | hgt
    · rw [compare_lt_iff_lt.mpr hlt]
      have hhalf : (r / n : ℚ) < 1 / 2 := by
        rw [div_lt_div_iff₀ hn' (by norm_num)]
        exact_mod_cast (by omega : r * 2 < 1 * n)
      show (d : ℚ) < d + r / n ∧ (d + r / n : ℚ) < d + 1 / 2
      constructor <;> linarith
    · rw [compare_eq_iff_eq.mpr heq]
      have hhalf : (r / n : ℚ) = 1 / 2 := by
        rw [div_eq_div_iff hn'.ne' (by norm_num)]
        exact_mod_cast (by omega : r * 2 = 1 * n)
      rw [hhalf]
      rfl
    · rw [compare_gt_iff_gt.mpr hgt]
      have hhalf : (1 / 2 : ℚ) < r / n := by
        rw [div_lt_div_iff₀ (by norm_num) hn']
        exact_mod_cast (by omega : 1 * n < r * 2)
      have hone : (r / n : ℚ) < 1 := by
        rw [div_lt_one hn']
        exact_mod_cast hrest
      show (d : ℚ) + 1 / 2 < d + r / n ∧ (d + r / n : ℚ) < d + 1
      constructor <;> linarith

/-- The leading digit of a quotient, from those of the mantissas. -/
theorem le_log_div {n : Nat} {f : Int} (hm : 0 < m) (hn : 0 < n) :
    m.log2 + e - (n.log2 + 1 + f) ≤ Int.log 2 (m * 2 ^ e / (n * 2 ^ f) : ℚ) := by
  refine le_log_of_magnitude (div_pos (magnitude_pos hm e) (magnitude_pos hn f)) ?_
  rw [le_div_iff₀ (magnitude_pos hn f)]
  have hlead : ((2 ^ m.log2 : ℕ) : ℚ) ≤ m := Nat.cast_le.mpr (Nat.log2_self_le hm.ne')
  have hnext : (n : ℚ) ≤ (2 ^ (n.log2 + 1) : ℕ) := Nat.cast_le.mpr Nat.lt_log2_self.le
  push_cast at hlead hnext
  calc (2 ^ (m.log2 + e - (n.log2 + 1 + f)) * (n * 2 ^ f) : ℚ)
      ≤ 2 ^ (m.log2 + e - (n.log2 + 1 + f)) * (2 ^ (n.log2 + 1) * 2 ^ f) :=
        mul_le_mul_of_nonneg_left
          (mul_le_mul_of_nonneg_right hnext (two_zpow_pos f).le) (two_zpow_pos _).le
    _ = 2 ^ m.log2 * 2 ^ e := by
        rw [← zpow_natCast, ← zpow_natCast, ← two_zpow_add, ← two_zpow_add, ← two_zpow_add]
        congr 1
        push_cast
        omega
    _ ≤ m * 2 ^ e := mul_le_mul_of_nonneg_right hlead (two_zpow_pos e).le

/-- A quotient counted in units of `2 ^ d`, by a shift of the first mantissa. -/
theorem quotient_shifted {n k : Nat} {f d : Int} (hk : e = d + f + k) :
    (m * 2 ^ e / (n * 2 ^ f) / 2 ^ d : ℚ) = (m <<< k : ℕ) / n := by
  have hd := (two_zpow_pos d).ne'
  have hf := (two_zpow_pos f).ne'
  rw [hk, two_zpow_add, two_zpow_add, zpow_natCast, Nat.shiftLeft_eq]
  push_cast
  field_simp

theorem result_div (ha : Canonical a) (hb : Canonical b) (hfa : a.isFinite = true)
    (hfb : b.isFinite = true) (hzero : rational b ≠ 0) :
    Result (rational a / rational b) (UnpackedFloat.div .binary32 a b) := by
  cases b with
  | notANumber | infinity => cases hfb
  | zero => exact absurd rfl hzero
  | finite t n f hn =>
    cases a with
    | notANumber | infinity => cases hfa
    | zero s =>
      rw [rational_zero, zero_div]
      exact ⟨trivial, rfl, rounds_zero⟩
    | finite s m e hm =>
      have hpos : (0 : ℚ) < m * 2 ^ e / (n * 2 ^ f) :=
        div_pos (magnitude_pos hm e) (magnitude_pos hn f)
      have hsigned : rational (.finite s m e hm) / rational (.finite t n f hn) =
          ((s / t).apply 1 : ℤ) * (m * 2 ^ e / (n * 2 ^ f)) := by
        have hself := apply_one_mul_self t
        have hne : ((t.apply 1 : ℤ) : ℚ) ≠ 0 := left_ne_zero_of_mul_eq_one hself
        rw [rational_finite, rational_finite, apply_div, mul_div_mul_comm, Int.cast_mul,
          div_eq_of_eq_mul hne (by rw [mul_assoc, hself, mul_one])]
      rw [hsigned]
      show Result _ (roundWithAccuracy .binary32 (s / t) (divCore .binary32 m e n f).1
          (divCore .binary32 m e n f).2.1 (divCore .binary32 m e n f).2.2)
      unfold divCore
      simp only [targetExponent_eq]
      generalize hd : min (e - f) (max (totalExponent m e - totalExponent n f - 24) (-149)) = d
      generalize hk : (e - f - d).toNat = k
      refine rounding (s / t) hpos ?_ ?_
      · rw [quotient_shifted (k := k) (by omega)]
        exact marks_quotient _ hn
      · have hlog := le_log_div (e := e) (f := f) hm hn
        unfold lastPlace
        rw [abs_of_pos hpos]
        unfold totalExponent at hd
        omega

end Scalar
end Volley
