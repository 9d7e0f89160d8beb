/-
# Rounding rational numbers

A scalar has 24 binary digits, none of them below the place -149. `Rounds q v` says that `v`
is the number of that kind which is nearest to `q`; of two that are equally near, the one
whose last digit is even. The exponent is not bounded above here: what is too large is dealt
with when the result is stored.

Rounding keeps the order, so its result is unique (`Rounds.mono`); it leaves alone what it can
represent (`rounds_self`), and moves a number by at most half a unit of its last place
(`Rounds.error`).

Key definitions: `Scalar.NearestInt`, `Scalar.lastPlace`, `Scalar.Rounds`.
Key theorems: `Scalar.Rounds.mono`, `Scalar.rounds_self`, `Scalar.Rounds.error`.
-/
import Mathlib.Data.Int.Log
import Mathlib.Tactic

namespace Volley

namespace Scalar

/-! ### The nearest integer -/

/-- `n` is an integer nearest to `x`, and even if another one is as near. -/
structure NearestInt (x : ℚ) (n : ℤ) : Prop where
  near : |x - n| ≤ 1 / 2
  tie : |x - n| = 1 / 2 → Even n

theorem nearestInt_self (n : ℤ) : NearestInt n n where
  near := by norm_num
  tie h := by norm_num at h

theorem NearestInt.neg {x : ℚ} {n : ℤ} (h : NearestInt x n) : NearestInt (-x) (-n) := by
  have hdist : |-x - ((-n : ℤ) : ℚ)| = |x - n| := by
    rw [Int.cast_neg, neg_sub_neg, abs_sub_comm]
  exact ⟨hdist ▸ h.near, fun htie => (h.tie (hdist ▸ htie)).neg⟩

theorem NearestInt.mono {x y : ℚ} {m n : ℤ} (hx : NearestInt x m) (hy : NearestInt y n)
    (h : x ≤ y) : m ≤ n := by
  by_contra hlt
  have hstep : (n : ℚ) + 1 ≤ m := by
    exact_mod_cast Int.add_one_le_iff.mpr (not_le.mp hlt)
  have hbelow := (abs_le.mp hx.near).1
  have habove := (abs_le.mp hy.near).2
  -- Both lie halfway between the neighbours `n` and `m`, of which only one is even.
  have hm := hx.tie (by rw [show x - m = -(1 / 2) by linarith]; norm_num)
  have hn := hy.tie (by rw [show y - n = 1 / 2 by linarith]; norm_num)
  have hnext : m = n + 1 := by
    have hcast : (m : ℚ) = n + 1 := by linarith
    exact_mod_cast hcast
  rw [hnext] at hm
  exact Int.not_even_iff_odd.mpr hn.add_one hm

/-! ### The nearest number -/

/-- The place of the last digit of a number of the size of `q`. -/
def lastPlace (q : ℚ) : ℤ := max (Int.log 2 |q| - 23) (-149)

theorem lastPlace_neg (q : ℚ) : lastPlace (-q) = lastPlace q := by
  unfold lastPlace
  rw [abs_neg]

theorem two_zpow_pos (e : ℤ) : (0 : ℚ) < 2 ^ e := zpow_pos (by norm_num) e

theorem two_zpow_le {d e : ℤ} (h : d ≤ e) : (2 : ℚ) ^ d ≤ 2 ^ e :=
  zpow_le_zpow_right₀ (by norm_num) h

theorem two_zpow_add (d e : ℤ) : (2 : ℚ) ^ (d + e) = 2 ^ d * 2 ^ e :=
  zpow_add₀ (by norm_num) d e

/-- The mantissa of a number has at most 24 digits. -/
theorem lt_of_lastPlace (q : ℚ) : |q| < 2 ^ (lastPlace q + 24) := by
  have hlog : |q| < 2 ^ (Int.log 2 |q| + 1) := by
    exact_mod_cast Int.lt_zpow_succ_log_self (b := 2) (by norm_num) |q|
  refine lt_of_lt_of_le hlog (two_zpow_le ?_)
  unfold lastPlace
  omega

/-- It has all 24 of them if the place of its last one is not the lowest. -/
theorem le_of_lastPlace {q : ℚ} (hq : q ≠ 0) (h : -149 < lastPlace q) :
    2 ^ (lastPlace q + 23) ≤ |q| := by
  have hlog : (2 : ℚ) ^ Int.log 2 |q| ≤ |q| := by
    exact_mod_cast Int.zpow_log_le_self (b := 2) (by norm_num) (abs_pos.mpr hq)
  refine le_trans (two_zpow_le ?_) hlog
  unfold lastPlace at h ⊢
  omega

theorem lastPlace_mono {p q : ℚ} (hp : p ≠ 0) (h : |p| ≤ |q|) : lastPlace p ≤ lastPlace q := by
  have hlog := Int.log_mono_right (b := 2) (abs_pos.mpr hp) h
  unfold lastPlace
  omega

theorem lastPlace_le {q : ℚ} {k : ℤ} (hk : -125 ≤ k) (hq : q ≠ 0) (h : |q| < 2 ^ k) :
    lastPlace q ≤ k - 24 := by
  have hlog : Int.log 2 |q| < k := by
    rw [← Int.lt_zpow_iff_log_lt (by norm_num) (abs_pos.mpr hq)]
    exact_mod_cast h
  unfold lastPlace
  omega

/-- `v` is the number nearest to `q`. -/
def Rounds (q v : ℚ) : Prop :=
  ∃ n : ℤ, NearestInt (q / 2 ^ lastPlace q) n ∧ v = n * 2 ^ lastPlace q

theorem Rounds.neg {q v : ℚ} (h : Rounds q v) : Rounds (-q) (-v) := by
  obtain ⟨n, hn, rfl⟩ := h
  refine ⟨-n, ?_, ?_⟩
  · rw [lastPlace_neg, neg_div]
    exact hn.neg
  · rw [lastPlace_neg, Int.cast_neg, neg_mul]

theorem rounds_zero : Rounds 0 0 := by
  refine ⟨0, ?_, by norm_num⟩
  rw [zero_div]
  exact_mod_cast nearestInt_self 0

/-- What is a multiple of a place of the layout, and not too long, is not rounded. -/
theorem rounds_self {n e : ℤ} (hn : |n| < 2 ^ 24) (he : -149 ≤ e) :
    Rounds (n * 2 ^ e) (n * 2 ^ e) := by
  by_cases hzero : n = 0
  · rw [hzero, Int.cast_zero, zero_mul]
    exact rounds_zero
  have hq : (n * 2 ^ e : ℚ) ≠ 0 :=
    mul_ne_zero (Int.cast_ne_zero.mpr hzero) (two_zpow_pos e).ne'
  have hplace : lastPlace (n * 2 ^ e) ≤ e := by
    have hlt : |(n * 2 ^ e : ℚ)| < 2 ^ (24 + e) := by
      rw [abs_mul, abs_of_pos (two_zpow_pos e), two_zpow_add]
      exact mul_lt_mul_of_pos_right (by exact_mod_cast hn) (two_zpow_pos e)
    have hle := lastPlace_le (by omega) hq hlt
    omega
  obtain ⟨k, hk⟩ := Int.le.dest hplace
  have hmult : (n * 2 ^ e / 2 ^ lastPlace (n * 2 ^ e) : ℚ) = ((n * 2 ^ k : ℤ) : ℚ) := by
    rw [div_eq_iff (two_zpow_pos _).ne']
    push_cast
    rw [mul_assoc, ← zpow_natCast, ← two_zpow_add, add_comm, hk]
  refine ⟨n * 2 ^ k, ?_, ?_⟩
  · rw [hmult]
    exact nearestInt_self _
  · rw [← hmult, div_mul_cancel₀ _ (two_zpow_pos _).ne']

theorem Rounds.nonneg {q v : ℚ} (h : Rounds q v) (hq : 0 ≤ q) : 0 ≤ v := by
  obtain ⟨n, hn, rfl⟩ := h
  have hpos : (0 : ℤ) ≤ n := by
    refine (nearestInt_self 0).mono hn ?_
    exact_mod_cast div_nonneg hq (two_zpow_pos _).le
  exact mul_nonneg (Int.cast_nonneg hpos) (two_zpow_pos _).le

theorem Rounds.nonpos {q v : ℚ} (h : Rounds q v) (hq : q ≤ 0) : v ≤ 0 :=
  neg_nonneg.mp (h.neg.nonneg (neg_nonneg.mpr hq))

/-- Rounding keeps the order of positive numbers. -/
theorem Rounds.mono_of_pos {p q u v : ℚ} (hu : Rounds p u) (hv : Rounds q v) (hp : 0 < p)
    (h : p ≤ q) : u ≤ v := by
  have hq : 0 < q := lt_of_lt_of_le hp h
  have hplace : lastPlace p ≤ lastPlace q :=
    lastPlace_mono hp.ne' (by rwa [abs_of_pos hp, abs_of_pos hq])
  have hlong := lt_of_lastPlace p
  have hfull := le_of_lastPlace hq.ne'
  rw [abs_of_pos hp] at hlong
  rw [abs_of_pos hq] at hfull
  obtain ⟨m, hm, rfl⟩ := hu
  obtain ⟨n, hn, rfl⟩ := hv
  rcases hplace.lt_or_eq with hlt | heq
  · -- `2 ^ 23` units of the last place of `q` lie between the two.
    have hbelow : m ≤ 2 ^ 24 := by
      refine hm.mono (nearestInt_self (2 ^ 24)) ?_
      rw [div_le_iff₀ (two_zpow_pos _)]
      rw [add_comm, two_zpow_add] at hlong
      exact_mod_cast hlong.le
    have habove : 2 ^ 23 ≤ n := by
      refine (nearestInt_self (2 ^ 23)).mono hn ?_
      rw [le_div_iff₀ (two_zpow_pos _)]
      have hfull := hfull (by unfold lastPlace at hlt ⊢; omega)
      rw [add_comm, two_zpow_add] at hfull
      exact_mod_cast hfull
    calc (m : ℚ) * 2 ^ lastPlace p
        ≤ 2 ^ 24 * 2 ^ lastPlace p :=
          mul_le_mul_of_nonneg_right (by exact_mod_cast hbelow) (two_zpow_pos _).le
      _ = 2 ^ 23 * 2 ^ (lastPlace p + 1) := by rw [two_zpow_add]; ring
      _ ≤ 2 ^ 23 * 2 ^ lastPlace q :=
          mul_le_mul_of_nonneg_left (two_zpow_le hlt) (by norm_num)
      _ ≤ n * 2 ^ lastPlace q :=
          mul_le_mul_of_nonneg_right (by exact_mod_cast habove) (two_zpow_pos _).le
  · rw [heq] at hm ⊢
    have hmn : m ≤ n := hm.mono hn (div_le_div_of_nonneg_right h (two_zpow_pos _).le)
    exact mul_le_mul_of_nonneg_right (Int.cast_le.mpr hmn) (two_zpow_pos _).le

/-- **Rounding keeps the order.** So a number is rounded in one way only. -/
theorem Rounds.mono {p q u v : ℚ} (hu : Rounds p u) (hv : Rounds q v) (h : p ≤ q) : u ≤ v := by
  rcases lt_or_ge 0 p with hp | hp
  · exact hu.mono_of_pos hv hp h
  · rcases lt_or_ge q 0 with hq | hq
    · exact neg_le_neg_iff.mp (hv.neg.mono_of_pos hu.neg (neg_pos.mpr hq) (neg_le_neg h))
    · exact le_trans (hu.nonpos hp) (hv.nonneg hq)

theorem Rounds.unique {q u v : ℚ} (hu : Rounds q u) (hv : Rounds q v) : u = v :=
  le_antisymm (hu.mono hv le_rfl) (hv.mono hu le_rfl)

/-- Rounding moves a number by at most half a unit of its last place. -/
theorem Rounds.error {q v : ℚ} (h : Rounds q v) : |v - q| ≤ 2 ^ lastPlace q / 2 := by
  obtain ⟨n, hn, rfl⟩ := h
  have hpos := two_zpow_pos (lastPlace q)
  have hscale : n * 2 ^ lastPlace q - q = -(q / 2 ^ lastPlace q - n) * 2 ^ lastPlace q := by
    field_simp
    ring
  rw [hscale, abs_mul, abs_neg, abs_of_pos hpos]
  calc |q / 2 ^ lastPlace q - n| * 2 ^ lastPlace q
      ≤ 1 / 2 * 2 ^ lastPlace q := mul_le_mul_of_nonneg_right hn.near hpos.le
    _ = 2 ^ lastPlace q / 2 := by ring

/-- Below `2 ^ k` that is at most `2 ^ (k - 25)`. -/
theorem Rounds.error_le {q v : ℚ} (h : Rounds q v) {k : ℤ} (hk : -125 ≤ k) (hq : |q| < 2 ^ k) :
    |v - q| ≤ 2 ^ (k - 25) := by
  by_cases hzero : q = 0
  · subst hzero
    rw [h.unique rounds_zero, sub_eq_zero_of_eq rfl, abs_zero]
    exact (two_zpow_pos _).le
  · have hplace : lastPlace q ≤ k - 25 + 1 := by
      have hle := lastPlace_le hk hzero hq
      omega
    calc |v - q| ≤ 2 ^ lastPlace q / 2 := h.error
      _ ≤ 2 ^ (k - 25 + 1) / 2 := by linarith [two_zpow_le hplace]
      _ = 2 ^ (k - 25) := by rw [two_zpow_add]; ring

end Scalar

end Volley
