/-
# Square roots are not too small

The root of a scalar is taken of its mantissa, shifted so that enough digits are left, and what
is beyond them is only compared with a half (`exists_marks`). That is enough to say where the
result is rounded to: a root of what is at least `2 ^ (2 * j)` is at least `2 ^ j`
(`two_zpow_le_sqrt`).

Key definitions: `Scalar.rootPlace`.
Key theorems: `Scalar.two_zpow_le_root`, `Scalar.result_sqrt`, `Scalar.two_zpow_le_sqrt`.
-/
import Volley.Proofs.Scalar.Operations

namespace Volley

open Float.Model Float.Model.UnpackedFloat

namespace Scalar

variable {m : Nat} {e d : Int} {x : Scalar}

theorem rounds_two_zpow {k : Int} (hk : -149 ≤ k) : Rounds (2 ^ k) (2 ^ k) := by
  have hself := rounds_self (n := 1) (by norm_num) hk
  rwa [Int.cast_one, one_mul] at hself

/-- Every mantissa with its rest stands for some number, and that is not below the mantissa. -/
theorem exists_marks (r : Nat) (acc : Accuracy) :
    ∃ y : ℚ, Marks (.ofMantissaAndAccuracy r acc) y ∧ r ≤ y := by
  cases acc with
  | exact => exact ⟨r, marks_exact r, le_rfl⟩
  | inexact o =>
    cases o with
    | lt =>
      refine ⟨r + 1 / 4, ?_, by linarith⟩
      show (r : ℚ) < r + 1 / 4 ∧ (r + 1 / 4 : ℚ) < r + 1 / 2
      constructor <;> linarith
    | eq => exact ⟨r + 1 / 2, rfl, by linarith⟩
    | gt =>
      refine ⟨r + 3 / 4, ?_, by linarith⟩
      show (r + 1 / 2 : ℚ) < r + 3 / 4 ∧ (r + 3 / 4 : ℚ) < r + 1
      constructor <;> linarith

/-- The integer root of a mantissa has the leading digit of the root. -/
theorem two_zpow_le_root {n : Nat} (hn : 0 < n) {j : Int}
    (h : 2 ^ (2 * j) ≤ (n * 2 ^ (2 * d) : ℚ)) : 2 ^ j ≤ (n.sqrt * 2 ^ d : ℚ) := by
  rcases lt_or_ge j d with hlt | hge
  · -- one unit is enough
    have hone : (1 : ℚ) ≤ n.sqrt := by exact_mod_cast Nat.sqrt_pos.mpr hn
    exact (two_zpow_le hlt.le).trans (le_mul_of_one_le_left (two_zpow_pos d).le hone)
  · obtain ⟨k, hk⟩ := Int.le.dest hge
    have hsplit : (2 : ℚ) ^ (2 * j) = ((2 ^ k * 2 ^ k : ℕ) : ℚ) * 2 ^ (2 * d) := by
      rw [← hk]
      push_cast
      rw [← zpow_natCast, ← two_zpow_add, ← two_zpow_add]
      congr 1
      omega
    rw [hsplit] at h
    have hsquare : 2 ^ k * 2 ^ k ≤ n := by
      exact_mod_cast le_of_mul_le_mul_right h (two_zpow_pos (2 * d))
    have hroot : ((2 ^ k : ℕ) : ℚ) ≤ n.sqrt := by exact_mod_cast Nat.le_sqrt.mpr hsquare
    calc (2 : ℚ) ^ j = ((2 ^ k : ℕ) : ℚ) * 2 ^ d := by
          rw [← hk, add_comm, two_zpow_add, zpow_natCast, Nat.cast_pow, Nat.cast_two]
      _ ≤ n.sqrt * 2 ^ d := mul_le_mul_of_nonneg_right hroot (two_zpow_pos d).le

/-- The place of the last digit of a root, before it is rounded. -/
def rootPlace (m : Nat) (e : Int) : Int :=
  min (e / 2) (max ((totalExponent m e + 1) / 2 - 24) (-149))

theorem sqrtCore_eq (m : Nat) (e : Int) :
    ∃ acc, sqrtCore .binary32 m e =
      ((m <<< (e - 2 * rootPlace m e).toNat).sqrt, rootPlace m e, acc) := by
  have hplace : min (e.ediv 2)
      (Format.binary32.targetExponent ((totalExponent m e + 1).ediv 2)) = rootPlace m e := by
    rw [targetExponent_eq]
    rfl
  unfold sqrtCore
  simp only [hplace]
  exact ⟨_, rfl⟩

/-- The root of a positive scalar is some number, rounded, that has the leading digit of the
root. -/
theorem result_sqrt (hm : 0 < m) (e : Int) :
    ∃ q : ℚ, Result q (UnpackedFloat.sqrt .binary32 (.finite .positive m e hm)) ∧
      ∀ j : Int, 2 ^ (2 * j) ≤ (m * 2 ^ e : ℚ) → 2 ^ j ≤ q := by
  obtain ⟨acc, hcore⟩ := sqrtCore_eq m e
  have hhalf := Int.mul_ediv_self_le (x := e) (k := 2) (by norm_num)
  have hplace : rootPlace m e ≤ e / 2 := min_le_left _ _
  have hplace' : rootPlace m e ≤ max ((totalExponent m e + 1) / 2 - 24) (-149) := min_le_right _ _
  generalize rootPlace m e = d at hcore hplace hplace'
  generalize hk : (e - 2 * d).toNat = k at hcore
  have hexponent : e = 2 * d + k := by omega
  have hshift : (m * 2 ^ e : ℚ) = (m <<< k : ℕ) * 2 ^ (2 * d) := by
    rw [Nat.shiftLeft_eq, hexponent, two_zpow_add, zpow_natCast]
    push_cast
    ring
  have hn : 0 < m <<< k := by
    rw [Nat.shiftLeft_eq]
    positivity
  obtain ⟨y, hmarks, hle⟩ := exists_marks (m <<< k).sqrt acc
  have hlead (j : Int) (hj : 2 ^ (2 * j) ≤ (m * 2 ^ e : ℚ)) : 2 ^ j ≤ y * 2 ^ d := by
    rw [hshift] at hj
    exact (two_zpow_le_root hn hj).trans (mul_le_mul_of_nonneg_right hle (two_zpow_pos d).le)
  have hone : (1 : ℚ) ≤ (m <<< k).sqrt := by exact_mod_cast Nat.sqrt_pos.mpr hn
  have hpos : 0 < y * 2 ^ d := mul_pos (by linarith) (two_zpow_pos d)
  -- the shift leaves as many digits as the layout has
  have hlog : (m.log2 + e) / 2 ≤ Int.log 2 (y * 2 ^ d) := by
    refine le_log_of_magnitude hpos (hlead _ ?_)
    have hfirst : ((2 ^ m.log2 : ℕ) : ℚ) ≤ m := Nat.cast_le.mpr (Nat.log2_self_le hm.ne')
    push_cast at hfirst
    refine le_trans (two_zpow_le (Int.mul_ediv_self_le (by norm_num))) ?_
    rw [two_zpow_add, zpow_natCast]
    exact mul_le_mul_of_nonneg_right hfirst (two_zpow_pos e).le
  have hlast : d ≤ lastPlace (y * 2 ^ d) := by
    unfold lastPlace
    rw [abs_of_pos hpos]
    unfold totalExponent at hplace'
    omega
  have hscale : y * 2 ^ d / 2 ^ d = y := mul_div_cancel_right₀ y (two_zpow_pos d).ne'
  have hresult := rounding .positive hpos (by rw [hscale]; exact hmarks) hlast
  have hsign : ((Sign.apply .positive 1 : ℤ) : ℚ) = 1 := by norm_num [Sign.apply]
  rw [hsign, one_mul] at hresult
  refine ⟨y * 2 ^ d, ?_, hlead⟩
  show Result _ (roundWithAccuracy .binary32 .positive (sqrtCore .binary32 m e).1
    (sqrtCore .binary32 m e).2.1 (sqrtCore .binary32 m e).2.2)
  rw [hcore]
  exact hresult

/-- **Roots are not too small.** The root of what is at least a square of a power of two is at
least that power, if it is finite. -/
theorem two_zpow_le_sqrt (hx : x.sqrt.isFinite = true) {j : Int} (hj : -149 ≤ j)
    (h : 2 ^ (2 * j) ≤ x.value) : 2 ^ j ≤ Scalar.value x.sqrt := by
  have hpos : 0 < x.value := lt_of_lt_of_le (two_zpow_pos _) h
  have hfinite := isFinite_iff.mp (isFinite_of_sqrt hx)
  have hroot : ∃ q : ℚ, Nearest q x.sqrt ∧ 2 ^ j ≤ q := by
    show ∃ q : ℚ, Nearest q (.ofModel (.pack (.sqrt .binary32 x.unpacked))) ∧ _
    unfold value at h hpos
    generalize x.unpacked = a at h hpos hfinite
    cases a with
    | notANumber | infinity => cases hfinite
    | zero => exact absurd hpos (lt_irrefl 0)
    | finite s m e hm =>
      cases s with
      | negative =>
        rw [rational_negative] at hpos
        exact absurd (magnitude_pos hm e) (by linarith)
      | positive =>
        obtain ⟨q, hresult, hlead⟩ := result_sqrt hm e
        exact ⟨q, hresult.nearest, hlead j h⟩
  obtain ⟨q, hnear, hle⟩ := hroot
  exact (rounds_two_zpow hj).mono (hnear.rounds_value hx) hle

end Scalar
end Volley
