/-
# What rounding keeps of the size of a number

The size of a number is the place of its leading binary digit, `totalExponent`. Rounding
to binary32 raises it by one at most, and does not lower it unless the number is tiny.
So a result that is stored as a number comes from an exact result below `2¹²⁸`, and an
exact result below `2¹²⁷` is stored as a number.

Key definitions: `Scalar.Stored`, `Scalar.Held`.
Key theorems: `Scalar.isFinite_pack`, `Scalar.held_of_unpack`, `Scalar.stored_round`,
`Scalar.totalExponent_of_stored`.
-/
import Mathlib
import Volley.Scalar

namespace Volley

open Float.Model Float.Model.UnpackedFloat

namespace Scalar

/-! ### The layout -/

/-- The layout has a number for this rounded result: the result is not too large. -/
def Stored : UnpackedFloat → Prop
  | .zero _ => True
  | .finite _ _ e _ => e ≤ 104
  | _ => False

/-- What mantissas and exponents the layout has. -/
structure Held (m : Nat) (e : Int) : Prop where
  width : m < 2 ^ 24
  low : -149 ≤ e
  high : e ≤ 104
  normal : -149 < e → 2 ^ 23 ≤ m

variable {b : BitVec Format.binary32.numBits}

/-- Bits are a number unless their exponent field is full. -/
theorem isFinite_unpack :
    (UnpackedFloat.unpack .binary32 b).isFinite = true ↔ unpackExponent b ≠ 255#8 := by
  unfold UnpackedFloat.unpack
  simp only
  split
  · rename_i hfull
    have hfull : unpackExponent b = 255#8 := hfull
    split <;> simp [UnpackedFloat.isFinite, hfull]
  · rename_i hfull
    have hfull : unpackExponent b ≠ 255#8 := hfull
    split
    · split <;> simp [UnpackedFloat.isFinite, hfull]
    · simp [UnpackedFloat.isFinite, hfull]

theorem held_of_unpack {s : Sign} {m : Nat} {e : Int} {hm : 0 < m}
    (h : UnpackedFloat.unpack .binary32 b = .finite s m e hm) : Held m e := by
  have hexp : (unpackExponent b).toNat < 256 := (unpackExponent b).isLt
  have hmant : (unpackMantissa b).toNat < 2 ^ 23 := (unpackMantissa b).isLt
  have hbias : (Format.binary32.exponentBias : Int) = 127 := rfl
  have hwidth : (Format.binary32.mantissaBitsWithoutImplicit : Int) = 23 := rfl
  unfold UnpackedFloat.unpack at h
  simp only [hbias, hwidth] at h
  split at h
  · split at h <;> cases h
  · rename_i hfull
    have hfull : (unpackExponent b).toNat ≠ 255 :=
      fun heq => hfull (BitVec.eq_of_toNat_eq heq)
    split at h
    · rename_i hzero
      split at h
      · cases h
      · simp only [hzero, UnpackedFloat.finite.injEq] at h
        obtain ⟨-, rfl, rfl⟩ := h
        exact ⟨by omega, by decide, by decide, fun hlow => absurd hlow (by decide)⟩
    · rename_i hzero
      have hzero : (unpackExponent b).toNat ≠ 0 := fun heq => hzero (BitVec.eq_of_toNat_eq heq)
      rw [UnpackedFloat.finite.injEq] at h
      obtain ⟨-, rfl, rfl⟩ := h
      have happ : (1#1 ++ unpackMantissa b).toNat = 2 ^ 23 + (unpackMantissa b).toNat := by
        rw [BitVec.toNat_append, ← Nat.shiftLeft_add_eq_or_of_lt (unpackMantissa b).isLt]
        rfl
      exact ⟨by omega, by omega, by omega, fun _ => by omega⟩

theorem isFinite_pack (f : UnpackedFloat) : (Float32.Model.pack f).isFinite = true ↔ Stored f := by
  have hunpack : (Float32.Model.pack f).isFinite =
      (UnpackedFloat.unpack .binary32 (UnpackedFloat.pack .binary32 f)).isFinite := rfl
  rw [hunpack, isFinite_unpack]
  cases f with
  | notANumber => simp [UnpackedFloat.pack, packedNaN, Stored]
  | infinity s => simp [UnpackedFloat.pack, packedInfinity, Stored]
  | zero s => simp [UnpackedFloat.pack, packedZero, Stored]
  | finite s m e hm =>
    have hbiased : (e + Format.binary32.exponentBias +
        Format.binary32.mantissaBitsWithoutImplicit).toNat = (e + 150).toNat := by
      have hbias : (Format.binary32.exponentBias : Int) = 127 := rfl
      have hwidth : (Format.binary32.mantissaBitsWithoutImplicit : Int) = 23 := rfl
      rw [hbias, hwidth]
      congr 1
      omega
    unfold UnpackedFloat.pack
    simp only [hbiased]
    by_cases hlarge : 2 ^ 8 ≤ (e + 150).toNat + 1
    · rw [if_pos hlarge]
      have he : ¬e ≤ 104 := by omega
      simp [packedInfinity, Stored, he]
    · rw [if_neg hlarge]
      have he : e ≤ 104 := by omega
      split
      · have hne : BitVec.ofNat 8 (e + 150).toNat ≠ 255#8 := by
          intro heq
          have heq := congrArg BitVec.toNat heq
          rw [BitVec.toNat_ofNat, Nat.mod_eq_of_lt (by omega)] at heq
          have heq : (e + 150).toNat = 255 := heq
          omega
        rw [unpackExponent_packComponents]
        exact iff_of_true hne he
      · rw [unpackExponent_packComponents]
        exact iff_of_true (by decide) he

/-! ### Shifting and rounding -/

variable {m : Nat} {e : Int} {acc : Accuracy}

theorem mantissa_shiftRight (em : ExtendedMantissa) (k : Nat) :
    (em >>> k).mantissa = em.mantissa / 2 ^ k := by
  induction k with
  | zero => exact (Nat.div_one em.mantissa).symm
  | succ k ih =>
    have hstep : (em >>> (k + 1)).mantissa = (em >>> k).mantissa / 2 := rfl
    rw [hstep, ih, Nat.div_div_eq_div_mul, ← Nat.pow_succ]

theorem mantissa_le_rounded (em : ExtendedMantissa) :
    em.mantissa ≤ em.roundedMantissa ∧ em.roundedMantissa ≤ em.mantissa + 1 := by
  have hodd : em.mantissa % 2 ≤ 1 := Nat.lt_succ_iff.mp (Nat.mod_lt _ (by decide))
  rcases em with ⟨m, _ | _, _ | _⟩
  · exact ⟨Nat.le_refl m, Nat.le_succ m⟩
  · exact ⟨Nat.le_refl m, Nat.le_succ m⟩
  · exact ⟨Nat.le_add_right m _, Nat.add_le_add_left hodd m⟩
  · exact ⟨Nat.le_succ m, Nat.le_refl (m + 1)⟩

/-- The exponent that a number of the given size has in the layout. -/
theorem targetExponent_eq (size : Int) :
    Format.binary32.targetExponent size = max (size - 24) (-149) := rfl

theorem shiftToTargetExponent_eq (m : Nat) (e : Int) (acc : Accuracy) :
    let t := Format.binary32.targetExponent (totalExponent m e)
    (shiftToTargetExponent .binary32 m e acc).1.mantissa = m / 2 ^ (t - e).toNat ∧
      (shiftToTargetExponent .binary32 m e acc).2 = e + (t - e).toNat := by
  intro t
  constructor
  · have hshift : (shiftToTargetExponent .binary32 m e acc).1 =
        ExtendedMantissa.ofMantissaAndAccuracy m acc >>> (t - e).toNat := rfl
    have hmant : (ExtendedMantissa.ofMantissaAndAccuracy m acc).mantissa = m := by
      rcases acc with _ | (_ | _ | _) <;> rfl
    rw [hshift, mantissa_shiftRight, hmant]
  · rfl

theorem log2_div_pow (m k : Nat) : (m / 2 ^ k).log2 = m.log2 - k := by
  rw [Nat.log2_eq_log_two, Nat.log2_eq_log_two, Nat.log_div_base_pow]

theorem log2_mono {m n : Nat} (h : m ≤ n) : m.log2 ≤ n.log2 := by
  rw [Nat.log2_eq_log_two, Nat.log2_eq_log_two]
  exact Nat.log_mono_right h

theorem log2_succ_le (m : Nat) : (m + 1).log2 ≤ m.log2 + 1 := by
  rw [← Nat.lt_succ_iff, Nat.log2_lt (Nat.succ_ne_zero m), Nat.pow_succ]
  have hm := Nat.lt_log2_self (n := m)
  have hpos := Nat.two_pow_pos (m.log2 + 1)
  omega

/-- The size after a shift by `k` and a rounding of the mantissa to `r`. -/
theorem totalExponent_shifted {r k : Nat} (hlow : m / 2 ^ k ≤ r) (hhigh : r ≤ m / 2 ^ k + 1) :
    totalExponent m e ≤ totalExponent r (e + k) ∧
      totalExponent r (e + k) ≤ max (totalExponent m e + 1) (e + k + 2) := by
  have hr := log2_mono hlow
  have hr' := Nat.le_trans (log2_mono hhigh) (log2_succ_le _)
  rw [log2_div_pow] at hr hr'
  unfold totalExponent
  omega

/-- A number that is not tiny keeps its leading digit when it is shifted. -/
theorem shifted_pos (hm : 0 < m) (hsize : -148 ≤ totalExponent m e) :
    0 < m / 2 ^ (Format.binary32.targetExponent (totalExponent m e) - e).toNat := by
  have hself := Nat.log2_self_le (Nat.ne_of_gt hm)
  refine Nat.div_pos (Nat.le_trans (Nat.pow_le_pow_right (by decide) ?_) hself) (Nat.two_pow_pos _)
  rw [targetExponent_eq]
  unfold totalExponent at hsize ⊢
  omega

/-- **Rounding.** It gives zero for tiny numbers only. Else the exponent of the result lies
between those that the layout has for the number and for its double. -/
theorem round_cases (s : Sign) (m : Nat) (e : Int) (acc : Accuracy) :
    (roundWithAccuracy .binary32 s m e acc = .zero s ∧ (0 < m → totalExponent m e < -148)) ∨
      ∃ m' e', ∃ hm' : 0 < m', roundWithAccuracy .binary32 s m e acc = .finite s m' e' hm' ∧
        Format.binary32.targetExponent (totalExponent m e) ≤ e' ∧
        e' ≤ max e (Format.binary32.targetExponent (totalExponent m e + 1)) := by
  obtain ⟨hfirst, hexp⟩ := shiftToTargetExponent_eq m e acc
  obtain ⟨hlow, hhigh⟩ := mantissa_le_rounded (shiftToTargetExponent .binary32 m e acc).1
  unfold roundWithAccuracy
  generalize shiftToTargetExponent .binary32 m e acc = first at hfirst hexp hlow hhigh
  obtain ⟨em, e₁⟩ := first
  simp only at hfirst hexp hlow hhigh ⊢
  rw [hfirst] at hlow hhigh
  generalize em.roundedMantissa = r at hlow hhigh
  -- The second shift only repairs a mantissa that rounding has made one digit longer.
  obtain ⟨hsecond, hexp'⟩ := shiftToTargetExponent_eq r e₁ .exact
  generalize shiftToTargetExponent .binary32 r e₁ .exact = second at hsecond hexp'
  obtain ⟨em', e₂⟩ := second
  simp only at hsecond hexp' ⊢
  obtain ⟨hgrown, hbound⟩ := totalExponent_shifted hlow hhigh (e := e)
  rw [← hexp] at hgrown hbound
  split
  · rename_i hzero
    refine Or.inl ⟨rfl, fun hm => ?_⟩
    by_contra hsize
    have hsize := Int.not_lt.mp hsize
    have hpos := Nat.lt_of_lt_of_le (shifted_pos hm hsize) hlow
    have hpos' := shifted_pos hpos (Int.le_trans hsize hgrown)
    rw [← hsecond, hzero] at hpos'
    exact Nat.lt_irrefl 0 hpos'
  · rename_i hne
    refine Or.inr ⟨em'.mantissa, e₂, Nat.pos_of_ne_zero hne, rfl, by omega, ?_⟩
    rw [targetExponent_eq] at hexp hexp' ⊢
    omega

/-- An exact result below `2¹²⁷` is stored as a number. -/
theorem stored_round (s : Sign) (acc : Accuracy) (he : e ≤ 104) (hsize : totalExponent m e ≤ 127) :
    Stored (roundWithAccuracy .binary32 s m e acc) := by
  rcases round_cases s m e acc with ⟨heq, -⟩ | ⟨m', e', hm', heq, -, hle⟩
  · rw [heq]
    trivial
  · rw [heq]
    rw [targetExponent_eq] at hle
    have hbound : e' ≤ 104 := by omega
    exact hbound

/-- A rounded result that is stored as a number comes from an exact one below `2¹²⁸`. -/
theorem totalExponent_of_stored {s : Sign} (hm : 0 < m)
    (h : Stored (roundWithAccuracy .binary32 s m e acc)) : totalExponent m e ≤ 128 := by
  rcases round_cases s m e acc with ⟨-, htiny⟩ | ⟨m', e', hm', heq, hle, -⟩
  · have hsize := htiny hm
    omega
  · rw [heq] at h
    have hbound : e' ≤ 104 := h
    rw [targetExponent_eq] at hle
    omega

end Scalar

end Volley
