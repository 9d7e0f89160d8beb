/-
# Which operations give a number

An operation on scalars is the exact operation, rounded and stored (`isFinite_pack`). So what
is not finite stays so in sums and roots; a square is a number only if its side is below
`2⁶⁴`; and such a number, divided by one above `epsilon`, gives a number again. This is why
the unit vector of any vector is finite, whatever its coordinates.

Key definitions: `Scalar.unpacked`, `Scalar.Below`.
Key theorems: `Scalar.isFinite_of_add`, `Scalar.isFinite_of_sqrt`, `Scalar.below_of_mul_self`,
`Scalar.isFinite_div`, `Scalar.sub_self`, `Vec2.isFinite_normalizeOrZero`,
`Vec2.distance_self`.
-/
import Volley.Proofs.Scalar.Rounding
import Volley.Vec2

namespace Volley

open Float.Model Float.Model.UnpackedFloat

namespace Scalar

variable {x y : Scalar}

/-- Sign, mantissa and exponent of a scalar. -/
def unpacked (x : Scalar) : UnpackedFloat := x.toModel.unpack

theorem isFinite_add : (x + y).isFinite = true ↔ Stored (.add .binary32 x.unpacked y.unpacked) :=
  isFinite_pack _

theorem isFinite_mul : (x * y).isFinite = true ↔ Stored (.mul .binary32 x.unpacked y.unpacked) :=
  isFinite_pack _

theorem isFinite_div_iff :
    (x / y).isFinite = true ↔ Stored (.div .binary32 x.unpacked y.unpacked) :=
  isFinite_pack _

theorem isFinite_sqrt : x.sqrt.isFinite = true ↔ Stored (.sqrt .binary32 x.unpacked) :=
  isFinite_pack _

theorem isFinite_iff : x.isFinite = true ↔ x.unpacked.isFinite = true := Iff.rfl

/-- Only numbers have a sum that is a number. -/
theorem isFinite_of_add (h : (x + y).isFinite = true) :
    x.isFinite = true ∧ y.isFinite = true := by
  rw [isFinite_add] at h
  rw [isFinite_iff, isFinite_iff]
  generalize x.unpacked = a at h
  generalize y.unpacked = b at h
  cases a with
  | notANumber => exact h.elim
  | infinity s =>
    cases b with
    | infinity t => cases s <;> cases t <;> exact False.elim h
    | notANumber | zero | finite => exact False.elim h
  | zero | finite =>
    cases b with
    | zero | finite => exact ⟨rfl, rfl⟩
    | notANumber | infinity => exact False.elim h

/-- Only a number has a root that is a number. -/
theorem isFinite_of_sqrt (h : x.sqrt.isFinite = true) : x.isFinite = true := by
  rw [isFinite_sqrt] at h
  rw [isFinite_iff]
  generalize x.unpacked = a at h
  cases a with
  | notANumber => exact h.elim
  | infinity s => cases s <;> exact h.elim
  | zero => rfl
  | finite => rfl

/-- The magnitude of the number is less than `2 ^ k`. -/
def Below (k : Int) (x : Scalar) : Prop :=
  match x.unpacked with
  | .zero _ => True
  | .finite _ m e _ => totalExponent m e ≤ k
  | _ => False

theorem log2_mul_self {m : Nat} (hm : 0 < m) : 2 * m.log2 ≤ (m * m).log2 := by
  have hself := Nat.log2_self_le (Nat.ne_of_gt hm)
  rw [Nat.le_log2 (Nat.ne_of_gt (Nat.mul_pos hm hm)), Nat.two_mul, Nat.pow_add]
  exact Nat.mul_le_mul hself hself

/-- A square that is a number is the square of one below `2⁶⁴`. -/
theorem below_of_mul_self (h : (x * x).isFinite = true) : x.Below 64 := by
  rw [isFinite_mul] at h
  unfold Below
  generalize x.unpacked = a at h
  cases a with
  | notANumber => exact h.elim
  | infinity => exact h.elim
  | zero => trivial
  | finite s m e hm =>
    have hsize : totalExponent (m * m) (e + e) ≤ 128 :=
      totalExponent_of_stored (Nat.mul_pos hm hm) h
    have hlog := log2_mul_self hm
    simp only
    unfold totalExponent at hsize ⊢
    omega

theorem le_iff : x ≤ y ↔ UnpackedFloat.le x.unpacked y.unpacked = true :=
  decide_eq_true_iff

theorem unpacked_epsilon : epsilon.unpacked = .finite .positive (2 ^ 23) (-46) (by decide) := by
  rfl

/-- A number above `epsilon` is positive, and not tiny. -/
theorem unpacked_of_gt_epsilon (hy : y.isFinite = true) (h : ¬y ≤ epsilon) :
    ∃ m e hm, y.unpacked = .finite .positive m e hm ∧ Held m e ∧ -46 ≤ e := by
  rw [le_iff, unpacked_epsilon] at h
  rw [isFinite_iff] at hy
  cases hu : y.unpacked with
  | notANumber => rw [hu] at hy; cases hy
  | infinity => rw [hu] at hy; cases hy
  | zero => rw [hu] at h; exact absurd rfl h
  | finite s m e hm =>
    rw [hu] at h
    cases s with
    | negative => exact absurd rfl h
    | positive =>
      refine ⟨m, e, hm, rfl, held_of_unpack hu, ?_⟩
      by_contra hlow
      have hcmp : compare e (-46) = .lt := Int.compare_eq_lt.mpr (Int.not_le.mp hlow)
      apply h
      simp [UnpackedFloat.le, UnpackedFloat.compare, hcmp]

theorem log2_shiftLeft {m : Nat} (hm : 0 < m) (k : Nat) : (m <<< k).log2 = m.log2 + k := by
  have hpos : m <<< k ≠ 0 := Nat.ne_of_gt (Nat.shiftLeft_pos_iff.mpr hm)
  rw [Nat.log2_eq_iff hpos, Nat.shiftLeft_eq]
  constructor
  · rw [Nat.pow_add]
    exact Nat.mul_le_mul_right _ (Nat.log2_self_le (Nat.ne_of_gt hm))
  · rw [Nat.add_right_comm, Nat.pow_add]
    exact Nat.mul_lt_mul_of_pos_right Nat.lt_log2_self (Nat.two_pow_pos k)

/-- The size of the quotient that division rounds. -/
theorem totalExponent_divCore {m n : Nat} (hm : 0 < m) (hn : 0 < n) (e f : Int) :
    let size := totalExponent m e - totalExponent n f
    let quotient := divCore .binary32 m e n f
    quotient.2.1 ≤ Format.binary32.targetExponent size ∧
      totalExponent quotient.1 quotient.2.1 ≤ max (size + 1) (quotient.2.1 + 1) := by
  unfold divCore
  simp only
  generalize Format.binary32.targetExponent (totalExponent m e - totalExponent n f) = target
  refine ⟨min_le_right _ _, ?_⟩
  generalize hk : (e - f - min (e - f) target).toNat = k
  have hquot : m <<< k / n ≤ m <<< k / 2 ^ n.log2 :=
    Nat.div_le_div_left (Nat.log2_self_le (Nat.ne_of_gt hn)) (Nat.two_pow_pos n.log2)
  have hlog := log2_mono hquot
  rw [log2_div_pow, log2_shiftLeft hm] at hlog
  unfold totalExponent
  omega

/-- The quotient of a number below `2⁶⁴` and one above `epsilon` is a number. -/
theorem isFinite_div (hx : x.Below 64) (hy : y.isFinite = true) (hlarge : ¬y ≤ epsilon) :
    (x / y).isFinite = true := by
  obtain ⟨n, f, hn, hunpack, hheld, hf⟩ := unpacked_of_gt_epsilon hy hlarge
  rw [isFinite_div_iff, hunpack]
  unfold Below at hx
  cases hu : x.unpacked with
  | notANumber => rw [hu] at hx; exact hx.elim
  | infinity => rw [hu] at hx; exact hx.elim
  | zero => trivial
  | finite s m e hm =>
    rw [hu] at hx
    have hn' : 23 ≤ n.log2 := (Nat.le_log2 (Nat.ne_of_gt hn)).mpr (hheld.normal (by omega))
    have hsize : totalExponent m e - totalExponent n f ≤ 86 := by
      have hx : totalExponent m e ≤ 64 := hx
      unfold totalExponent at hx ⊢
      omega
    obtain ⟨hexp, hquot⟩ := totalExponent_divCore hm hn e f
    rw [targetExponent_eq] at hexp
    have hround : UnpackedFloat.div .binary32 (.finite s m e hm) (.finite .positive n f hn) =
        roundWithAccuracy .binary32 (s / .positive) (divCore .binary32 m e n f).1
          (divCore .binary32 m e n f).2.1 (divCore .binary32 m e n f).2.2 := rfl
    rw [hround]
    exact stored_round _ _ (by omega) (by omega)

theorem sub_self (h : x.isFinite = true) : x - x = 0.0 := by
  have hsub : x - x = .ofModel (.pack (.sub .binary32 x.unpacked x.unpacked)) := rfl
  have hzero : UnpackedFloat.sub .binary32 x.unpacked x.unpacked = .zero .positive := by
    rw [isFinite_iff] at h
    generalize x.unpacked = a at h
    cases a with
    | notANumber => cases h
    | infinity => cases h
    | zero s => cases s <;> rfl
    | finite s m e hm =>
      simp only [UnpackedFloat.sub, Int.sub_self, UnpackedFloat.normalize]
      rfl
  rw [hsub, hzero]
  rfl

end Scalar

namespace Vec2

open Scalar

/-- A vector of finite length is short enough to be divided. -/
theorem below_of_isFinite_length {a : Vec2} (h : a.length.isFinite = true) :
    a.x.Below 64 ∧ a.y.Below 64 := by
  obtain ⟨hx, hy⟩ := isFinite_of_add (isFinite_of_sqrt h)
  exact ⟨below_of_mul_self hx, below_of_mul_self hy⟩

/-- Whatever the vector, its unit vector has finite coordinates. -/
theorem isFinite_normalizeOrZero (a : Vec2) : a.normalizeOrZero.isFinite = true := by
  unfold normalizeOrZero
  simp only
  split
  · rfl
  · rename_i h
    rw [Bool.or_eq_true, not_or, Bool.not_eq_true', Bool.not_eq_false, decide_eq_true_eq] at h
    obtain ⟨hfinite, hlarge⟩ := h
    obtain ⟨hx, hy⟩ := below_of_isFinite_length hfinite
    unfold isFinite
    rw [isFinite_div hx hfinite hlarge, isFinite_div hy hfinite hlarge]
    rfl

theorem distance_self {a : Vec2} (h : a.isFinite = true) : a.distance a = 0.0 := by
  unfold isFinite at h
  rw [Bool.and_eq_true] at h
  have hzero : a - a = zero := congrArg₂ Vec2.mk (Scalar.sub_self h.1) (Scalar.sub_self h.2)
  rw [distance, hzero]
  decide +kernel

end Vec2

end Volley
