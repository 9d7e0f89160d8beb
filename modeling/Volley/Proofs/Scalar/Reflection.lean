/-
# Reflection at an axis

A surface that is parallel to an axis turns one component of a heading around. That rounds
nothing: the component doubled and taken from itself is its opposite, exactly (`value_mirror`).
So the new heading leads away from the surface if the old one led into it, and the other way
round (`dot_mirrored`).

Key definitions: `Scalar.IsSign`, `Vec2.isAxis`.
Key theorems: `Scalar.value_mirror`, `Vec2.dot_mirrored`.
-/
import Volley.Proofs.Scalar.Signs

namespace Volley

namespace Scalar

variable {x y u σ : Scalar} {q : ℚ}

/-- One or minus one. -/
def IsSign (σ : Scalar) : Prop := σ.isFinite = true ∧ (σ.value = 1 ∨ σ.value = -1)

theorem isSign_of_beq (h : (σ == 1.0) = true ∨ (σ == -1.0) = true) : IsSign σ := by
  have hvalue : σ.isNaN = false ∧ (σ.value = 1 ∨ σ.value = -1) := by
    rcases h with h | h
    · rw [beq_iff_value, value_one] at h
      exact ⟨h.1, Or.inl h.2.2⟩
    · rw [beq_iff_value, value_neg, value_one] at h
      exact ⟨h.1, Or.inr h.2.2⟩
  refine ⟨(isFinite_iff_value hvalue.1).mpr ?_, hvalue.2⟩
  rcases hvalue.2 with h | h <;> rw [h] <;> norm_num

theorem isZero_of_beq (h : (x == 0.0) = true) : IsZero x := by
  rw [beq_iff_value, value_zero] at h
  refine ⟨(isFinite_iff_value h.1).mpr ?_, h.2.2⟩
  rw [h.2.2]
  norm_num

/-- What has the magnitude of a number is not rounded. -/
theorem Nearest.of_magnitude (h : Nearest q y) (hx : x.isFinite = true)
    (hq : q = x.value ∨ q = -x.value) : y.isFinite = true ∧ y.value = q := by
  rcases hq with rfl | rfl
  · exact h.congr (nearest_self hx) hx
  · have hneg := (nearest_self hx).neg
    obtain ⟨hfinite, hvalue⟩ := h.congr hneg ((isFinite_neg x).trans hx)
    exact ⟨hfinite, hvalue.trans (value_neg x)⟩

theorem value_mul_sign (hx : x.isFinite = true) (hσ : IsSign σ) :
    (x * σ).isFinite = true ∧ (x * σ).value = x.value * σ.value := by
  refine (nearest_mul hx hσ.1).of_magnitude hx ?_
  rcases hσ.2 with h | h <;> rw [h]
  · exact Or.inl (mul_one _)
  · exact Or.inr (mul_neg_one _)

theorem value_sign_mul (hx : x.isFinite = true) (hσ : IsSign σ) :
    (σ * x).isFinite = true ∧ (σ * x).value = x.value * σ.value := by
  have hprod := nearest_mul hσ.1 hx
  rw [mul_comm] at hprod
  refine hprod.of_magnitude hx ?_
  rcases hσ.2 with h | h <;> rw [h]
  · exact Or.inl (mul_one _)
  · exact Or.inr (mul_neg_one _)

theorem value_double (hx : x.isFinite = true) (h : (2.0 * x).isFinite = true) :
    (2.0 * x).value = 2 * x.value := by
  have hprod := nearest_mul (x := 2.0) rfl hx
  rw [value_two] at hprod
  obtain ⟨n, e, hn, he, hvalue⟩ := exists_digits hx
  have hself := rounds_self hn (by omega : -149 ≤ e + 1)
  have hshift : (n * 2 ^ (e + 1) : ℚ) = 2 * x.value := by
    rw [hvalue, two_zpow_add]
    ring
  rw [hshift] at hself
  exact (hprod.rounds_value h).unique hself

/-- Along an axis, a reflection turns a component around without rounding it. -/
theorem value_mirror (hσ : IsSign σ) (hmirror : (x - σ * (2.0 * u)).isFinite = true)
    (hu : u.value = x.value * σ.value) : (x - σ * (2.0 * u)).value = -x.value := by
  obtain ⟨hx, htwice⟩ := isFinite_of_sub hmirror
  obtain ⟨-, hdouble⟩ := isFinite_of_mul htwice
  obtain ⟨-, hfu⟩ := isFinite_of_mul hdouble
  have hturn : (σ * (2.0 * u)).value = 2 * x.value := by
    rw [(value_sign_mul hdouble hσ).2, value_double hfu hdouble, hu]
    rcases hσ.2 with h | h <;> rw [h] <;> ring
  have hdiff := nearest_sub hx htwice
  rw [hturn] at hdiff
  have hq : x.value - 2 * x.value = -x.value := by ring
  rw [hq] at hdiff
  exact (hdiff.of_magnitude hx (Or.inr rfl)).2

/-- The component of the new heading along the surface normal, from that of the old one. -/
theorem mirrored_sign {length : Scalar} (hσ : IsSign σ)
    (hmirror : (x - σ * (2.0 * u)).isFinite = true) (hu : u.value = x.value * σ.value)
    (hlength : length.isFinite = true) (hpos : 0 < length.value) :
    (((x - σ * (2.0 * u)) / length).value * σ.value < 0 → 0 < x.value * σ.value) ∧
      (0 < x.value * σ.value → ((x - σ * (2.0 * u)) / length).value * σ.value ≤ 0) := by
  have hquot := nearest_div hmirror hlength hpos.ne'
  rw [value_mirror hσ hmirror hu] at hquot
  have hnonneg (hx : x.value ≤ 0) := hquot.nonneg (div_nonneg (neg_nonneg.mpr hx) hpos.le)
  have hnonpos (hx : 0 ≤ x.value) :=
    hquot.nonpos (div_nonpos_of_nonpos_of_nonneg (neg_nonpos.mpr hx) hpos.le)
  rcases hσ.2 with h | h <;> rw [h]
  · constructor
    · intro hneg
      by_contra hx
      linarith [hnonneg (by linarith)]
    · intro hx
      linarith [hnonpos (by linarith)]
  · constructor
    · intro hneg
      by_contra hx
      linarith [hnonpos (by linarith)]
    · intro hx
      linarith [hnonneg (by linarith)]

end Scalar

namespace Vec2

open Scalar

variable {d n : Vec2}

/-- A unit vector along one of the axes. -/
def isAxis (n : Vec2) : Bool :=
  n == ⟨1.0, 0.0⟩ || n == ⟨-1.0, 0.0⟩ || n == ⟨0.0, 1.0⟩ || n == ⟨0.0, -1.0⟩

theorem axis_cases (h : n.isAxis = true) : IsSign n.x ∧ IsZero n.y ∨ IsZero n.x ∧ IsSign n.y := by
  have hbeq (a b : Scalar) : (n == ⟨a, b⟩) = (n.x == a && n.y == b) := rfl
  unfold isAxis at h
  simp only [hbeq, Bool.or_eq_true, Bool.and_eq_true] at h
  rcases h with ((⟨hx, hy⟩ | ⟨hx, hy⟩) | ⟨hx, hy⟩) | ⟨hx, hy⟩
  · exact Or.inl ⟨isSign_of_beq (Or.inl hx), isZero_of_beq hy⟩
  · exact Or.inl ⟨isSign_of_beq (Or.inr hx), isZero_of_beq hy⟩
  · exact Or.inr ⟨isZero_of_beq hx, isSign_of_beq (Or.inl hy)⟩
  · exact Or.inr ⟨isZero_of_beq hx, isSign_of_beq (Or.inr hy)⟩

theorem dot_horizontal (hd : d.isFinite = true) (hx : IsSign n.x) (hy : IsZero n.y) :
    (d.dot n).isFinite = true ∧ (d.dot n).value = d.x.value * n.x.value := by
  obtain ⟨hdx, hdy⟩ := isFinite_iff.mp hd
  obtain ⟨hfinite, hvalue⟩ := value_mul_sign hdx hx
  rw [← hvalue]
  exact add_isZero hfinite (hy.mul_left hdy)

theorem dot_vertical (hd : d.isFinite = true) (hx : IsZero n.x) (hy : IsSign n.y) :
    (d.dot n).isFinite = true ∧ (d.dot n).value = d.y.value * n.y.value := by
  obtain ⟨hdx, hdy⟩ := isFinite_iff.mp hd
  obtain ⟨hfinite, hvalue⟩ := value_mul_sign hdy hy
  rw [← hvalue]
  exact isZero_add hfinite (hx.mul_left hdx)

theorem isZero_dot (h : n.isAxis = true) : IsZero (zero.dot n) := by
  have hzero : IsZero 0.0 := ⟨rfl, rfl⟩
  rcases axis_cases h with ⟨hx, hy⟩ | ⟨hx, hy⟩
  · exact (hzero.mul_right hx.1).add (hzero.mul_right hy.1)
  · exact (hzero.mul_right hx.1).add (hzero.mul_right hy.1)

/-- A reflection at an axis that can be made a unit vector is that of a finite vector. -/
theorem isFinite_of_reflect (h : (d.reflect n).isFinite = true) : d.isFinite = true := by
  obtain ⟨hx, hy⟩ := isFinite_iff.mp h
  exact isFinite_iff.mpr ⟨(isFinite_of_sub hx).1, (isFinite_of_sub hy).1⟩

/-- The new heading leads into the surface only if the old one leads away from it, and then
it does not lead away as well. -/
theorem dot_mirrored (haxis : n.isAxis = true) :
    let d' := (d.reflect n).normalizeOrZero
    (d'.dot n).isNaN = false ∧
      ((d'.dot n).value < 0 → d.isFinite = true ∧ 0 < (d.dot n).value) ∧
      (0 < (d.dot n).value → (d'.dot n).value ≤ 0) := by
  intro d'
  have hd' : d'.isFinite = true := isFinite_normalizeOrZero _
  rcases normalizeOrZero_cases (d.reflect n) with hzero | ⟨length, hlength, hpos, hreflect, hunit⟩
  · have hnone : IsZero (d'.dot n) := by
      have hd' : d' = zero := hzero
      rw [hd']
      exact isZero_dot haxis
    refine ⟨isNaN_of_isFinite hnone.1, fun hneg => ?_, fun _ => hnone.2.le⟩
    exact absurd hnone.2 hneg.ne
  · have hd := isFinite_of_reflect hreflect
    obtain ⟨hx, hy⟩ := isFinite_iff.mp hreflect
    have hunit' : d' = ⟨(d.reflect n).x / length, (d.reflect n).y / length⟩ := hunit
    rcases axis_cases haxis with ⟨hσ, hζ⟩ | ⟨hζ, hσ⟩
    · obtain ⟨hfinite, hold⟩ := dot_horizontal hd hσ hζ
      obtain ⟨hfinite', hnew⟩ := dot_horizontal hd' hσ hζ
      obtain ⟨hinto, haway⟩ := mirrored_sign hσ hx hold hlength hpos
      refine ⟨isNaN_of_isFinite hfinite', ?_⟩
      rw [hnew, hold, hunit']
      exact ⟨fun h => ⟨hd, hinto h⟩, haway⟩
    · obtain ⟨hfinite, hold⟩ := dot_vertical hd hζ hσ
      obtain ⟨hfinite', hnew⟩ := dot_vertical hd' hζ hσ
      obtain ⟨hinto, haway⟩ := mirrored_sign hσ hy hold hlength hpos
      refine ⟨isNaN_of_isFinite hfinite', ?_⟩
      rw [hnew, hold, hunit']
      exact ⟨fun h => ⟨hd, hinto h⟩, haway⟩

end Vec2

end Volley
