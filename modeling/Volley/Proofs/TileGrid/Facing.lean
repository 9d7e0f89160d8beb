/-
# The surface normal faces the segment

Each component of the normal has the sign against the step in which the obstacle was entered,
whichever way the normal was found (`normalBetween_against`). The probes of a sweep do not turn
around, so it is also against the way from the start to the end of the segment
(`firstHit_against`).

Key definitions: `TileGrid.Against`.
Key theorems: `TileGrid.normalBetween_against`, `TileGrid.firstHit_against`.
-/
import Volley.Proofs.TileGrid.Probes

namespace Volley

namespace TileGrid

/-- The sign of `n` is against the way from `s` to `t`. -/
def Against (n s t : Scalar) : Prop := (0 < n.value → t < s) ∧ (n.value < 0 → s < t)

variable {n s t : Scalar}

theorem against_of_zero (h : n.value = 0) : Against n s t :=
  ⟨fun hpos => absurd h hpos.ne', fun hneg => absurd h hneg.ne⟩

/-! ### One step -/

/-- Between two columns or rows, the sign of the step is taken. -/
theorem against_unitSign (h : cellCoord s ≠ cellCoord t) : Against (-(t - s).unitSign) s t := by
  cases hsub : (t - s).isNaN with
  | false =>
    have hminus : (-1.0 : Scalar).value = -1 := by rw [Scalar.value_neg, Scalar.value_one]
    rcases opposite_unitSign hsub h with ⟨hlt, hunit⟩ | ⟨hlt, hunit⟩
    · rw [hunit]
      refine ⟨fun hpos => ?_, fun _ => hlt⟩
      linarith
    · rw [hunit]
      refine ⟨fun _ => hlt, fun hneg => ?_⟩
      rw [Scalar.value_one] at hneg
      linarith
  | true =>
    -- there is no sign of what is not a number
    refine against_of_zero ?_
    have hsign : (t - s).unitSign = t - s := if_pos hsub
    have hunpack := Scalar.unpacked_of_isNaN hsub
    rw [hsign, Scalar.value_neg, Scalar.value, hunpack]
    exact neg_zero

/-- Elsewhere the step itself is turned around and made a unit vector. -/
theorem against_opposite {length : Scalar} (hlength : length.isFinite = true)
    (hpos : 0 < length.value) (hstep : (-(t - s)).isFinite = true) :
    Against (-(t - s) / length) s t := by
  have hquot := Scalar.nearest_div hstep hlength hpos.ne'
  have hsub : (t - s).isNaN = false :=
    (Scalar.isNaN_neg _).symm.trans (Scalar.isNaN_of_isFinite hstep)
  obtain ⟨ht, hs⟩ := Scalar.numbers_of_sub hsub
  rw [Scalar.value_neg] at hquot
  constructor
  · intro hfacing
    by_contra hnot
    have hnonneg := Scalar.value_sub_nonneg (Scalar.le_of_not_less hs ht hnot) hsub
    have hnonpos := hquot.nonpos (div_nonpos_of_nonpos_of_nonneg (by linarith) hpos.le)
    linarith
  · intro hfacing
    by_contra hnot
    have hnonpos := Scalar.value_sub_nonpos (Scalar.le_of_not_less ht hs hnot) hsub
    have hnonneg := hquot.nonneg (div_nonneg (by linarith) hpos.le)
    linarith

/-- However it was found, the normal is against the step. -/
theorem normalBetween_against (g : TileGrid) (before point : Vec2) :
    Against (g.normalBetween before point).x before.x point.x ∧
      Against (g.normalBetween before point).y before.y point.y := by
  have hzero (s t : Scalar) : Against 0.0 s t := against_of_zero Scalar.value_zero
  unfold normalBetween
  simp only [Bool.and_eq_true, bne_iff_ne, Bool.not_eq_true', bne_eq_false_iff_eq]
  split
  · rename_i h
    exact ⟨against_unitSign h.1, hzero _ _⟩
  split
  · rename_i h
    exact ⟨hzero _ _, against_unitSign h.2⟩
  split
  · rename_i h
    exact ⟨hzero _ _, against_unitSign h.1.2⟩
  split
  · rename_i h
    exact ⟨against_unitSign h.1.1, hzero _ _⟩
  · rcases Vec2.normalizeOrZero_cases (-(point - before)) with
      hnone | ⟨length, hlength, hpos, hstep, hunit⟩
    · rw [hnone]
      exact ⟨hzero _ _, hzero _ _⟩
    · rw [hunit]
      rw [Vec2.isFinite_iff] at hstep
      exact ⟨against_opposite hlength hpos hstep.1, against_opposite hlength hpos hstep.2⟩

/-! ### The whole segment -/

/-- One coordinate of the point that is tried before probe `k`. -/
def lastCoordinate (s t : Scalar) (count : UInt32) : Nat → Scalar
  | 0 => s
  | k + 1 => coordinate s t count k

theorem lastFree_eq (a b : Vec2) (count : UInt32) (k : Nat) :
    lastFree a b count k = ⟨lastCoordinate a.x b.x count k, lastCoordinate a.y b.y count k⟩ := by
  cases k <;> rfl

section

variable {count : UInt32} {k : Nat}

theorem lastCoordinate_le (hcount : count ≠ 0) (hk : k ≤ count.toNat) (hst : s ≤ t)
    (hlast : (lastCoordinate s t count k).isNaN = false)
    (hpoint : (coordinate s t count k).isNaN = false) :
    lastCoordinate s t count k ≤ coordinate s t count k := by
  cases k with
  | zero =>
    have hvalue := value_coordinate_first hcount hpoint
    exact Scalar.le_iff_value.mpr ⟨hlast, hpoint, hvalue.ge⟩
  | succ k => exact coordinate_mono hcount hst (Nat.le_succ k) hk hlast hpoint

theorem le_lastCoordinate (hcount : count ≠ 0) (hk : k ≤ count.toNat) (hst : t ≤ s)
    (hlast : (lastCoordinate s t count k).isNaN = false)
    (hpoint : (coordinate s t count k).isNaN = false) :
    coordinate s t count k ≤ lastCoordinate s t count k := by
  cases k with
  | zero =>
    have hvalue := value_coordinate_first hcount hpoint
    exact Scalar.le_iff_value.mpr ⟨hpoint, hlast, hvalue.le⟩
  | succ k => exact coordinate_anti hcount hst (Nat.le_succ k) hk hlast hpoint

/-- Numbers between two ends come from numbers. -/
theorem numbers_of_coordinate (h : (coordinate s t count k).isNaN = false) :
    s.isNaN = false ∧ t.isNaN = false := by
  obtain ⟨hs, hway⟩ := Scalar.numbers_of_add h
  exact ⟨hs, (Scalar.numbers_of_sub (Scalar.numbers_of_mul hway).1).1⟩

/-- What is against a step between probes is against the whole way. -/
theorem Against.of_step (hcount : count ≠ 0) (hk : k ≤ count.toNat)
    (h : Against n (lastCoordinate s t count k) (coordinate s t count k)) : Against n s t := by
  constructor
  · intro hpos
    obtain ⟨hpoint, hlast, hlt⟩ := Scalar.lt_iff_value.mp (h.1 hpos)
    obtain ⟨hs, ht⟩ := numbers_of_coordinate hpoint
    by_contra hnot
    have hle := lastCoordinate_le hcount hk (Scalar.le_of_not_less hs ht hnot) hlast hpoint
    exact absurd (Scalar.le_iff_value.mp hle).2.2 (not_le.mpr hlt)
  · intro hneg
    obtain ⟨hlast, hpoint, hlt⟩ := Scalar.lt_iff_value.mp (h.2 hneg)
    obtain ⟨hs, ht⟩ := numbers_of_coordinate hpoint
    by_contra hnot
    have hle := le_lastCoordinate hcount hk (Scalar.le_of_not_less ht hs hnot) hlast hpoint
    exact absurd (Scalar.le_iff_value.mp hle).2.2 (not_le.mpr hlt)

end

/-- **The normal faces the segment.** Where a component of it is not zero, the segment leads
the other way. -/
theorem firstHit_against {g : TileGrid} {a b : Vec2} {hit : SegmentHit}
    (h : g.firstHit a b = some hit) :
    Against hit.normal.x a.x b.x ∧ Against hit.normal.y a.y b.y := by
  obtain ⟨k, hk, -, -, rfl⟩ := firstHit_eq_some h
  have hcount := probeCount_ne_zero a b
  obtain ⟨hx, hy⟩ := normalBetween_against g (lastFree a b (probeCount a b) k)
    (probe a b (probeCount a b) k)
  rw [lastFree_eq, probe_eq] at hx hy
  show Against (g.normalBetween _ _).x _ _ ∧ Against (g.normalBetween _ _).y _ _
  rw [lastFree_eq, probe_eq]
  exact ⟨hx.of_step hcount hk, hy.of_step hcount hk⟩

end TileGrid
end Volley
