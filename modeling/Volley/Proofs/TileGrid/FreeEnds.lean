/-
# The ends of a segment that is found free

A sweep that finds nothing has looked at both ends of the segment: at the start itself, but at
the end only through the formula of the last probe, the start plus the difference, each
rounded. For coordinates of up to a million the two are less than an eighth of a unit apart
(`return_error`), so they share a cell unless they differ and the end is as close to a border
between cells (`free_ends`). There the sweep can miss a wall that the segment ends in
(`free_end_in_wall`).

Key definitions: `Vec2.within`, `TileGrid.Inner`, `TileGrid.Seen`.
Key theorems: `TileGrid.return_error`, `TileGrid.free_ends`.
-/
import Volley.Proofs.TileGrid.Probes

namespace Volley

/-- Both coordinates are at most `r` in absolute value. -/
def Vec2.within (p : Vec2) (r : Scalar) : Bool := p.x.abs ≤ r && p.y.abs ≤ r

namespace TileGrid

variable {s t : Scalar}

/-! ### The way to the end, rounded -/

theorem value_million : (1000000.0 : Scalar).value = 1000000 := value_maxProbes

theorem number_of_abs_le (h : s.abs ≤ (1000000.0 : Scalar)) :
    s.isFinite = true ∧ |s.value| ≤ 1000000 := by
  rw [Scalar.le_iff_value, Scalar.isNaN_abs, Scalar.value_abs, value_million] at h
  refine ⟨(Scalar.isFinite_iff_value h.1).mpr ?_, h.2.2⟩
  linarith

theorem numbers_of_within {p : Vec2} (h : p.within 1000000.0 = true) :
    (p.x.isFinite = true ∧ |p.x.value| ≤ 1000000) ∧
      p.y.isFinite = true ∧ |p.y.value| ≤ 1000000 := by
  unfold Vec2.within at h
  rw [Bool.and_eq_true, decide_eq_true_eq, decide_eq_true_eq] at h
  exact ⟨number_of_abs_le h.1, number_of_abs_le h.2⟩

/-- Going the rounded difference from `s` leads close to `t`. -/
theorem return_error (hs : s.isFinite = true) (hs' : |s.value| ≤ 1000000)
    (ht : t.isFinite = true) (ht' : |t.value| ≤ 1000000) :
    (t - s).isFinite = true ∧ (s + (t - s)).isFinite = true ∧
      |(s + (t - s)).value - t.value| ≤ 3 / 32 := by
  obtain ⟨hslow, hshigh⟩ := abs_le.mp hs'
  obtain ⟨htlow, hthigh⟩ := abs_le.mp ht'
  have hrange : |t.value - s.value| < 2 ^ (21 : ℤ) := by
    rw [abs_lt]
    constructor <;> linarith
  obtain ⟨hd, hderror⟩ := (Scalar.nearest_sub ht hs).error (by norm_num) (by norm_num) hrange
  norm_num at hderror
  obtain ⟨hdlow, hdhigh⟩ := abs_le.mp hderror
  have hrange' : |s.value + (t - s).value| < 2 ^ (20 : ℤ) := by
    rw [abs_lt]
    constructor <;> linarith
  obtain ⟨hp, hperror⟩ := (Scalar.nearest_add hs hd).error (by norm_num) (by norm_num) hrange'
  norm_num at hperror
  obtain ⟨hplow, hphigh⟩ := abs_le.mp hperror
  refine ⟨hd, hp, ?_⟩
  rw [abs_le]
  constructor <;> linarith

/-- The coordinate is an eighth of a unit away from the borders of its cell. -/
def Inner (s : Scalar) : Prop :=
  ∃ k : ℤ, 32 * k + 1 / 8 ≤ s.value ∧ s.value ≤ 32 * k + 31 + 7 / 8

/-- On the way from `s` the end `t` is looked at: the rounded way leads to it, or it is too far
inside its cell to be missed. -/
def Seen (s t : Scalar) : Prop := (s + (t - s) == t) = true ∨ Inner t

/-- What is close to the inner part of a cell is in that cell. -/
theorem cellCoord_of_near {k : ℤ} (hs : s.isFinite = true) (hs' : |s.value| ≤ 2000000)
    (hlow : 32 * k + 1 / 32 ≤ s.value) (hhigh : s.value ≤ 32 * k + 31 + 31 / 32) :
    cellCoord s = k := by
  obtain ⟨hslow, hshigh⟩ := abs_le.mp hs'
  have hfar : 2 ^ (-20 : ℤ) ≤ |s.value| := by
    norm_num
    rcases le_or_gt 0 k with hk | hk
    · have hk : (0 : ℚ) ≤ k := by exact_mod_cast hk
      exact le_trans (by linarith) (le_abs_self s.value)
    · have hk : (k : ℚ) ≤ -1 := by exact_mod_cast (by omega : k ≤ -1)
      exact le_trans (by linarith) (neg_le_abs s.value)
  rw [cellCoord_eq_floor hs hfar (lt_of_le_of_lt hs' (by norm_num)), Int.floor_eq_iff]
  constructor <;> linarith

theorem cellCoord_of_seen (hs : s.isFinite = true) (hs' : |s.value| ≤ 1000000)
    (ht : t.isFinite = true) (ht' : |t.value| ≤ 1000000) (seen : Seen s t) :
    cellCoord (s + (t - s)) = cellCoord t := by
  obtain ⟨-, hp, herror⟩ := return_error hs hs' ht ht'
  rcases seen with hback | ⟨k, hlow, hhigh⟩
  · exact cellCoord_congr hp ht (Scalar.beq_iff_value.mp hback).2.2
  · obtain ⟨hplow, hphigh⟩ := abs_le.mp herror
    obtain ⟨htlow, hthigh⟩ := abs_le.mp ht'
    have hp' : |(s + (t - s)).value| ≤ 2000000 := by
      rw [abs_le]
      constructor <;> linarith
    rw [cellCoord_of_near (k := k) hp hp' (by linarith) (by linarith),
      cellCoord_of_near (k := k) ht (by linarith) (by linarith) (by linarith)]

/-! ### Both ends of a free segment -/

section

variable {g : TileGrid} {a b p q : Vec2}

theorem tileAt_congr (hx : cellCoord p.x = cellCoord q.x) (hy : cellCoord p.y = cellCoord q.y) :
    g.tileAt p = g.tileAt q := by
  unfold tileAt index? cell
  rw [hx, hy]

theorem cellCoord_first (hs : s.isFinite = true) (hd : (t - s).isFinite = true) :
    cellCoord (coordinate s t (probeCount a b) 0) = cellCoord s := by
  obtain ⟨hfinite, hvalue⟩ := coordinate_first (probeCount_ne_zero a b) hs hd
  exact cellCoord_congr hfinite hs hvalue

theorem cellCoord_last (hs : s.isFinite = true) (hd : (t - s).isFinite = true)
    (he : (s + (t - s)).isFinite = true) :
    cellCoord (coordinate s t (probeCount a b) (probeCount a b).toNat) =
      cellCoord (s + (t - s)) := by
  obtain ⟨hfinite, hvalue⟩ := coordinate_last (probeCount_ne_zero a b) hs hd he
  exact cellCoord_congr hfinite he hvalue

/-- A probe of a free segment lies in a free tile. -/
theorem tileAt_probe (free : g.firstHit a b = none) {k : Nat}
    (hk : k ≤ (probeCount a b).toNat) :
    g.tileAt (probe a b (probeCount a b) k) = .empty :=
  empty_of_blocks (scan_eq_none_iff.mp free k (Nat.zero_le k) (by omega))

/-- **A free segment starts and ends in free tiles, as far as its end is looked at.** Let all
coordinates be at most a million in absolute value, and let a sweep find nothing. Then the
start lies in a free tile, and so does the start plus the rounded difference. So the end itself
lies in a free tile if in each coordinate the rounded difference leads to it, or it is an
eighth of a unit away from the borders of its cell. -/
theorem free_ends (ha : a.within 1000000.0 = true) (hb : b.within 1000000.0 = true)
    (free : g.firstHit a b = none) :
    g.tileAt a = .empty ∧ g.tileAt (a + (b - a)) = .empty ∧
      (Seen a.x b.x → Seen a.y b.y → g.tileAt b = .empty) := by
  obtain ⟨⟨hax, hax'⟩, hay, hay'⟩ := numbers_of_within ha
  obtain ⟨⟨hbx, hbx'⟩, hby, hby'⟩ := numbers_of_within hb
  obtain ⟨hdx, hex, -⟩ := return_error hax hax' hbx hbx'
  obtain ⟨hdy, hey, -⟩ := return_error hay hay' hby hby'
  have hstart : g.tileAt a = .empty := by
    rw [← tileAt_probe free (Nat.zero_le _)]
    exact tileAt_congr (cellCoord_first hax hdx).symm (cellCoord_first hay hdy).symm
  have hend : g.tileAt (a + (b - a)) = .empty := by
    rw [← tileAt_probe free le_rfl]
    exact tileAt_congr (cellCoord_last hax hdx hex).symm (cellCoord_last hay hdy hey).symm
  refine ⟨hstart, hend, fun seen seen' => ?_⟩
  rw [← hend]
  exact tileAt_congr (cellCoord_of_seen hax hax' hbx hbx' seen).symm
    (cellCoord_of_seen hay hay' hby hby' seen').symm

end

/-- A wall, and two free tiles beside it. -/
def dock : TileGrid where
  width := 3
  height := 1
  tiles := #[.solid, .empty, .empty]
  zones := Array.replicate 3 defaultZone

/-- A segment that stays beside the wall ends in a free tile. -/
theorem free_ends_dock :
    Vec2.within ⟨80.0, 16.0⟩ 1000000.0 = true ∧ Vec2.within ⟨40.0, 16.0⟩ 1000000.0 = true ∧
      dock.firstHit ⟨80.0, 16.0⟩ ⟨40.0, 16.0⟩ = none ∧ dock.tileAt ⟨40.0, 16.0⟩ = .empty := by
  have ha : Vec2.within ⟨80.0, 16.0⟩ 1000000.0 = true := by decide +kernel
  have hb : Vec2.within ⟨40.0, 16.0⟩ 1000000.0 = true := by decide +kernel
  have free : (dock.firstHit ⟨80.0, 16.0⟩ ⟨40.0, 16.0⟩).isNone = true := by decide +kernel
  have seen : Seen 80.0 40.0 := Or.inl (by decide +kernel)
  have seen' : Seen 16.0 16.0 := Or.inl (by decide +kernel)
  rw [Option.isNone_iff_eq_none] at free
  obtain ⟨-, -, hend⟩ := free_ends ha hb free
  exact ⟨ha, hb, free, hend seen seen'⟩

/-- The number just below 32, the border of the wall. -/
def belowBorder : Scalar := Float32.ofBits 0x41ffffff

/-- The way from 64 to the number just below 32 is rounded to 32, so the last probe is still
beside the wall. The segment is found free, and ends in the wall. -/
theorem free_end_in_wall :
    Vec2.within ⟨64.0, 16.0⟩ 1000000.0 = true ∧ Vec2.within ⟨belowBorder, 16.0⟩ 1000000.0 = true ∧
      dock.firstHit ⟨64.0, 16.0⟩ ⟨belowBorder, 16.0⟩ = none ∧
      dock.tileAt ⟨belowBorder, 16.0⟩ = .solid := by
  have free : (dock.firstHit ⟨64.0, 16.0⟩ ⟨belowBorder, 16.0⟩).isNone = true := by decide +kernel
  refine ⟨by decide +kernel, by decide +kernel, ?_, by decide +kernel⟩
  exact Option.isNone_iff_eq_none.mp free

end TileGrid
end Volley
