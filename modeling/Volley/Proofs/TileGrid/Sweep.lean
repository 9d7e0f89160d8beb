/-
# What a sweep reports

A sweep probes a segment from its start on and stops at the first probe in an obstacle, so the
probe before it is free (`scan_eq_none_iff`, `scan_eq_some`). Where the two differ in their
column only, or in their row only, the surface normal is the unit vector of that axis against
the movement (`normalBetween_column`, `normalBetween_row`). Together this is what
`firstHit` answers, for every segment, whether its ends are finite or not (`firstHit_spec`).

Key definitions: `TileGrid.lastFree`, `TileGrid.hitAt`.
Key theorems: `TileGrid.scan_eq_none_iff`, `TileGrid.scan_eq_some`, `TileGrid.firstHit_spec`.
-/
import Volley.Proofs.TileGrid.Cells
import Volley.TileGrid.Sweep

namespace Volley

namespace TileGrid

/-! ### The first obstacle -/

/-- The point that is tried before probe `k`: the start of the segment, or the probe before. -/
def lastFree (a b : Vec2) (count : UInt32) : Nat → Vec2
  | 0 => a
  | k + 1 => probe a b count k

/-- What is reported of an obstacle at probe `k`. -/
def hitAt (g : TileGrid) (a b : Vec2) (count : UInt32) (k : Nat) : SegmentHit where
  point := probe a b count k
  before := lastFree a b count k
  normal := g.normalBetween (lastFree a b count k) (probe a b count k)
  bounce := g.tileAt (probe a b count k) = .bounce

section

variable {g : TileGrid} {a b : Vec2} {count : UInt32}

/-- A sweep that finds nothing has found every probe free. -/
theorem scan_eq_none_iff {n i : Nat} {last : Vec2} :
    g.scan a b count n i last = none ↔
      ∀ j, i ≤ j → j < i + n → (g.tileAt (probe a b count j)).blocks = false := by
  induction n generalizing i last with
  | zero =>
    refine ⟨fun _ j hij hji => ?_, fun _ => rfl⟩
    omega
  | succ n ih =>
    unfold scan
    by_cases hblocks : (g.tileAt (probe a b count i)).blocks = true
    · rw [if_pos hblocks]
      refine ⟨fun h => (by cases h), fun h => ?_⟩
      rw [h i le_rfl (by omega)] at hblocks
      cases hblocks
    · rw [if_neg hblocks, ih]
      rw [Bool.not_eq_true] at hblocks
      constructor
      · intro h j hij hji
        rcases Nat.eq_or_lt_of_le hij with rfl | hlt
        · exact hblocks
        · exact h j hlt (by omega)
      · exact fun h j hij hji => h j (by omega) (by omega)

/-- A sweep that finds something reports the first probe that is not free. -/
theorem scan_eq_some {n i : Nat} {hit : SegmentHit}
    (h : g.scan a b count n i (lastFree a b count i) = some hit) :
    ∃ k, i ≤ k ∧ k < i + n ∧
      (∀ j, i ≤ j → j < k → (g.tileAt (probe a b count j)).blocks = false) ∧
      (g.tileAt (probe a b count k)).blocks = true ∧ hit = g.hitAt a b count k := by
  induction n generalizing i with
  | zero => cases h
  | succ n ih =>
    unfold scan at h
    by_cases hblocks : (g.tileAt (probe a b count i)).blocks = true
    · rw [if_pos hblocks] at h
      cases h
      refine ⟨i, le_rfl, by omega, fun j hij hji => ?_, hblocks, rfl⟩
      omega
    · rw [if_neg hblocks] at h
      rw [Bool.not_eq_true] at hblocks
      obtain ⟨k, hik, hkn, hfree, hhit⟩ := ih h
      refine ⟨k, by omega, by omega, fun j hij hji => ?_, hhit⟩
      rcases Nat.eq_or_lt_of_le hij with rfl | hlt
      · exact hblocks
      · exact hfree j hlt hji

/-- The first obstacle on a segment is at the first probe that is not free. -/
theorem firstHit_eq_some {hit : SegmentHit} (h : g.firstHit a b = some hit) :
    ∃ k ≤ (probeCount a b).toNat,
      (∀ j < k, (g.tileAt (probe a b (probeCount a b) j)).blocks = false) ∧
      (g.tileAt (probe a b (probeCount a b) k)).blocks = true ∧
      hit = g.hitAt a b (probeCount a b) k := by
  obtain ⟨k, -, hk, hfree, hblocks, hhit⟩ := scan_eq_some (i := 0) h
  exact ⟨k, by omega, fun j hj => hfree j (Nat.zero_le j) hj, hblocks, hhit⟩

end

/-! ### The surface normal -/

theorem empty_of_blocks {tile : Tile} (h : tile.blocks = false) : tile = .empty := by
  cases tile with
  | empty => rfl
  | solid | bounce => cases h

theorem ne_empty_of_blocks {tile : Tile} (h : tile.blocks = true) : tile ≠ .empty := by
  rintro rfl
  cases h

section

variable {g : TileGrid} {before point : Vec2}

theorem normalBetween_horizontal (hx : cellCoord before.x ≠ cellCoord point.x)
    (hy : cellCoord before.y = cellCoord point.y) :
    g.normalBetween before point = ⟨-(point.x - before.x).unitSign, 0.0⟩ := by
  have hcrosses : (cellCoord before.x != cellCoord point.x) = true := bne_iff_ne.mpr hx
  simp [normalBetween, hcrosses, hy]

theorem normalBetween_vertical (hx : cellCoord before.x = cellCoord point.x)
    (hy : cellCoord before.y ≠ cellCoord point.y) :
    g.normalBetween before point = ⟨0.0, -(point.y - before.y).unitSign⟩ := by
  have hcrosses : (cellCoord before.y != cellCoord point.y) = true := bne_iff_ne.mpr hy
  simp [normalBetween, hcrosses, hx]

/-- Between two columns or rows, the sign of the step is that of the movement. -/
theorem opposite_unitSign {s t : Scalar} (hsub : (t - s).isNaN = false)
    (h : cellCoord s ≠ cellCoord t) :
    s < t ∧ -(t - s).unitSign = -1.0 ∨ t < s ∧ -(t - s).unitSign = 1.0 := by
  obtain ⟨ht, hs⟩ := Scalar.numbers_of_sub hsub
  rcases lt_trichotomy s.value t.value with hlt | heq | hgt
  · left
    have hless : s < t := Scalar.lt_iff_value.mpr ⟨hs, ht, hlt⟩
    rw [Scalar.unitSign_of_pos (Scalar.value_sub_pos hless hsub)]
    exact ⟨hless, rfl⟩
  · obtain ⟨hft, hfs, -⟩ := Scalar.value_sub_eq_zero heq.symm hsub
    exact absurd (cellCoord_congr hfs hft heq) h
  · right
    have hless : t < s := Scalar.lt_iff_value.mpr ⟨ht, hs, hgt⟩
    rw [Scalar.unitSign_of_neg (Scalar.value_sub_neg hless hsub)]
    exact ⟨hless, rfl⟩

/-- Where only the column changes, the normal is along the row, against the movement. -/
theorem normalBetween_column (hbefore : before.isFinite = true) (hpoint : point.isFinite = true)
    (hx : cellCoord before.x ≠ cellCoord point.x) (hy : cellCoord before.y = cellCoord point.y) :
    before.x < point.x ∧ g.normalBetween before point = ⟨-1.0, 0.0⟩ ∨
      point.x < before.x ∧ g.normalBetween before point = ⟨1.0, 0.0⟩ := by
  rw [Vec2.isFinite_iff] at hbefore hpoint
  rw [normalBetween_horizontal hx hy]
  have hsub := (Scalar.nearest_sub hpoint.1 hbefore.1).number
  rcases opposite_unitSign hsub hx with ⟨hlt, hunit⟩ | ⟨hlt, hunit⟩
  · exact Or.inl ⟨hlt, by rw [hunit]⟩
  · exact Or.inr ⟨hlt, by rw [hunit]⟩

/-- Where only the row changes, it is along the column. -/
theorem normalBetween_row (hbefore : before.isFinite = true) (hpoint : point.isFinite = true)
    (hx : cellCoord before.x = cellCoord point.x) (hy : cellCoord before.y ≠ cellCoord point.y) :
    before.y < point.y ∧ g.normalBetween before point = ⟨0.0, -1.0⟩ ∨
      point.y < before.y ∧ g.normalBetween before point = ⟨0.0, 1.0⟩ := by
  rw [Vec2.isFinite_iff] at hbefore hpoint
  rw [normalBetween_vertical hx hy]
  have hsub := (Scalar.nearest_sub hpoint.2 hbefore.2).number
  rcases opposite_unitSign hsub hy with ⟨hlt, hunit⟩ | ⟨hlt, hunit⟩
  · exact Or.inl ⟨hlt, by rw [hunit]⟩
  · exact Or.inr ⟨hlt, by rw [hunit]⟩

end

/-! ### The report -/

/-- **What a sweep reports.** Nothing, exactly if no probe lies in an obstacle. Otherwise the
first probe that does, the point tried before it, and whether its tile throws projectiles
back. So if the segment starts in a free tile, the point before the obstacle is free, and the
point in the obstacle is not. And if from the one to the other only the column changes, or
only the row, and both are finite, the normal is the unit vector of that axis against the
movement. -/
theorem firstHit_spec (g : TileGrid) (a b : Vec2) :
    let count := probeCount a b
    let free (k : Nat) := (g.tileAt (probe a b count k)).blocks = false
    (g.firstHit a b = none ↔ ∀ k ≤ count.toNat, free k) ∧
      ∀ hit, g.firstHit a b = some hit →
        (∃ k ≤ count.toNat, (∀ j < k, free j) ∧ ¬free k ∧
          hit.point = probe a b count k ∧
          hit.before = (if k = 0 then a else probe a b count (k - 1)) ∧
          (hit.bounce = true ↔ g.tileAt (probe a b count k) = .bounce)) ∧
        (g.tileAt a = .empty → g.tileAt hit.before = .empty ∧ g.tileAt hit.point ≠ .empty) ∧
        (hit.before.isFinite = true → hit.point.isFinite = true →
          (cellCoord hit.before.x ≠ cellCoord hit.point.x →
            cellCoord hit.before.y = cellCoord hit.point.y →
              hit.before.x < hit.point.x ∧ hit.normal = ⟨-1.0, 0.0⟩ ∨
                hit.point.x < hit.before.x ∧ hit.normal = ⟨1.0, 0.0⟩) ∧
          (cellCoord hit.before.x = cellCoord hit.point.x →
            cellCoord hit.before.y ≠ cellCoord hit.point.y →
              hit.before.y < hit.point.y ∧ hit.normal = ⟨0.0, -1.0⟩ ∨
                hit.point.y < hit.before.y ∧ hit.normal = ⟨0.0, 1.0⟩)) := by
  intro count free
  refine ⟨?_, fun hit h => ?_⟩
  · show g.scan a b count (count.toNat + 1) 0 a = none ↔ _
    rw [scan_eq_none_iff]
    constructor
    · exact fun h k hk => h k (Nat.zero_le k) (by omega)
    · exact fun h k _ hk => h k (by omega)
  obtain ⟨k, hk, hfree, hblocks, rfl⟩ := firstHit_eq_some h
  refine ⟨⟨k, hk, hfree, ?_, rfl, ?_, decide_eq_true_iff⟩, fun hstart => ⟨?_, ?_⟩, ?_⟩
  · exact fun hnot => Bool.noConfusion (hblocks.symm.trans hnot)
  · cases k with
    | zero => rfl
    | succ k => rfl
  · cases k with
    | zero => exact hstart
    | succ k => exact empty_of_blocks (hfree k (Nat.lt_succ_self k))
  · exact ne_empty_of_blocks hblocks
  · exact fun hbefore hpoint =>
      ⟨normalBetween_column hbefore hpoint, normalBetween_row hbefore hpoint⟩

/-- Two free tiles in a row, closed by one that throws projectiles back. -/
def alley : TileGrid where
  width := 3
  height := 1
  tiles := #[.empty, .empty, .bounce]
  zones := Array.replicate 3 defaultZone

/-- A sweep along the alley stops at its end, whose surface faces the start. -/
theorem firstHit_spec_alley :
    ∃ hit, alley.firstHit ⟨16.0, 16.0⟩ ⟨80.0, 16.0⟩ = some hit ∧ hit.bounce = true ∧
      alley.tileAt hit.before = .empty ∧ hit.before.x < hit.point.x ∧
      hit.normal = ⟨-1.0, 0.0⟩ := by
  have start : alley.tileAt ⟨16.0, 16.0⟩ = .empty := by decide +kernel
  -- what is asked of the report, apart from the normal
  have state : ((alley.firstHit ⟨16.0, 16.0⟩ ⟨80.0, 16.0⟩).any fun hit =>
      hit.before.isFinite && hit.point.isFinite && hit.bounce && hit.before.x < hit.point.x &&
        cellCoord hit.before.x != cellCoord hit.point.x &&
        cellCoord hit.before.y == cellCoord hit.point.y) = true := by
    decide +kernel
  obtain ⟨-, spec⟩ := firstHit_spec alley ⟨16.0, 16.0⟩ ⟨80.0, 16.0⟩
  cases hhit : alley.firstHit ⟨16.0, 16.0⟩ ⟨80.0, 16.0⟩ with
  | none =>
    rw [hhit] at state
    cases state
  | some hit =>
    rw [hhit] at state
    simp only [Option.any_some, Bool.and_eq_true, bne_iff_ne, beq_iff_eq,
      decide_eq_true_eq] at state
    obtain ⟨⟨⟨⟨⟨finite, finite'⟩, bounce⟩, along⟩, column⟩, row⟩ := state
    obtain ⟨-, free, normal⟩ := spec hit hhit
    refine ⟨hit, rfl, bounce, (free start).1, along, ?_⟩
    rcases (normal finite finite').1 column row with ⟨-, hnormal⟩ | ⟨against, -⟩
    · exact hnormal
    · rw [Scalar.lt_iff_value] at along against
      linarith

end TileGrid
end Volley
