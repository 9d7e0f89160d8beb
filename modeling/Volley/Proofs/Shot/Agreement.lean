/-
# Agreement is mutual

Two shots agree if nothing that the policy looks at tells them apart. Neither of them is the
first: owner and weapon are compared for equality, the start ticks by their exact difference,
and the directions by their distance, whose bits do not depend on the end from which it is
measured. A difference and its opposite have the same square (`square_sub`), whatever the two
numbers are: infinite values and values that are not numbers included. So agreement is
symmetric for all shots and policies.

A shot agrees with itself if its distance from itself is a number within the tolerance. The
distance is zero for every shot that comes out of a launch or a record and any ticks, as its
direction is finite (`Steady`).

Key theorems: `Scalar.square_sub`, `Vec2.distance_comm`, `Shot.agrees_symmetric_reflexive`.
-/
import Volley.Proofs.Shot.Finiteness

namespace Volley

open Float.Model Float.Model.UnpackedFloat

namespace Scalar

/-! ### The square of a difference -/

/-- The sign of a mantissa has no part in how it is rounded. -/
theorem abs_round (s t : Sign) (m : Nat) (e : Int) :
    (UnpackedFloat.round .binary32 s m e).abs = (UnpackedFloat.round .binary32 t m e).abs := by
  unfold UnpackedFloat.round roundWithAccuracy
  simp only
  split <;> rfl

theorem abs_normalize_neg (n e : Int) (zeroSign : Sign) :
    (UnpackedFloat.normalize .binary32 (-n) e zeroSign).abs =
      (UnpackedFloat.normalize .binary32 n e zeroSign).abs := by
  unfold UnpackedFloat.normalize
  rcases lt_trichotomy n 0 with hlt | rfl | hgt
  · rw [compare_lt_iff_lt.mpr hlt, compare_gt_iff_gt.mpr (Int.neg_pos_of_neg hlt)]
    exact abs_round ..
  · rfl
  · rw [compare_gt_iff_gt.mpr hgt, compare_lt_iff_lt.mpr (Int.neg_neg_of_pos hgt), neg_neg]
    exact abs_round ..

/-- The two differences of two numbers have the same magnitude. -/
theorem abs_sub_comm (a b : UnpackedFloat) :
    (UnpackedFloat.sub .binary32 a b).abs = (UnpackedFloat.sub .binary32 b a).abs := by
  cases a with
  | notANumber => cases b <;> rfl
  | infinity s =>
    cases b with
    | infinity t => cases s <;> cases t <;> rfl
    | notANumber | zero | finite => rfl
  | zero s =>
    cases b with
    | zero t => cases s <;> cases t <;> rfl
    | notANumber | infinity | finite => rfl
  | finite s m e hm =>
    cases b with
    | notANumber | infinity | zero => rfl
    | finite t n f hn =>
      simp only [UnpackedFloat.sub]
      rw [min_comm f e, ← Int.neg_sub, abs_normalize_neg]

theorem mul_self_abs (a : UnpackedFloat) :
    UnpackedFloat.mul .binary32 a a = UnpackedFloat.mul .binary32 a.abs a.abs := by
  have hsign (s : Sign) : s * s = .positive := by cases s <;> rfl
  cases a with
  | notANumber => rfl
  | infinity s => cases s <;> rfl
  | zero s => cases s <;> rfl
  | finite s m e hm =>
    simp only [UnpackedFloat.mul, UnpackedFloat.abs, hsign]

theorem stored_abs (a : UnpackedFloat) : (stored a).abs = stored a.abs := by
  cases a with
  | notANumber | infinity | zero => rfl
  | finite s m e hm =>
    simp only [stored, UnpackedFloat.abs]
    by_cases he : e ≤ 104
    · rw [if_pos he, if_pos he]
    · rw [if_neg he, if_neg he]

/-- The difference of two scalars is rounded, and so it is stored as it is. -/
theorem rounded_sub (x y : Scalar) :
    Rounded (UnpackedFloat.sub .binary32 x.unpacked y.unpacked) := by
  have hx := canonical_unpacked x
  have hy := canonical_unpacked y
  generalize x.unpacked = a at hx
  generalize y.unpacked = b at hy
  cases a with
  | notANumber => trivial
  | infinity s =>
    cases b with
    | infinity t => cases s <;> cases t <;> trivial
    | notANumber | zero | finite => trivial
  | zero s =>
    cases b with
    | zero t => cases s <;> cases t <;> trivial
    | notANumber | infinity => trivial
    | finite t n f hn => exact Held.placed hy
  | finite s m e hm =>
    cases b with
    | notANumber | infinity => trivial
    | zero t => exact Held.placed hx
    | finite t n f hn => exact (result_normalize _ _ _).rounded

/-- **A difference and its opposite have the same square**, bit for bit. -/
theorem square_sub (x y : Scalar) : (x - y) * (x - y) = (y - x) * (y - x) := by
  have hstored (x y : Scalar) :
      (x - y).unpacked = stored (.sub .binary32 x.unpacked y.unpacked) :=
    unpacked_pack (rounded_sub x y)
  show Float32.ofModel (.pack (.mul .binary32 (x - y).unpacked (x - y).unpacked)) =
    Float32.ofModel (.pack (.mul .binary32 (y - x).unpacked (y - x).unpacked))
  rw [mul_self_abs (x - y).unpacked, mul_self_abs (y - x).unpacked, hstored x y, hstored y x,
    stored_abs, stored_abs, abs_sub_comm]

end Scalar

/-- The way there is as long as the way back. -/
theorem Vec2.distance_comm (a b : Vec2) : a.distance b = b.distance a := by
  have hsquares : (b - a).lengthSq = (a - b).lengthSq :=
    congrArg₂ (· + ·) (Scalar.square_sub b.x a.x) (Scalar.square_sub b.y a.y)
  rw [distance, distance, length, length, hsquares]

theorem Tick.gap_comm (a b : Tick) : a.gap b = b.gap a := by
  unfold gap
  omega

namespace Shot

/-- **Agreement is symmetric**, and reflexive by every policy that accepts equal directions. Any
two shots agree with each other or neither agrees with the other, whatever their numbers and
those of the policy are. A shot that was fired or rebuilt from a record, and then ticked in any
contexts, agrees with itself exactly if the tolerance of directions is not negative (and is a
number); the window of start ticks does not matter. -/
theorem agrees_symmetric_reflexive :
    (∀ (a b : Shot) (policy : MatchPolicy), a.agrees b policy = b.agrees a policy) ∧
      ∀ (source : Source) (ctxs : List TickContext) (policy : MatchPolicy),
        let a := source.shot.after ctxs
        a.agrees a policy = true ↔ 0.0 ≤ policy.directionEpsilon := by
  refine ⟨fun a b policy => ?_, fun source ctxs policy => ?_⟩
  · have howner : decide (a.owner = b.owner) = decide (b.owner = a.owner) :=
      decide_eq_decide.mpr eq_comm
    have hweapon : decide (a.weapon = b.weapon) = decide (b.weapon = a.weapon) :=
      decide_eq_decide.mpr eq_comm
    unfold agrees sameShot
    rw [howner, hweapon, Vec2.distance_comm, Tick.gap_comm]
  · intro a
    have heading : a.direction.isFinite = true := (source.steady.after ctxs).direction.isFinite
    have hgap : a.startTick.gap a.startTick = 0 := by
      unfold Tick.gap
      omega
    unfold agrees sameShot
    rw [Vec2.distance_self heading, hgap]
    simp

/-- Start ticks at the two ends of the clock are too far apart for the widest window. -/
example :
    let s (tick : Tick) : Shot :=
      fire (boxed tick)
        { weapon := .gun, owner := some ⟨3⟩, origin := ⟨64.0, 16.0⟩, direction := ⟨0.8, 0.6⟩ }
    let policy : MatchPolicy := { tickWindow := Int32.maxValue }
    (s Int32.minValue).agrees (s Int32.maxValue) policy = false ∧
      (s Int32.maxValue).agrees (s Int32.minValue) policy = false ∧
      (s Int32.maxValue).agrees (s 0) policy = true := by
  decide +kernel

end Shot

end Volley
