/-
# The simulation clock

A tick is a signed 32-bit count of simulation steps. Most sums and differences stop at
the ends of the range. An exact one may overflow, and then whatever asked for it is ended
where it stands (`Checked`).

Key definitions: `Tick.plus`, `Tick.minus`, `Tick.exactSum`, `Tick.exactDifference`,
`Tick.gap`, `Tick.seconds`, `Checked`.
-/
import Volley.Scalar

namespace Volley

/-- A moment of the simulation, or a number of steps between two moments. -/
abbrev Tick := Int32

namespace Tick

/-- The sum, at most and at least the ends of the range. -/
def plus (a b : Tick) : Tick := Int32.ofIntClamp (a.toInt + b.toInt)

/-- The difference, at most and at least the ends of the range. -/
def minus (a b : Tick) : Tick := Int32.ofIntClamp (a.toInt - b.toInt)

/-- A number that the clock can show. -/
def InRange (n : Int) : Prop := Int32.minValue.toInt ≤ n ∧ n ≤ Int32.maxValue.toInt

instance (n : Int) : Decidable (InRange n) := inferInstanceAs (Decidable (_ ∧ _))

/-- A number that the clock cannot show, where an exact sum or difference was asked for. -/
structure Overflow where
  value : Int
deriving DecidableEq, Repr

/-- The tick of a number. -/
def ofNumber (n : Int) : Except Overflow Tick :=
  if InRange n then .ok (Int32.ofInt n) else .error ⟨n⟩

/-- The sum, which may overflow. -/
def exactSum (a b : Tick) : Except Overflow Tick := ofNumber (a.toInt + b.toInt)

/-- The difference, which may overflow. -/
def exactDifference (a b : Tick) : Except Overflow Tick := ofNumber (a.toInt - b.toInt)

/-- The next tick; the last one is its own successor. -/
def next (t : Tick) : Tick := t.plus 1

/-- The number of steps between two ticks, in either order. -/
def gap (a b : Tick) : Nat := (a.toInt - b.toInt).natAbs

/-- The larger of `t` and zero. -/
def atLeastZero (t : Tick) : Tick := if t < 0 then 0 else t

/-- The number of steps from `a` up to `b`; none if `b` is not later. -/
def stepsUpTo (a b : Tick) : Nat := (b.toInt - a.toInt).toNat

/-- The time that `t` steps take at `hz` steps a second. A rate of zero counts as one. -/
def seconds (t : Tick) (hz : UInt32) : Scalar :=
  Scalar.ofInt32 t / (max hz 1).toFloat32

theorem ofNumber_of_inRange {n : Int} (h : InRange n) : ofNumber n = .ok (Int32.ofInt n) :=
  if_pos h

theorem ofNumber_of_not_inRange {n : Int} (h : ¬InRange n) : ofNumber n = .error ⟨n⟩ := if_neg h

theorem isOk_ofNumber_iff {n : Int} : (ofNumber n).isOk = true ↔ InRange n := by
  by_cases h : InRange n
  · rw [ofNumber_of_inRange h]
    exact iff_of_true rfl h
  · rw [ofNumber_of_not_inRange h]
    exact iff_of_false Bool.false_ne_true h

end Tick

/-- What comes of a computation on a state: its result, or the overflow that ended it, and
the state as it was left. -/
abbrev Checked (σ α : Type) := Except Tick.Overflow α × σ

/-- The state from which things go on: that before the computation, if it was ended. -/
def Checked.stateAfter {σ α : Type} (before : σ) : Checked σ α → σ
  | (.ok _, after) => after
  | (.error _, _) => before

end Volley
