/-
# The swept path has no gaps

A shot does not remember how far it has been swept. Each tick computes both ends of its
segment from the origin and the launch tick of the current leg. While the ticks count on from
the launch, the start of a segment is the same expression as the end of the one before
(`sweepStart_later`). A leg starts at its own origin: there the time since launch is zero, and
what is added to the origin is a zero (`positionIn_launch`). So the segments of a flight form
one path, from the origin where it was fired over the points where it bounced (`gapless`).

Key definitions: `TuningTable.Finite`, `Shot.Airborne`.
Key theorems: `Shot.sweepStart_later`, `Shot.positionIn_launch`, `Shot.gapless`.
-/
import Volley.Proofs.Scalar.Signs
import Volley.Proofs.Shot.Lifespan

namespace Volley

/-! ### The clock -/

namespace Tick

/-- A tick earlier, the time since launch was the same as that of a sweep's start now. -/
theorem minus_next {t launch : Tick} (launched : launch ≤ t) (room : t < Int32.maxValue)
    (few : t.toInt - launch.toInt < 2 ^ 31 - 1) :
    ((t.next.minus launch).minus 1).atLeastZero = t.minus launch := by
  have hlow : Int32.minValue.toInt = -2147483648 := rfl
  have hhigh : Int32.maxValue.toInt = 2147483647 := rfl
  have hle := Int32.le_iff_toInt_le.mp launched
  have hnext := toInt_next room
  have hnow : (t.minus launch).toInt = t.toInt - launch.toInt :=
    Int32.toInt_ofIntClamp (by omega) (by omega)
  have hlater : (t.next.minus launch).toInt = t.toInt + 1 - launch.toInt := by
    rw [← hnext]
    exact Int32.toInt_ofIntClamp (by omega) (by omega)
  have hearlier : ((t.next.minus launch).minus 1).toInt = t.toInt - launch.toInt := by
    have hone : (1 : Tick).toInt = 1 := rfl
    have hsame : (t.next.minus launch).toInt - (1 : Tick).toInt = t.toInt - launch.toInt := by omega
    rw [← hsame]
    exact Int32.toInt_ofIntClamp (by omega) (by omega)
  have hpos : ¬(t.next.minus launch).minus 1 < 0 := by
    rw [Int32.lt_iff_toInt_lt, hearlier, Int32.toInt_zero]
    omega
  rw [atLeastZero, if_neg hpos]
  exact Int32.toInt_inj.mp (hearlier.trans hnow.symm)

theorem minus_self (t : Tick) : t.minus t = 0 := by
  unfold minus
  rw [Int.sub_self]
  rfl

theorem rate_ne_zero (hz : UInt32) : max hz 1 ≠ 0 := by
  show (if hz ≤ 1 then 1 else hz) ≠ 0
  by_cases h : hz ≤ 1
  · rw [if_pos h]
    decide
  · rw [if_neg h]
    rintro rfl
    exact h (by decide)

theorem isZero_seconds (hz : UInt32) : Scalar.IsZero (Tick.seconds 0 hz) := by
  have hzero : Scalar.IsZero (Scalar.ofInt32 0) := ⟨rfl, rfl⟩
  exact hzero.div (Scalar.isFinite_toFloat32 _) (Scalar.value_toFloat32_pos (rate_ne_zero hz)).ne'

end Tick

/-- Every speed and every gravity of the table is finite. -/
def TuningTable.Finite (t : TuningTable) : Prop :=
  ∀ zone weapon, (t.get zone weapon).speed.isFinite = true ∧
    (t.get zone weapon).gravity.isFinite = true

theorem TuningTable.zone_standard (zone : UInt32) :
    TuningTable.standard.zone zone = .standard := by
  have hzone : TuningTable.standard.zones.zone? zone = some .standard := by
    change (ZoneMap.ofBase .standard).zone? zone = _
    rw [ZoneMap.zone?_eq, ZoneMap.ofBase, ZoneMap.get?_insert, ZoneMap.get?_insert, if_pos rfl]
    split <;> rfl
  exact Option.some_inj.mp ((TuningTable.zone?_zones _ _).symm.trans hzone)

theorem TuningTable.finite_standard : TuningTable.standard.Finite := by
  intro zone weapon
  unfold TuningTable.get
  rw [TuningTable.zone_standard]
  cases weapon <;> exact ⟨rfl, rfl⟩

namespace TickContext

variable (ctx : TickContext) (k : Nat)

@[simp] theorem later_hz : (ctx.later k).hz = ctx.hz := by cases k <;> rfl

@[simp] theorem later_tuning : (ctx.later k).tuning = ctx.tuning := by cases k <;> rfl

@[simp] theorem later_terrain : (ctx.later k).terrain = ctx.terrain := by cases k <;> rfl

end TickContext

namespace Shot

/-- The leg in flight after `k` ticks was launched in the meantime, in a finite direction. -/
structure Airborne (ctx : TickContext) (k : Nat) (s : Shot) : Prop where
  since : ctx.tick ≤ s.launchTick
  launched : s.launchTick ≤ (ctx.later k).tick
  heading : s.direction.isFinite = true

variable {ctx : TickContext} {k n : Nat} {s : Shot}

theorem Airborne.advance (h : Airborne ctx k s)
    (room : (ctx.later k).tick < Int32.maxValue) :
    Airborne ctx (k + 1) (s.advance (ctx.later (k + 1))).1 := by
  have hnext : (ctx.later k).tick ≤ (ctx.later (k + 1)).tick := Int32.le_of_lt (Tick.lt_next room)
  have hlaunched := Int32.le_trans h.launched hnext
  have hs := s.advanced (ctx.later (k + 1))
  generalize s.advance (ctx.later (k + 1)) = out at hs
  cases hs with
  | bounced hit =>
    refine ⟨?_, Int32.le_refl _, Vec2.isFinite_normalizeOrZero _⟩
    exact Int32.le_trans h.since (Int32.le_trans h.launched hnext)
  | inactive => exact ⟨h.since, hlaunched, h.heading⟩
  | impact => exact ⟨h.since, hlaunched, h.heading⟩
  | clipped => exact ⟨h.since, hlaunched, h.heading⟩
  | expired => exact ⟨h.since, hlaunched, h.heading⟩
  | flying => exact ⟨h.since, hlaunched, h.heading⟩

theorem later_lt (room : ctx.tick.toInt + n ≤ Int32.maxValue.toInt) (hk : k < n) :
    (ctx.later k).tick < Int32.maxValue := by
  rw [Int32.lt_iff_toInt_lt, ctx.toInt_later]
  omega

theorem airborne_ticked (l : Launch) (room : ctx.tick.toInt + n ≤ Int32.maxValue.toInt)
    (hk : k ≤ n) : Airborne ctx k ((fire ctx l).ticked ctx k) := by
  induction k with
  | zero => exact ⟨Int32.le_refl _, Int32.le_refl _, Vec2.isFinite_normalizeOrZero l.direction⟩
  | succ k ih =>
    rw [ticked_succ]
    exact (ih (by omega)).advance (later_lt room hk)

/-! ### Both ends of a segment -/

/-- While the ticks count on from the launch, a segment starts where the last one ended. -/
theorem sweepStart_later (h : Airborne ctx k s)
    (room : ctx.tick.toInt + n ≤ Int32.maxValue.toInt) (few : n < 2 ^ 31) (hk : k < n) :
    s.sweepStart (ctx.later (k + 1)) = s.positionIn (ctx.later k) := by
  have hclock := ctx.toInt_later k
  have hsince := Int32.le_iff_toInt_le.mp h.since
  have htime : ((s.flight (ctx.later (k + 1)).tick).minus 1).atLeastZero =
      s.flight (ctx.later k).tick :=
    Tick.minus_next h.launched (later_lt room hk) (by omega)
  unfold sweepStart positionIn flightSeconds TickContext.seconds
  rw [htime]
  simp only [TickContext.later_hz, TickContext.later_tuning]

/-- Zero time after its launch, a leg has not left its origin. -/
theorem positionIn_launch (c : TickContext) (now : s.launchTick = c.tick)
    (finite : c.tuning.Finite) (heading : s.direction.isFinite = true)
    (origin : s.origin.isFinite = true) : (s.positionIn c == s.origin) = true := by
  obtain ⟨hspeed, hgravity⟩ := finite s.tuneZone s.weapon
  have htime : Scalar.IsZero (s.flightSeconds c) := by
    unfold flightSeconds TickContext.seconds flight
    rw [now, Tick.minus_self]
    exact Tick.isZero_seconds c.hz
  have hfall := ((htime.mul_left (Scalar.isFinite_half hgravity)).mul_right htime.1)
  rw [Vec2.isFinite_iff] at heading origin
  have haway (d w : Scalar) (hd : d.isFinite = true) (hw : w.isFinite = true) :=
    ((htime.mul_left hspeed).mul_left hd).add (hfall.mul_left hw)
  show (_ == _ && _ == _) = true
  rw [Bool.and_eq_true]
  exact ⟨Scalar.beq_add_zero origin.1 (haway _ 0.0 heading.1 rfl),
    Scalar.beq_add_zero origin.2 (haway _ 1.0 heading.2 rfl)⟩

/-- The tick that throws a shot back starts a leg at the last free point. -/
theorem bounced_eq {c : TickContext} (h : (s.advance c).2 = .bounced) :
    ∃ hit, c.terrain.hit (s.sweepStart c) (s.positionIn c) = some hit ∧
      (s.advance c).1 = s.bounceOff c.tick hit := by
  have hs := s.advanced c
  generalize s.advance c = out at h hs
  cases hs with
  | bounced hit flew met => exact ⟨hit, met, rfl⟩
  | inactive => cases h
  | impact => cases h
  | clipped => cases h
  | expired => cases h
  | flying => cases h

theorem flying_eq {c : TickContext} (h : (s.advance c).2 = .flying) : (s.advance c).1 = s := by
  have hs := s.advanced c
  generalize s.advance c = out at h hs
  cases hs with
  | flying => rfl
  | inactive => cases h
  | impact => cases h
  | clipped => cases h
  | expired => cases h
  | bounced => cases h

theorem isFinite_origin_fire (ctx : TickContext) (l : Launch) :
    (fire ctx l).origin.isFinite = true := by
  show (if l.origin.isFinite then l.origin else Vec2.zero).isFinite = true
  by_cases h : l.origin.isFinite = true
  · rw [if_pos h]
    exact h
  · rw [if_neg h]
    rfl

/-- **No gaps.** Let a shot be fired where all speeds and gravities are finite, and ticked at
the next `n` ticks. The first segment that is swept starts at its origin, which is the given
one if that is finite, and zero otherwise. After a tick that lets it fly on, the next segment
starts at the very point where this one ended. And after a tick that throws it back, the next
segment starts at the last free point before the surface, if that point is finite. -/
theorem gapless (ctx : TickContext) (l : Launch) (finite : ctx.tuning.Finite) {n : Nat}
    (room : ctx.tick.toInt + n ≤ Int32.maxValue.toInt) (few : n < 2 ^ 31) :
    let s := (fire ctx l).ticked ctx
    let sweep (k : Nat) := (s k).sweepStart (ctx.later (k + 1))
    let reach (k : Nat) := (s k).positionIn (ctx.later (k + 1))
    (1 ≤ n → (sweep 0 == if l.origin.isFinite then l.origin else Vec2.zero) = true) ∧
      ∀ k, k + 2 ≤ n →
        ((fire ctx l).outcomeAt ctx (k + 1) = .flying → sweep (k + 1) = reach k) ∧
        ((fire ctx l).outcomeAt ctx (k + 1) = .bounced →
          ∃ hit, ctx.terrain.hit (sweep k) (reach k) = some hit ∧
            (hit.before.isFinite = true → (sweep (k + 1) == hit.before) = true)) := by
  intro s sweep reach
  -- each segment starts where the shot, as it is now, was a tick ago
  have hstart (k : Nat) (hk : k < n) : sweep k = (s k).positionIn (ctx.later k) :=
    sweepStart_later (airborne_ticked l room hk.le) room few hk
  refine ⟨fun hn => ?_, fun k hk => ⟨fun flew => ?_, fun back => ?_⟩⟩
  · rw [hstart 0 hn]
    exact positionIn_launch ctx rfl finite (Vec2.isFinite_normalizeOrZero l.direction)
      (isFinite_origin_fire ctx l)
  · rw [hstart (k + 1) hk]
    have hsame : s (k + 1) = s k := (ticked_succ _ ctx k).trans (flying_eq flew)
    rw [hsame]
  · obtain ⟨hit, met, hstep⟩ := bounced_eq back
    have hnext : s (k + 1) = (s k).bounceOff (ctx.later (k + 1)).tick hit :=
      (ticked_succ _ ctx k).trans hstep
    rw [TickContext.later_terrain] at met
    refine ⟨hit, met, fun free => ?_⟩
    rw [hstart (k + 1) hk, hnext]
    refine positionIn_launch (ctx.later (k + 1)) rfl ?_ (Vec2.isFinite_normalizeOrZero _) free
    rw [TickContext.later_tuning]
    exact finite

/-- The shot in the cage is thrown back in its first tick, and its second segment starts where
the first one was blocked. -/
theorem gapless_mayfly :
    let s := (fire caged mayfly).ticked caged
    caged.tuning.Finite ∧ caged.tick.toInt + (2 : Nat) ≤ Int32.maxValue.toInt ∧
      (fire caged mayfly).outcomeAt caged 1 = .bounced ∧
      ∃ hit, caged.terrain.hit ((s 0).sweepStart (caged.later 1))
          ((s 0).positionIn (caged.later 1)) = some hit ∧
        ((s 1).sweepStart (caged.later 2) == hit.before) = true := by
  intro s
  have finite : caged.tuning.Finite := TuningTable.finite_standard
  have room : caged.tick.toInt + (2 : Nat) ≤ Int32.maxValue.toInt := by decide
  have back := caged_mayfly 1 (by decide) (by decide)
  have free : ((caged.terrain.hit ((s 0).sweepStart (caged.later 1))
      ((s 0).positionIn (caged.later 1))).all (·.before.isFinite)) = true := by
    decide +kernel
  obtain ⟨-, hnext⟩ := gapless caged mayfly finite room (by decide)
  obtain ⟨hit, met, hstart⟩ := (hnext 0 (by decide)).2 back
  refine ⟨finite, room, back, hit, met, hstart ?_⟩
  rw [met] at free
  exact free

end Shot
end Volley
