/-
# The past of a flight

A tick ends a flight, starts a new leg with a bounce, or lets the flight go on
(`Advanced`). What is fixed at launch never changes (`Shot.fixed`), and legs are only added.
So a shot that has been stepped past a tick still answers for that tick what it was then:
`Past s p seen` says that `s` was `p` at the tick `seen`.

Key definitions: `Shot.Advanced`, `Shot.fixed`, `Shot.Timed`, `Shot.Past`.
Key theorems: `Tick.plus_minus_of_inRange`, `Shot.advanced`, `Shot.advance_of_removed`,
`Shot.eq_of_fixed`, `Shot.Past.advance`, `Shot.Past.legAt`, `Shot.Past.bouncesAt`,
`Shot.Past.extraAt`.
-/
import Mathlib.Data.List.Basic
import Volley.Shot.Advance

namespace Volley

namespace Tick

theorem toInt_next {t : Tick} (h : t < Int32.maxValue) : t.next.toInt = t.toInt + 1 := by
  have hlt : t.toInt < Int32.maxValue.toInt := Int32.lt_iff_toInt_lt.mp h
  have hlow := t.minValue_le_toInt
  exact Int32.toInt_ofIntClamp (by rw [Int32.toInt_one]; omega) (by rw [Int32.toInt_one]; omega)

theorem lt_next {t : Tick} (h : t < Int32.maxValue) : t < t.next := by
  rw [Int32.lt_iff_toInt_lt, toInt_next h]
  omega

theorem toInt_plus {a b : Tick} (h : InRange (a.toInt + b.toInt)) :
    (a.plus b).toInt = a.toInt + b.toInt :=
  Int32.toInt_ofIntClamp h.1 h.2

theorem toInt_minus {a b : Tick} (h : InRange (a.toInt - b.toInt)) :
    (a.minus b).toInt = a.toInt - b.toInt :=
  Int32.toInt_ofIntClamp h.1 h.2

/-- A difference that is exact leads from the one moment to the other. -/
theorem plus_minus_of_inRange {a b : Tick} (h : InRange (b.toInt - a.toInt)) :
    a.plus (b.minus a) = b := by
  have hsum : a.toInt + (b.toInt - a.toInt) = b.toInt := by omega
  rw [plus, toInt_minus h, hsum]
  exact Int32.ofIntClamp_toInt b

/-- A sum that is exact lies as far from the moment as was added. -/
theorem minus_plus {a b : Tick} (h : InRange (a.toInt + b.toInt)) : (a.plus b).minus a = b := by
  have hdifference : a.toInt + b.toInt - a.toInt = b.toInt := by omega
  rw [minus, toInt_plus h, hdifference]
  exact Int32.ofIntClamp_toInt b

/-- A difference of two moments that are not before zero is exact. -/
theorem plus_minus {a b : Tick} (ha : 0 ≤ a) (hb : 0 ≤ b) : a.plus (b.minus a) = b := by
  have ha := Int32.le_iff_toInt_le.mp ha
  have hb := Int32.le_iff_toInt_le.mp hb
  have hmax := a.toInt_le
  have hmax' := b.toInt_le
  have hlow : Int32.minValue.toInt = -2147483648 := rfl
  have hhigh : Int32.maxValue.toInt = 2147483647 := rfl
  rw [Int32.toInt_zero] at ha hb
  exact plus_minus_of_inRange ⟨by omega, by omega⟩

theorem atLeastZero_nonneg (t : Tick) : 0 ≤ t.atLeastZero := by
  unfold atLeastZero
  split
  · exact Int32.le_refl 0
  · rename_i h
    exact Int32.not_lt.mp h

/-- Even where it stops at the end of the range, a difference is not too large. -/
theorem minus_le {a b : Tick} (hb : 0 ≤ b) : a.minus b ≤ a := by
  have hb := Int32.le_iff_toInt_le.mp hb
  have hmax := a.toInt_le
  rw [Int32.toInt_zero] at hb
  rw [Int32.le_iff_toInt_le]
  by_cases hlow : Int32.minValue.toInt ≤ a.toInt - b.toInt
  · have hexact : (a.minus b).toInt = a.toInt - b.toInt :=
      Int32.toInt_ofIntClamp hlow (by omega)
    omega
  · have hclamped : a.minus b = Int32.minValue := by
      rw [minus, Int32.ofIntClamp, dif_neg hlow]
    rw [hclamped]
    exact a.minValue_le_toInt

end Tick

namespace Shot

/-! ### One tick -/

/-- The ways in which a tick goes for a shot. -/
inductive Advanced (s : Shot) (ctx : TickContext) : Shot × Outcome → Prop where
  /-- The flight was over before. -/
  | inactive (ended : s.removed = true) : Advanced s ctx (s, .inactive)
  /-- A surface throws the shot back. -/
  | bounced (hit : SegmentHit) (flew : s.removed = false)
      (met : ctx.terrain.hit (s.sweepStart ctx) (s.positionIn ctx) = some hit)
      (bouncy : hit.bounce = true) (left : 0 < s.bounces) :
      Advanced s ctx (s.bounceOff ctx.tick hit, .bounced)
  /-- An obstacle ends the flight. -/
  | impact (hit : SegmentHit) (flew : s.removed = false)
      (met : ctx.terrain.hit (s.sweepStart ctx) (s.positionIn ctx) = some hit)
      (solid : ¬(hit.bounce = true ∧ 0 < s.bounces)) :
      Advanced s ctx (s.remove, .impact (s.impactAt ctx.tick hit.point))
  /-- The shot has left the map. -/
  | clipped (flew : s.removed = false)
      (free : ctx.terrain.hit (s.sweepStart ctx) (s.positionIn ctx) = none)
      (outside : ctx.terrain.clipped (s.positionIn ctx) = true) :
      Advanced s ctx (s.remove, .clipped)
  /-- The shot has outlived its span. -/
  | expired (flew : s.removed = false)
      (free : ctx.terrain.hit (s.sweepStart ctx) (s.positionIn ctx) = none)
      (inside : ctx.terrain.clipped (s.positionIn ctx) = false)
      (old : s.outlived ctx.tick = true) : Advanced s ctx (s.remove, .expired)
  /-- The flight goes on. -/
  | flying (flew : s.removed = false)
      (free : ctx.terrain.hit (s.sweepStart ctx) (s.positionIn ctx) = none)
      (inside : ctx.terrain.clipped (s.positionIn ctx) = false)
      (young : s.outlived ctx.tick = false) : Advanced s ctx (s, .flying)

/-- A tick goes in one of the six ways. -/
theorem advanced (s : Shot) (ctx : TickContext) : Advanced s ctx (s.advance ctx) := by
  unfold advance
  split
  · rename_i ended
    exact .inactive ended
  rename_i flew
  have flew : s.removed = false := by simpa using flew
  simp only
  split
  · rename_i hit met
    split
    · rename_i h
      rw [Bool.and_eq_true, decide_eq_true_eq] at h
      exact .bounced hit flew met h.1 h.2
    · rename_i h
      rw [Bool.and_eq_true, decide_eq_true_eq] at h
      exact .impact hit flew met h
  · rename_i free
    split
    · rename_i outside
      exact .clipped flew free outside
    rename_i inside
    have inside : ctx.terrain.clipped (s.positionIn ctx) = false := by simpa using inside
    split
    · rename_i old
      exact .expired flew free inside old
    · rename_i young
      exact .flying flew free inside (by simpa using young)

/-- A shot that sets off an impact is over. -/
theorem removed_of_impact {s : Shot} {ctx : TickContext} {event : Impact}
    (h : (s.advance ctx).2.impact? = some event) : (s.advance ctx).1.removed = true := by
  have hs := s.advanced ctx
  generalize s.advance ctx = out at h hs
  cases hs with
  | impact => rfl
  | clipped => rfl
  | expired => rfl
  | inactive => cases h
  | bounced => cases h
  | flying => cases h

/-- A tick does nothing to a flight that is over. -/
theorem advance_of_removed {s : Shot} (ended : s.removed = true) (ctx : TickContext) :
    s.advance ctx = (s, .inactive) := by
  rw [advance, if_pos ended]

/-- A bounce is taken from those that are left. -/
theorem bounces_bounceOff {s : Shot} (left : 0 < s.bounces) (tick : Tick) (hit : SegmentHit) :
    (s.bounceOff tick hit).bounces.toNat + 1 = s.bounces.toNat := by
  have hpos : 0 < s.bounces.toNat := left
  have hone : 1 ≤ s.bounces := left
  have hless : (s.bounceOff tick hit).bounces.toNat = s.bounces.toNat - 1 :=
    UInt32.toNat_sub_of_le _ _ hone
  omega

/-- What is fixed at launch: the shot without its leg, its past and its bounces. -/
def fixed (s : Shot) : Shot :=
  { s with
    origin := Vec2.zero
    direction := Vec2.zero
    launchTick := 0
    bounces := 0
    pastLegs := []
    removed := false }

/-- Two shots with the same in them differ in nothing else. -/
theorem eq_of_fixed {s p : Shot} (h : s.fixed = p.fixed) :
    s = { p with
      origin := s.origin
      direction := s.direction
      launchTick := s.launchTick
      bounces := s.bounces
      pastLegs := s.pastLegs
      removed := s.removed } := by
  simp only [fixed, Shot.mk.injEq] at h
  cases s
  cases p
  simp_all

theorem fixed_advance (s : Shot) (ctx : TickContext) : (s.advance ctx).1.fixed = s.fixed := by
  have hs := s.advanced ctx
  generalize s.advance ctx = out at hs
  cases hs <;> rfl

/-- All legs were launched between the start of the flight and `now`. -/
structure Timed (now : Tick) (s : Shot) : Prop where
  start : 0 ≤ s.startTick
  legs : ∀ leg ∈ s.legs, s.startTick ≤ leg.launchTick ∧ leg.launchTick ≤ now

theorem Timed.advance {now : Tick} {s : Shot} {ctx : TickContext} (h : Timed now s)
    (later : now ≤ ctx.tick) : Timed ctx.tick (s.advance ctx).1 := by
  have hold : ∀ leg ∈ s.legs, s.startTick ≤ leg.launchTick ∧ leg.launchTick ≤ ctx.tick :=
    fun leg hleg => ⟨(h.legs leg hleg).1, Int32.le_trans (h.legs leg hleg).2 later⟩
  have hs := s.advanced ctx
  generalize s.advance ctx = out at hs
  cases hs with
  | bounced hit =>
    refine ⟨h.start, fun leg hleg => ?_⟩
    rcases List.mem_cons.mp hleg with rfl | hleg
    · have hfirst := hold s.leg List.mem_cons_self
      exact ⟨Int32.le_trans hfirst.1 hfirst.2, Int32.le_refl _⟩
    · exact hold leg hleg
  | inactive => exact ⟨h.start, hold⟩
  | impact => exact ⟨h.start, hold⟩
  | clipped => exact ⟨h.start, hold⟩
  | expired => exact ⟨h.start, hold⟩
  | flying => exact ⟨h.start, hold⟩

/-! ### What was at a tick -/

/-- `s` was `p` at the tick `seen`: all its later legs come on top of those of `p`. -/
structure Past (s p : Shot) (seen : Tick) : Prop where
  fixed : s.fixed = p.fixed
  launched : ∀ leg ∈ p.legs, leg.launchTick ≤ seen
  since : ∃ later, s.legs = later ++ p.legs ∧ (∀ leg ∈ later, seen < leg.launchTick) ∧
    s.bounces.toNat + later.length = p.bounces.toNat ∧ (later = [] → s.origin = p.origin)

theorem Past.refl {p : Shot} {seen : Tick} (launched : ∀ leg ∈ p.legs, leg.launchTick ≤ seen) :
    Past p p seen :=
  ⟨rfl, launched, [], rfl, nofun, rfl, fun _ => rfl⟩

/-- What was at a tick is not changed by a later one. -/
theorem Past.advance {s p : Shot} {seen : Tick} {ctx : TickContext} (h : Past s p seen)
    (later : seen < ctx.tick) : Past (s.advance ctx).1 p seen := by
  have hs := s.advanced ctx
  generalize s.advance ctx = out at hs
  cases hs with
  | bounced hit flew met bouncy left =>
    obtain ⟨new, hlegs, hnew, hbounces, -⟩ := h.since
    refine ⟨h.fixed, h.launched, (s.bounceOff ctx.tick hit).leg :: new, ?_, fun leg hleg => ?_,
      ?_, nofun⟩
    · rw [List.cons_append, ← hlegs]
      rfl
    · rcases List.mem_cons.mp hleg with rfl | hleg
      · exact later
      · exact hnew leg hleg
    · have hless := bounces_bounceOff left ctx.tick hit
      show (s.bounceOff ctx.tick hit).bounces.toNat + (new.length + 1) = p.bounces.toNat
      omega
  | inactive => exact h
  | impact => exact ⟨h.fixed, h.launched, h.since⟩
  | clipped => exact ⟨h.fixed, h.launched, h.since⟩
  | expired => exact ⟨h.fixed, h.launched, h.since⟩
  | flying => exact h

/-- A shot that has not bounced since had what it has left. -/
theorem bouncesAt_of_unbounced {s : Shot} {tick : Tick} (h : s.bouncesAfter tick = 0) :
    s.bouncesAt tick = s.bounces := by
  rw [bouncesAt, h, Nat.add_zero, UInt32.ofNatClamp_eq_ofNat _ s.bounces.toNat_lt,
    UInt32.ofNat_toNat]

/-- A leg that was launched by then is later than all before it. -/
theorem latestLegBy_of_launched {seen : Tick} {leg : Leg} (launched : leg.launchTick ≤ seen)
    (earlier : List Leg) : latestLegBy seen leg earlier = leg := by
  cases earlier with
  | nil => rfl
  | cons => exact if_pos launched

theorem latestLegBy_append {seen : Tick} {p : Leg} (launched : p.launchTick ≤ seen) :
    ∀ (later : List Leg) {first : Leg} {rest earlier : List Leg},
      first :: rest = later ++ p :: earlier → (∀ leg ∈ later, seen < leg.launchTick) →
        latestLegBy seen first rest = p
  | [], first, rest, earlier, h, _ => by
    rw [List.nil_append, List.cons.injEq] at h
    rw [h.1]
    exact latestLegBy_of_launched launched rest
  | leg :: later, first, rest, earlier, h, hlater => by
    rw [List.cons_append, List.cons.injEq] at h
    obtain ⟨rfl, rfl⟩ := h
    have hfirst := hlater first List.mem_cons_self
    have hrest := fun leg hleg => hlater leg (List.mem_cons_of_mem _ hleg)
    cases later with
    | nil =>
      rw [List.nil_append, latestLegBy, if_neg (Int32.not_le.mpr hfirst)]
      exact latestLegBy_of_launched launched earlier
    | cons next later =>
      rw [List.cons_append, latestLegBy, if_neg (Int32.not_le.mpr hfirst)]
      exact latestLegBy_append launched (next :: later) rfl hrest

namespace Past

variable {s p : Shot} {seen : Tick}

/-- The leg in flight at that tick. -/
theorem legAt (h : Past s p seen) : s.legAt seen = p.leg := by
  obtain ⟨later, hlegs, hlater, -, -⟩ := h.since
  exact latestLegBy_append (h.launched p.leg List.mem_cons_self) later hlegs hlater

theorem directionAt (h : Past s p seen) : s.directionAt seen = p.direction := by
  rw [Shot.directionAt, h.legAt]
  rfl

/-- The bounces left at that tick. -/
theorem bouncesAt (h : Past s p seen) : s.bouncesAt seen = p.bounces := by
  obtain ⟨later, hlegs, hlater, hbounces, -⟩ := h.since
  have hafter : s.bouncesAfter seen = later.length := by
    have hnone : p.legs.dropLast.filter (fun leg => decide (seen < leg.launchTick)) = [] := by
      refine List.filter_eq_nil_iff.mpr fun leg hleg => ?_
      have := h.launched leg (List.dropLast_subset _ hleg)
      simpa using Int32.not_lt.mpr this
    have hall : later.filter (fun leg => decide (seen < leg.launchTick)) = later :=
      List.filter_eq_self.mpr fun leg hleg => by simpa using hlater leg hleg
    have hne : p.legs ≠ [] := List.cons_ne_nil _ _
    rw [bouncesAfter, hlegs, List.dropLast_append_of_ne_nil hne, List.filter_append, hnone,
      hall, List.append_nil]
  rw [Shot.bouncesAt, hafter, hbounces, UInt32.ofNatClamp_eq_ofNat _ p.bounces.toNat_lt,
    UInt32.ofNat_toNat]

/-- The extension block of that tick is the one that was published then. -/
theorem extraAt (h : Past s p seen) : s.extraAt seen = p.extraAt seen := by
  have hp := Past.refl h.launched
  rw [Shot.extraAt, Shot.extraAt, h.bouncesAt, hp.bouncesAt, h.legAt, hp.legAt]
  have hlayer : s.layer = p.layer := (congrArg Shot.layer h.fixed :)
  have hnumber : s.number = p.number := (congrArg Shot.number h.fixed :)
  have hzone : s.tuneZone = p.tuneZone := (congrArg Shot.tuneZone h.fixed :)
  have hstart : s.startTick = p.startTick := (congrArg Shot.startTick h.fixed :)
  rw [hlayer, hnumber, hzone, hstart]

/-- A shot that has not bounced since that tick is where it was on the same leg. -/
theorem unbounced (h : Past s p seen) (same : s.launchTick ≤ seen) :
    s.legs = p.legs ∧ s.bounces = p.bounces ∧ s.origin = p.origin := by
  obtain ⟨later, hlegs, hlater, hbounces, horigin⟩ := h.since
  cases later with
  | nil =>
    rw [List.length_nil, Nat.add_zero] at hbounces
    exact ⟨hlegs, UInt32.toNat_inj.mp hbounces, horigin rfl⟩
  | cons leg rest =>
    have hfirst := hlater leg List.mem_cons_self
    rw [legs, List.cons_append, List.cons.injEq] at hlegs
    rw [← hlegs.1] at hfirst
    exact absurd same (Int32.not_le.mpr hfirst)

end Past

end Shot

end Volley
