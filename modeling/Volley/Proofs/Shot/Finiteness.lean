/-
# What stays finite in a flight

Whatever the tuning and the map, the direction and the force of a shot stay finite: they are made
so at the start, and a bounce ends with a unit vector (`Steady`). The origin and the points where
effects go off are taken from the way that a tick sweeps. They are finite while the difference of
the ends of that way is (`isFinite_origin_advance`), and a point of impact is only then
(`isFinite_impact_iff`). Nothing keeps the difference finite by itself: a speed or a gravity that
is finite, but close to the end of the range, makes it infinite, and the first tile of the map
stops the shot at a point that is not a number (`lost_in_shaft`). With speeds and gravities of at
most `2 ^ 30` units it is finite for every origin, every time and every rate
(`isFinite_swept`).

Key definitions: `TickContext.Mapped`, `TuningTable.Moderate`, `Shot.swept`, `Shot.Steady`,
`Shot.SweptFinitely`.
Key theorems: `Shot.Steady.advance`, `Shot.Steady.isFinite_positionAt`,
`Shot.Steady.isFinite_swept`, `Shot.finite_where_swept`.
-/
import Volley.Proofs.Along
import Volley.Proofs.Scalar.Bounds
import Volley.Proofs.Shot.Bounce
import Volley.Proofs.Shot.LifeCycle
import Volley.Proofs.TileGrid.FiniteHits

namespace Volley

/-! ### Records -/

namespace Record

theorem within_unquantize (n : Int32) {scale : Scalar} (finite : scale.isFinite = true)
    (hone : 1.0 ≤ scale) : (unquantize n scale).Within 32 := by
  have hvalue := (Scalar.le_iff_value.mp hone).2.2
  rw [Scalar.value_one] at hvalue
  exact (Scalar.within_ofInt32 n).div (by norm_num) finite hvalue

theorem within_position (r : Record) : r.position.Within 32 :=
  ⟨within_unquantize r.x rfl (by decide +kernel), within_unquantize r.y rfl (by decide +kernel)⟩

theorem within_direction (r : Record) : r.direction.Within 32 :=
  ⟨within_unquantize r.dirX rfl (by decide +kernel),
    within_unquantize r.dirY rfl (by decide +kernel)⟩

theorem isFinite_forceValue (r : Record) : r.forceValue.isFinite = true :=
  (within_unquantize r.force rfl (by decide +kernel)).finite

end Record

theorem Tick.within_seconds (t : Tick) (hz : UInt32) : (t.seconds hz).Within 32 :=
  (Scalar.within_ofInt32 t).div (by norm_num) (Scalar.isFinite_toFloat32 _)
    (Scalar.one_le_value_toFloat32 (Tick.rate_ne_zero hz))

/-- The map of the context is a map of tiles, with sizes that fit machine words. -/
def TickContext.Mapped (ctx : TickContext) : Prop :=
  ∃ g : TileGrid, g.Addressable ∧ ctx.terrain = g.terrain

/-- Every speed and every gravity of the table is at most `2 ^ 30`. -/
def TuningTable.Moderate (t : TuningTable) : Prop :=
  ∀ zone weapon, (t.get zone weapon).speed.Within 30 ∧ (t.get zone weapon).gravity.Within 30

theorem TuningTable.moderate_standard : TuningTable.standard.Moderate := by
  have hlarge : Scalar.Within 30 4096.0 := by
    refine ⟨rfl, ?_⟩
    rw [Scalar.value_of_digits (m := 2 ^ 23) (e := -11) (by decide) rfl]
    norm_num
  intro zone weapon
  unfold TuningTable.get
  rw [TuningTable.zone_standard]
  cases weapon <;>
    exact ⟨hlarge.of_abs_le (by decide +kernel), hlarge.of_abs_le (by decide +kernel)⟩

namespace Shot

variable {s : Shot} {ctx : TickContext}

/-- The difference of the ends of the way that a tick sweeps. -/
def swept (s : Shot) (ctx : TickContext) : Vec2 := s.positionIn ctx - s.sweepStart ctx

/-- The direction is nearly a unit vector, or at most as long as a record can say, and the force
is finite. -/
structure Steady (s : Shot) : Prop where
  direction : s.direction.Within 32
  force : s.force.isFinite = true

/-! ### The start of a flight -/

theorem steady_fire (ctx : TickContext) (l : Launch) : (fire ctx l).Steady where
  direction := (Vec2.within_normalizeOrZero l.direction).mono (by norm_num)
  force := by
    show (if l.force.isFinite then l.force else 0.0).isFinite = true
    split
    · assumption
    · rfl

theorem steady_ofRecord (ctx : TickContext) (r : Record) : (ofRecord ctx r).Steady where
  direction := by
    rw [direction_ofRecord]
    unfold recordedDirection
    split
    · exact (Vec2.within_normalizeOrZero r.direction).mono (by norm_num)
    · exact r.within_direction
  force := by
    unfold ofRecord
    simp only
    split <;> exact r.isFinite_forceValue

theorem isFinite_origin_ofRecord (ctx : TickContext) (r : Record) :
    (ofRecord ctx r).origin.isFinite = true := by
  unfold ofRecord
  simp only
  split
  · assumption
  · exact r.within_position.isFinite

theorem Source.steady (source : Source) : source.shot.Steady := by
  cases source with
  | fired ctx l => exact steady_fire ctx l
  | recorded ctx r => exact steady_ofRecord ctx r

theorem Source.isFinite_origin (source : Source) : source.shot.origin.isFinite = true := by
  cases source with
  | fired ctx l => exact isFinite_origin_fire ctx l
  | recorded ctx r => exact isFinite_origin_ofRecord ctx r

/-! ### One tick -/

theorem Steady.advance (h : s.Steady) (ctx : TickContext) : (s.advance ctx).1.Steady := by
  have hs := s.advanced ctx
  generalize s.advance ctx = out at hs
  cases hs with
  | bounced hit => exact ⟨(Vec2.within_normalizeOrZero _).mono (by norm_num), h.force⟩
  | inactive => exact h
  | impact => exact ⟨h.direction, h.force⟩
  | clipped => exact ⟨h.direction, h.force⟩
  | expired => exact ⟨h.direction, h.force⟩
  | flying => exact h

/-- A hit on the way of a tick is where that way says. -/
theorem isFinite_hit (mapped : ctx.Mapped) {hit : SegmentHit}
    (met : ctx.terrain.hit (s.sweepStart ctx) (s.positionIn ctx) = some hit) :
    (hit.point.isFinite = true ↔ (s.swept ctx).isFinite = true) ∧
      ((s.swept ctx).isFinite = true → hit.before.isFinite = true) := by
  obtain ⟨g, fits, hterrain⟩ := mapped
  rw [hterrain] at met
  exact TileGrid.firstHit_finite fits met

/-- The origin stays finite in a tick that sweeps a finite way. -/
theorem isFinite_origin_advance (mapped : ctx.Mapped) (finite : (s.swept ctx).isFinite = true)
    (h : s.origin.isFinite = true) : (s.advance ctx).1.origin.isFinite = true := by
  have hs := s.advanced ctx
  generalize s.advance ctx = out at hs
  cases hs with
  | bounced hit flew met => exact (isFinite_hit mapped met).2 finite
  | inactive | impact | clipped | expired | flying => exact h

/-- An effect goes off at a finite point exactly if the tick swept a finite way. -/
theorem isFinite_impact_iff (mapped : ctx.Mapped) {event : Impact}
    (h : (s.advance ctx).2 = .impact event) :
    event.force = s.force ∧
      (event.position.isFinite = true ↔ (s.swept ctx).isFinite = true) := by
  have hs := s.advanced ctx
  generalize s.advance ctx = out at h hs
  cases hs with
  | impact hit flew met =>
    cases h
    exact ⟨rfl, (isFinite_hit mapped met).1⟩
  | inactive => cases h
  | bounced => cases h
  | clipped => cases h
  | expired => cases h
  | flying => cases h

/-! ### Moderate tunings -/

/-- With a moderate tuning a shot gets nowhere near the end of the range from its origin. -/
theorem Steady.within_displacement (h : s.Steady) {tuning : TuningTable}
    (moderate : tuning.Moderate) {time : Scalar} (htime : time.Within 33) :
    (s.displacement time tuning).Within 102 := by
  obtain ⟨hspeed, hgravity⟩ := moderate s.tuneZone s.weapon
  have hway := hspeed.mul htime (by norm_num)
  have hfall := ((Scalar.within_half.mul hgravity (by norm_num)).mul htime (by norm_num)).mul htime
    (by norm_num)
  have hcoordinate {d w : Scalar} (hd : d.Within 32) (hw : w.Within 0) :
      (d * ((tuning.get s.tuneZone s.weapon).speed * time) +
        w * (0.5 * (tuning.get s.tuneZone s.weapon).gravity * time * time)).Within 102 := by
    have hfirst := (hd.mul hway (by norm_num)).mono (k := 101) (by norm_num)
    have hsecond := (hw.mul hfall (by norm_num)).mono (k := 101) (by norm_num)
    exact hfirst.add hsecond (by norm_num)
  exact ⟨hcoordinate h.direction.x (Scalar.within_zero 0),
    hcoordinate h.direction.y Scalar.within_one⟩

theorem Steady.isFinite_positionAt (h : s.Steady) (origin : s.origin.isFinite = true)
    {tuning : TuningTable} (moderate : tuning.Moderate) {time : Scalar} (htime : time.Within 33) :
    (s.positionAt time tuning).isFinite = true := by
  obtain ⟨hx, hy⟩ := Vec2.isFinite_iff.mp origin
  have haway := h.within_displacement moderate htime
  exact Vec2.isFinite_iff.mpr
    ⟨(Scalar.isFinite_add_within hx haway.x).1, (Scalar.isFinite_add_within hy haway.y).1⟩

/-- So it is at a finite point at every fraction of a tick. -/
theorem Steady.isFinite_within_tick (h : s.Steady) (origin : s.origin.isFinite = true)
    (moderate : ctx.tuning.Moderate) {fraction : Scalar} (h₀ : 0.0 ≤ fraction)
    (h₁ : fraction ≤ 1.0) :
    (s.positionAt (s.flightSeconds ctx + ctx.seconds 1 * fraction) ctx.tuning).isFinite = true := by
  have hpart := (Tick.within_seconds 1 ctx.hz).mul (Scalar.within_of_unit h₀ h₁) (by norm_num)
  exact h.isFinite_positionAt origin moderate
    ((Tick.within_seconds (s.flight ctx.tick) ctx.hz).add hpart (by norm_num))

/-- So the way that a tick sweeps is finite. -/
theorem Steady.isFinite_swept (h : s.Steady) (origin : s.origin.isFinite = true)
    (moderate : ctx.tuning.Moderate) : (s.swept ctx).isFinite = true := by
  obtain ⟨hx, hy⟩ := Vec2.isFinite_iff.mp origin
  have hend := h.within_displacement moderate
    ((Tick.within_seconds (s.flight ctx.tick) ctx.hz).mono (by norm_num))
  have hstart := h.within_displacement moderate
    ((Tick.within_seconds ((s.flight ctx.tick).minus 1).atLeastZero ctx.hz).mono (by norm_num))
  exact Vec2.isFinite_iff.mpr
    ⟨Scalar.isFinite_sub_within hx hend.x hstart.x, Scalar.isFinite_sub_within hy hend.y hstart.y⟩

/-! ### Runs -/

/-- Every tick of a run sweeps a finite way. -/
def SweptFinitely (s : Shot) (ctxs : List TickContext) : Prop :=
  Along (fun s ctx => (s.advance ctx).1) (fun s ctx => (s.swept ctx).isFinite = true) s ctxs

theorem Steady.after (h : s.Steady) (ctxs : List TickContext) : (s.after ctxs).Steady := by
  induction ctxs generalizing s with
  | nil => exact h
  | cons ctx ctxs ih => exact ih (h.advance ctx)

theorem isFinite_origin_after {ctxs : List TickContext} (mapped : ∀ c ∈ ctxs, c.Mapped)
    (finite : s.SweptFinitely ctxs) (h : s.origin.isFinite = true) :
    (s.after ctxs).origin.isFinite = true := by
  induction ctxs generalizing s with
  | nil => exact h
  | cons ctx ctxs ih =>
    obtain ⟨mapped, mapped'⟩ := List.forall_mem_cons.mp mapped
    exact ih mapped' finite.2 (isFinite_origin_advance mapped finite.1 h)

/-- With moderate tunings every tick of a run sweeps a finite way. -/
theorem Steady.sweptFinitely (h : s.Steady) (origin : s.origin.isFinite = true)
    {ctxs : List TickContext} (mapped : ∀ c ∈ ctxs, c.Mapped)
    (moderate : ∀ c ∈ ctxs, c.tuning.Moderate) : s.SweptFinitely ctxs := by
  induction ctxs generalizing s with
  | nil => trivial
  | cons ctx ctxs ih =>
    obtain ⟨mapped, mapped'⟩ := List.forall_mem_cons.mp mapped
    obtain ⟨moderate, moderate'⟩ := List.forall_mem_cons.mp moderate
    have hswept := h.isFinite_swept origin moderate
    have hnext := isFinite_origin_advance mapped hswept origin
    exact ⟨hswept, ih (h.advance ctx) hnext mapped' moderate'⟩

/-- **What stays finite.** Let a shot be fired, or rebuilt from a record, and go through ticks at
any moments, on maps of tiles and with any tunings. Its direction and its force are finite, and
so is the force of the effects that the next tick sets off. If all ticks so far have swept
finite ways, its origin is finite; and the effects go off at a finite point exactly if the next
tick sweeps a finite way. With speeds and gravities of at most `2 ^ 30` all ticks do. -/
theorem finite_where_swept (source : Source) (ctxs : List TickContext) (ctx : TickContext)
    (mapped : ∀ c ∈ ctx :: ctxs, c.Mapped) :
    let s := source.shot.after ctxs
    s.direction.isFinite = true ∧ s.force.isFinite = true ∧
      (source.shot.SweptFinitely ctxs → s.origin.isFinite = true) ∧
      (∀ event, (s.advance ctx).2 = .impact event →
        event.force.isFinite = true ∧
          (event.position.isFinite = true ↔ (s.swept ctx).isFinite = true)) ∧
      ((∀ c ∈ ctx :: ctxs, c.tuning.Moderate) →
        source.shot.SweptFinitely ctxs ∧ (s.swept ctx).isFinite = true) := by
  intro s
  obtain ⟨mapped, mapped'⟩ := List.forall_mem_cons.mp mapped
  have hsteady : s.Steady := source.steady.after ctxs
  have horigin (finite : source.shot.SweptFinitely ctxs) : s.origin.isFinite = true :=
    isFinite_origin_after mapped' finite source.isFinite_origin
  refine ⟨hsteady.direction.isFinite, hsteady.force, horigin, fun event hevent => ?_, ?_⟩
  · obtain ⟨hforce, hposition⟩ := isFinite_impact_iff mapped hevent
    exact ⟨hforce ▸ hsteady.force, hposition⟩
  · intro moderate
    obtain ⟨moderate, moderate'⟩ := List.forall_mem_cons.mp moderate
    have hswept := source.steady.sweptFinitely source.isFinite_origin mapped' moderate'
    exact ⟨hswept, hsteady.isFinite_swept (horigin hswept) moderate⟩

/-- The shot in the cage, if it has one bounce, is thrown back once and then sets off its effects,
both at finite points. -/
theorem finite_in_cage :
    let s := (Source.fired caged { mayfly with bounces := 1 }).shot.after [caged.later 1]
    s.pastLegs.length = 1 ∧ s.origin.isFinite = true ∧ s.direction.isFinite = true ∧
      ∃ event, (s.advance (caged.later 2)).2 = .impact event ∧ event.position.isFinite = true := by
  intro s
  have hcage : cage.Addressable := by decide
  have mapped : ∀ c ∈ [caged.later 2, caged.later 1], c.Mapped := by
    simp only [List.forall_mem_cons]
    exact ⟨⟨cage, hcage, rfl⟩, ⟨cage, hcage, rfl⟩, by simp⟩
  have moderate : ∀ c ∈ [caged.later 2, caged.later 1], c.tuning.Moderate := by
    simp only [List.forall_mem_cons]
    exact ⟨TuningTable.moderate_standard, TuningTable.moderate_standard, by simp⟩
  have bounced : s.pastLegs.length = 1 := by decide +kernel
  have struck : (s.advance (caged.later 2)).2.isImpact = true := by decide +kernel
  obtain ⟨direction, -, origin, effects, swept⟩ := finite_where_swept
    (.fired caged { mayfly with bounces := 1 }) [caged.later 1] (caged.later 2) mapped
  obtain ⟨before, now⟩ := swept moderate
  refine ⟨bounced, origin before, direction, ?_⟩
  cases hout : (s.advance (caged.later 2)).2 with
  | impact event => exact ⟨event, rfl, (effects event hout).2.mpr now⟩
  | flying | bounced | expired | clipped | inactive =>
    rw [hout] at struck
    cases struck

/-- A free tile below one that throws shots back. -/
def shaft : TileGrid where
  width := 1
  height := 2
  tiles := #[.bounce, .empty]
  zones := Array.replicate 2 defaultZone

/-- What shots see in the shaft at a tick, at one tick a second. Speed and gravity of the gun are
finite, but close to the end of the range. -/
def steep (tick : Tick) : TickContext where
  tick
  hz := 1
  tuning := TuningTable.standard.adjust defaultZone .gun fun t =>
    { t with speed := 3e38, gravity := 3e38 }
  terrain := shaft.terrain

/-- A shot from the free tile of the shaft downward. -/
def dive (bounces : UInt32) : Launch :=
  { weapon := .gun, owner := some ⟨3⟩, origin := ⟨16.0, 48.0⟩, direction := ⟨0.0, 1.0⟩, bounces }

/-- The tuning is finite. In the first tick the shot is stopped by the tile that it flies away
from, at a point that is not a number. If it is first looked at after three ticks and can bounce,
it is thrown back there, and its new origin is not finite. -/
theorem lost_in_shaft :
    let tuning := (steep 0).tuning.get defaultZone .gun
    let thrown := (fire (steep 0) (dive 1)).after [steep 3]
    tuning.speed.isFinite = true ∧ tuning.gravity.isFinite = true ∧ shaft.Addressable ∧
      (((fire (steep 0) (dive 0)).advance (steep 1)).2.impact?.any
        fun event => !event.position.isFinite) = true ∧
      thrown.removed = false ∧ thrown.origin.isFinite = false := by
  decide +kernel

end Shot

end Volley
