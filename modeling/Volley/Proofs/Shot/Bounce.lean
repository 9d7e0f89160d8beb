/-
# Where a bounce leads

A bounce mirrors the heading of the launch, while the normal of the surface faces the way of
the last tick (`firstHit_against`). The new heading leads away from the surface if the old one
led into it (`dot_mirrored`). Gravity can have turned the flight around in between: then the
old heading led away from the surface, and the new one leads into it
(`lob_bounces_into_floor`). But a coordinate that is thrown forward and not pulled back only
grows (`reach_mono`, `reach_anti`). So unless gravity pulls into the surface, the heading led
into what the shot ran into (`headed_into`), and the new one leaves it (`bounce_leaves`).

Key definitions: `Shot.reach`.
Key theorems: `Shot.reach_mono`, `Shot.reach_anti`, `Tick.seconds_mono`, `Shot.headed_into`,
`Shot.bounce_leaves`.
-/
import Volley.Proofs.Scalar.Reflection
import Volley.Proofs.Shot.Gapless
import Volley.Proofs.TileGrid.Facing

namespace Volley

/-! ### One coordinate of a flight -/

namespace Shot

open Scalar

/-- One coordinate of a flight: the origin, moved on with speed `v` in the direction `d`, and
pulled by the gravity `g` if `w` is one. -/
def reach (o d v w g t : Scalar) : Scalar := o + (d * (v * t) + w * (0.5 * g * t * t))

theorem positionAt_eq (s : Shot) (time : Scalar) (tuning : TuningTable) :
    let t := tuning.get s.tuneZone s.weapon
    s.positionAt time tuning =
      ⟨reach s.origin.x s.direction.x t.speed 0.0 t.gravity time,
        reach s.origin.y s.direction.y t.speed 1.0 t.gravity time⟩ := rfl

variable {o d v w g t t' : Scalar}

theorem pulled_of_isZero (hw : IsZero w) {x y : Scalar} (hx : (w * x).isNaN = false)
    (hy : (w * y).isNaN = false) : w * x ≤ w * y := by
  have hzero := isZero_mul (Or.inl hw) hx
  have hzero' := isZero_mul (Or.inl hw) hy
  rw [le_iff_value, hzero.2, hzero'.2]
  exact ⟨hx, hy, le_rfl⟩

section

variable (h₀ : 0 ≤ t.value) (ht : t ≤ t') (ht' : t'.isFinite = true)
include h₀ ht ht'

theorem isFinite_of_time : t.isFinite = true := by
  obtain ⟨hnumber, -, hle⟩ := le_iff_value.mp ht
  exact isFinite_of_abs_le hnumber ht' (abs_le_abs_of_nonneg h₀ hle)

/-- Gravity pulls further and further. -/
theorem fall_mono (hg : 0 ≤ g.value) (hfall : (0.5 * g * t * t).isNaN = false)
    (hfall' : (0.5 * g * t' * t').isNaN = false) : 0.5 * g * t * t ≤ 0.5 * g * t' * t' := by
  obtain ⟨-, -, hle⟩ := le_iff_value.mp ht
  have hpull := (numbers_of_mul hfall).1
  have hpull' := (numbers_of_mul hfall').1
  have hhalf : 0 ≤ (0.5 * g).value := by
    refine value_mul_nonneg (numbers_of_mul hpull).1 (mul_nonneg ?_ hg)
    rw [value_half]
    norm_num
  have hgrow := product_mono_of_nonneg hhalf ht hpull hpull'
  have hgrow' := (le_iff_value.mp hgrow).2.2
  have hpos := value_mul_nonneg hpull (mul_nonneg hhalf h₀)
  refine product_mono hfall hfall' (mul_le_mul hgrow' hle h₀ (hpos.trans hgrow')) ?_ ?_
  · rintro - ⟨hfinite, -⟩
    exact ⟨isFinite_of_abs_le hpull hfinite (abs_le_abs_of_nonneg hpos hgrow'),
      isFinite_of_time h₀ ht ht'⟩
  · intro hneg
    exact absurd hneg (not_lt.mpr (mul_nonneg (hpos.trans hgrow') (h₀.trans hle)))

theorem fall_anti (hg : g.value ≤ 0) (hfall : (0.5 * g * t * t).isNaN = false)
    (hfall' : (0.5 * g * t' * t').isNaN = false) : 0.5 * g * t' * t' ≤ 0.5 * g * t * t := by
  obtain ⟨-, -, hle⟩ := le_iff_value.mp ht
  have hpull := (numbers_of_mul hfall).1
  have hpull' := (numbers_of_mul hfall').1
  have hhalf : (0.5 * g).value ≤ 0 := by
    refine value_mul_nonpos (numbers_of_mul hpull).1 (mul_nonpos_of_nonneg_of_nonpos ?_ hg)
    rw [value_half]
    norm_num
  have hgrow := product_anti_of_nonpos hhalf ht hpull' hpull
  have hgrow' := (le_iff_value.mp hgrow).2.2
  have hneg := value_mul_nonpos hpull (mul_nonpos_of_nonpos_of_nonneg hhalf h₀)
  have hprod : (0.5 * g * t').value * t'.value ≤ (0.5 * g * t).value * t.value := by
    calc (0.5 * g * t').value * t'.value
        ≤ (0.5 * g * t).value * t'.value := mul_le_mul_of_nonneg_right hgrow' (h₀.trans hle)
      _ ≤ (0.5 * g * t).value * t.value := mul_le_mul_of_nonpos_left hle hneg
  refine product_mono hfall' hfall hprod ?_ ?_
  · intro hpos
    have hprod' := mul_nonpos_of_nonpos_of_nonneg (hgrow'.trans hneg) (h₀.trans hle)
    exact absurd hpos (not_lt.mpr hprod')
  · rintro - ⟨hfinite, -⟩
    exact ⟨isFinite_of_abs_le hpull hfinite (abs_le_abs_of_nonpos hneg hgrow'),
      isFinite_of_time h₀ ht ht'⟩

/-- With time a coordinate grows if neither the heading nor gravity leads down. -/
theorem reach_mono (hd : 0 ≤ d.value) (hv : 0 ≤ v.value) (hw : IsZero w ∨ 0 ≤ w.value ∧ 0 ≤ g.value)
    (hreach : (reach o d v w g t).isNaN = false)
    (hreach' : (reach o d v w g t').isNaN = false) : reach o d v w g t ≤ reach o d v w g t' := by
  obtain ⟨ho, hmove⟩ := numbers_of_add hreach
  obtain ⟨-, hmove'⟩ := numbers_of_add hreach'
  obtain ⟨hthrown, hpulled⟩ := numbers_of_add hmove
  obtain ⟨hthrown', hpulled'⟩ := numbers_of_add hmove'
  have hforward : d * (v * t) ≤ d * (v * t') :=
    product_mono_of_nonneg hd (product_mono_of_nonneg hv ht (numbers_of_mul hthrown).2
      (numbers_of_mul hthrown').2) hthrown hthrown'
  have hfall : w * (0.5 * g * t * t) ≤ w * (0.5 * g * t' * t') := by
    rcases hw with hnone | ⟨hdown, hg⟩
    · exact pulled_of_isZero hnone hpulled hpulled'
    · exact product_mono_of_nonneg hdown (fall_mono h₀ ht ht' hg (numbers_of_mul hpulled).2
        (numbers_of_mul hpulled').2) hpulled hpulled'
  exact sum_mono (le_iff_value.mpr ⟨ho, ho, le_rfl⟩) (sum_mono hforward hfall hmove hmove')
    hreach hreach'

/-- It shrinks if neither of them leads up. -/
theorem reach_anti (hd : d.value ≤ 0) (hv : 0 ≤ v.value) (hw : IsZero w ∨ 0 ≤ w.value ∧ g.value ≤ 0)
    (hreach : (reach o d v w g t).isNaN = false)
    (hreach' : (reach o d v w g t').isNaN = false) : reach o d v w g t' ≤ reach o d v w g t := by
  obtain ⟨ho, hmove⟩ := numbers_of_add hreach
  obtain ⟨-, hmove'⟩ := numbers_of_add hreach'
  obtain ⟨hthrown, hpulled⟩ := numbers_of_add hmove
  obtain ⟨hthrown', hpulled'⟩ := numbers_of_add hmove'
  have hforward : d * (v * t') ≤ d * (v * t) :=
    product_anti_of_nonpos hd (product_mono_of_nonneg hv ht (numbers_of_mul hthrown).2
      (numbers_of_mul hthrown').2) hthrown' hthrown
  have hfall : w * (0.5 * g * t' * t') ≤ w * (0.5 * g * t * t) := by
    rcases hw with hnone | ⟨hdown, hg⟩
    · exact pulled_of_isZero hnone hpulled' hpulled
    · exact product_mono_of_nonneg hdown (fall_anti h₀ ht ht' hg (numbers_of_mul hpulled).2
        (numbers_of_mul hpulled').2) hpulled' hpulled
  exact sum_mono (le_iff_value.mpr ⟨ho, ho, le_rfl⟩) (sum_mono hforward hfall hmove' hmove)
    hreach' hreach

/-- A coordinate that is not pulled out of what faces it was thrown into it. -/
theorem thrown_into {σ : Scalar} (hσ : IsSign σ) (hv : 0 ≤ v.value)
    (hw : IsZero w ∨ 0 ≤ w.value ∧ 0 ≤ g.value * σ.value)
    (hagainst : TileGrid.Against σ (reach o d v w g t) (reach o d v w g t')) :
    d.value * σ.value ≤ 0 := by
  by_contra haway
  rcases hσ.2 with hone | hminus
  · rw [hone, mul_one] at haway
    obtain ⟨hreach', hreach, hlt⟩ := lt_iff_value.mp (hagainst.1 (hone ▸ one_pos))
    rw [hone, mul_one] at hw
    have hle := reach_mono h₀ ht ht' (not_le.mp haway).le hv hw hreach hreach'
    exact absurd (le_iff_value.mp hle).2.2 (not_le.mpr hlt)
  · rw [hminus, mul_neg_one] at haway
    obtain ⟨hreach, hreach', hlt⟩ := lt_iff_value.mp (hagainst.2 (hminus ▸ neg_one_lt_zero))
    rw [hminus, mul_neg_one, neg_nonneg] at hw
    have hle := reach_anti h₀ ht ht' (by linarith) hv hw hreach hreach'
    exact absurd (le_iff_value.mp hle).2.2 (not_le.mpr hlt)

end

end Shot

/-! ### The time of a tick -/

namespace Tick

theorem nearest_ofInt32 {t : Tick} (h : 0 ≤ t) : Scalar.Nearest t.toInt (Scalar.ofInt32 t) := by
  have hpos := Int32.le_iff_toInt_le.mp h
  rw [Int32.toInt_zero] at hpos
  have hcast : (t.toUInt32.toNat : ℚ) = t.toInt := by
    have hnat : (t.toUInt32.toNat : ℤ) = t.toInt := by
      rw [Int32.toNat_toUInt32_of_le h, Int32.toNatClampNeg]
      exact Int.toNat_of_nonneg hpos
    exact_mod_cast hnat
  unfold Scalar.ofInt32
  rw [if_neg (Int32.not_lt.mpr h), ← hcast]
  exact Scalar.nearest_toFloat32 _

theorem ofInt32_bounds {t : Tick} (h : 0 ≤ t) :
    (Scalar.ofInt32 t).isFinite = true ∧ 0 ≤ (Scalar.ofInt32 t).value ∧
      (Scalar.ofInt32 t).value ≤ 2 ^ 32 := by
  have hnear := nearest_ofInt32 h
  have hpos := Int32.le_iff_toInt_le.mp h
  rw [Int32.toInt_zero] at hpos
  have hcast : (0 : ℚ) ≤ t.toInt := by exact_mod_cast hpos
  have hmax : (t.toInt : ℚ) < 2 ^ 31 := by exact_mod_cast t.toInt_lt
  have hsmall : |(t.toInt : ℚ)| < 2 ^ (31 : ℤ) := by
    rw [abs_of_nonneg hcast]
    exact_mod_cast hmax
  obtain ⟨hfinite, herror⟩ := hnear.error (by norm_num) (by norm_num) hsmall
  have hupper := (abs_le.mp herror).2
  norm_num at hupper hmax
  refine ⟨hfinite, hnear.nonneg hcast, ?_⟩
  linarith

/-- Later ticks have later times. -/
theorem seconds_mono (hz : UInt32) {t t' : Tick} (h : 0 ≤ t) (h' : t ≤ t') :
    0 ≤ (t.seconds hz).value ∧ t.seconds hz ≤ t'.seconds hz ∧ (t'.seconds hz).isFinite = true := by
  have hrate := Scalar.isFinite_toFloat32 (max hz 1)
  have hone := Scalar.one_le_value_toFloat32 (rate_ne_zero hz)
  have hpos := Scalar.value_toFloat32_pos (rate_ne_zero hz)
  obtain ⟨hfinite, hnonneg, -⟩ := ofInt32_bounds h
  obtain ⟨hfinite', hnonneg', hbound⟩ := ofInt32_bounds (Int32.le_trans h h')
  have hnear := Scalar.nearest_div hfinite hrate hpos.ne'
  have hnear' := Scalar.nearest_div hfinite' hrate hpos.ne'
  have hticks := (nearest_ofInt32 h).mono (nearest_ofInt32 (Int32.le_trans h h'))
    (by exact_mod_cast Int32.le_iff_toInt_le.mp h')
  refine ⟨hnear.nonneg (div_nonneg hnonneg hpos.le), ?_, hnear'.isFinite ?_⟩
  · exact hnear.mono hnear' (div_le_div_of_nonneg_right (Scalar.le_iff_value.mp hticks).2.2 hpos.le)
  · rw [abs_of_nonneg (div_nonneg hnonneg' hpos.le)]
    calc _ ≤ Scalar.value (Scalar.ofInt32 t') := div_le_self hnonneg' hone
      _ ≤ 2 ^ 32 := hbound
      _ ≤ 2 ^ 127 := by norm_num

/-- Even where it stops at the end of the range, the time since launch is not negative. -/
theorem minus_nonneg {t launch : Tick} (h : launch ≤ t) : 0 ≤ t.minus launch := by
  have hle := Int32.le_iff_toInt_le.mp h
  have hlow : Int32.minValue.toInt = -2147483648 := rfl
  have hhigh : Int32.maxValue.toInt = 2147483647 := rfl
  rw [Int32.le_iff_toInt_le, Int32.toInt_zero]
  by_cases hfar : t.toInt - launch.toInt ≤ Int32.maxValue.toInt
  · have hexact : (t.minus launch).toInt = t.toInt - launch.toInt :=
      Int32.toInt_ofIntClamp (by omega) hfar
    omega
  · have hclamped : t.minus launch = Int32.maxValue := by
      rw [minus, Int32.ofIntClamp, dif_pos (by omega), dif_neg hfar]
    rw [hclamped]
    decide

/-- A segment does not start after its end. -/
theorem sweep_times {t launch : Tick} (h : launch ≤ t) :
    0 ≤ ((t.minus launch).minus 1).atLeastZero ∧
      ((t.minus launch).minus 1).atLeastZero ≤ t.minus launch := by
  refine ⟨atLeastZero_nonneg _, ?_⟩
  unfold atLeastZero
  by_cases hneg : (t.minus launch).minus 1 < 0
  · rw [if_pos hneg]
    exact minus_nonneg h
  · rw [if_neg hneg]
    exact minus_le (by decide)

end Tick

/-! ### The bounce -/

namespace Shot

open Scalar

variable {s : Shot} {ctx : TickContext}

/-- Unless gravity pulls it into the surface, a shot runs into a surface that its heading leads
into. -/
theorem headed_into {n : Vec2} (haxis : n.isAxis = true) (hd : s.direction.isFinite = true)
    (launched : s.launchTick ≤ ctx.tick)
    (forward : 0.0 ≤ (ctx.tuning.get s.tuneZone s.weapon).speed)
    (pull : (0.0 < n.y → 0.0 ≤ (ctx.tuning.get s.tuneZone s.weapon).gravity) ∧
      (n.y < 0.0 → (ctx.tuning.get s.tuneZone s.weapon).gravity ≤ 0.0))
    (hx : TileGrid.Against n.x (s.sweepStart ctx).x (s.positionIn ctx).x)
    (hy : TileGrid.Against n.y (s.sweepStart ctx).y (s.positionIn ctx).y) :
    (s.direction.dot n).value ≤ 0 := by
  obtain ⟨hzero, hle⟩ := Tick.sweep_times launched
  obtain ⟨h₀, ht, ht'⟩ := Tick.seconds_mono ctx.hz hzero hle
  have hv := (le_iff_value.mp forward).2.2
  rw [value_zero] at hv
  simp only [sweepStart, positionIn, positionAt_eq] at hx hy
  rcases Vec2.axis_cases haxis with ⟨hσ, hζ⟩ | ⟨hζ, hσ⟩
  · rw [(Vec2.dot_horizontal hd hσ hζ).2]
    exact thrown_into h₀ ht ht' hσ hv (Or.inl ⟨rfl, rfl⟩) hx
  · rw [(Vec2.dot_vertical hd hζ hσ).2]
    refine thrown_into h₀ ht ht' hσ hv (Or.inr ⟨?_, ?_⟩) hy
    · show 0 ≤ (1.0 : Scalar).value
      rw [value_one]
      exact zero_le_one
    · rcases hσ.2 with hone | hminus
      · have hup : 0.0 < n.y := lt_iff_value.mpr ⟨rfl, isNaN_of_isFinite hσ.1, hone ▸ one_pos⟩
        rw [hone, mul_one]
        exact (le_iff_value.mp (pull.1 hup)).2.2
      · have hdown : n.y < 0.0 :=
          lt_iff_value.mpr ⟨isNaN_of_isFinite hσ.1, rfl, hminus ▸ neg_one_lt_zero⟩
        rw [hminus, mul_neg_one, neg_nonneg]
        exact (le_iff_value.mp (pull.2 hdown)).2.2

/-- **A bounce leaves the surface** along which the launch heading led, or into which it led.
On a tile grid, a surface that throws a shot back faces the way of the last tick. If it is
parallel to an axis, the new heading does not lead into it, unless the heading of the launch
led away from it. And the launch heading led away from it only if gravity pulls into it: with
a speed that is not negative, a shot that gravity does not pull into the surface is thrown
back out of it. -/
theorem bounce_leaves {g : TileGrid} (onGrid : ctx.terrain = g.terrain)
    (back : (s.advance ctx).2 = .bounced) :
    let t := ctx.tuning.get s.tuneZone s.weapon
    let d' := (s.advance ctx).1.direction
    ∃ hit, g.firstHit (s.sweepStart ctx) (s.positionIn ctx) = some hit ∧
      TileGrid.Against hit.normal.x (s.sweepStart ctx).x (s.positionIn ctx).x ∧
      TileGrid.Against hit.normal.y (s.sweepStart ctx).y (s.positionIn ctx).y ∧
      (hit.normal.isAxis = true →
        (¬0.0 < s.direction.dot hit.normal → 0.0 ≤ d'.dot hit.normal) ∧
        (0.0 < s.direction.dot hit.normal → d'.dot hit.normal ≤ 0.0) ∧
        (s.launchTick ≤ ctx.tick → 0.0 ≤ t.speed →
          (0.0 < hit.normal.y → 0.0 ≤ t.gravity) ∧ (hit.normal.y < 0.0 → t.gravity ≤ 0.0) →
          0.0 ≤ d'.dot hit.normal)) := by
  intro t d'
  obtain ⟨hit, met, hstep⟩ := bounced_eq back
  have hhit : g.firstHit (s.sweepStart ctx) (s.positionIn ctx) = some hit := by
    rw [onGrid] at met
    exact met
  obtain ⟨hx, hy⟩ := TileGrid.firstHit_against hhit
  refine ⟨hit, hhit, hx, hy, fun haxis => ?_⟩
  have hd' : d' = (s.direction.reflect hit.normal).normalizeOrZero := by
    show (s.advance ctx).1.direction = _
    rw [hstep]
    rfl
  obtain ⟨hnumber, hinto, haway⟩ := Vec2.dot_mirrored (d := s.direction) haxis
  rw [← hd'] at hnumber hinto haway
  -- what does not lead into the surface leads along it or away from it
  have hleaves (h : ¬(d'.dot hit.normal).value < 0) : 0.0 ≤ d'.dot hit.normal :=
    le_iff_value.mpr ⟨rfl, hnumber, value_zero.le.trans (not_lt.mp h)⟩
  refine ⟨fun hnot => hleaves fun hneg => hnot ?_, fun hpos => ?_, fun launched forward pull => ?_⟩
  · have hpos := (hinto hneg).2
    exact lt_iff_value.mpr ⟨rfl, isNaN_of_value_ne hpos.ne', hpos⟩
  · obtain ⟨-, -, hpos⟩ := lt_iff_value.mp hpos
    exact le_iff_value.mpr ⟨hnumber, rfl, haway hpos⟩
  · refine hleaves fun hneg => ?_
    obtain ⟨hd, hpos⟩ := hinto hneg
    exact absurd (headed_into haxis hd launched forward pull hx hy) (not_le.mpr hpos)

/-- The wall of the cage throws the shot straight back. -/
theorem bounce_leaves_wall :
    let s := fire caged mayfly
    let c := caged.later 1
    let t := c.tuning.get s.tuneZone s.weapon
    c.terrain = cage.terrain ∧ (s.advance c).2 = .bounced ∧
      ∃ hit, cage.firstHit (s.sweepStart c) (s.positionIn c) = some hit ∧
        hit.normal.isAxis = true ∧ s.launchTick ≤ c.tick ∧ 0.0 ≤ t.speed ∧
        (0.0 < hit.normal.y → 0.0 ≤ t.gravity) ∧ ¬hit.normal.y < 0.0 ∧
        0.0 ≤ (s.advance c).1.direction.dot hit.normal := by
  intro s c t
  have back : (s.advance c).2 = .bounced := caged_mayfly 1 (by decide) (by decide)
  have wall : (cage.firstHit (s.sweepStart c) (s.positionIn c)).all
      (fun hit => hit.normal.isAxis && !decide (hit.normal.y < 0.0)) = true := by
    decide +kernel
  obtain ⟨hit, met, -, -, hleaves⟩ := bounce_leaves (g := cage) rfl back
  rw [met, Option.all_some, Bool.and_eq_true, Bool.not_eq_true', decide_eq_false_iff_not] at wall
  obtain ⟨haxis, hlevel⟩ := wall
  have launched : s.launchTick ≤ c.tick := by decide
  have forward : 0.0 ≤ t.speed := by decide +kernel
  have pull : 0.0 ≤ t.gravity := by decide +kernel
  refine ⟨rfl, back, hit, met, haxis, launched, forward, fun _ => pull, hlevel, ?_⟩
  exact (hleaves haxis).2.2 launched forward ⟨fun _ => pull, fun h => absurd h hlevel⟩

/-! ### A lob -/

/-- A free row above a floor that throws shots back. -/
def trampoline : TileGrid where
  width := 6
  height := 2
  tiles := Array.replicate 6 .empty ++ Array.replicate 6 .bounce
  zones := Array.replicate 12 defaultZone

/-- What shots see above the floor at the tick 0. -/
def aboveFloor : TickContext where
  tick := 0
  hz := 50
  tuning := .standard
  terrain := trampoline.terrain

/-- A grenade that is thrown a little upwards, with one bounce. -/
def lob : Launch :=
  { weapon := .grenade, owner := some ⟨3⟩, origin := ⟨16.0, 31.0⟩, direction := ⟨1.0, -0.0625⟩
    bounces := 1 }

/-- A grenade that comes down on the floor was thrown upwards, so its mirrored heading leads
down. -/
theorem lob_bounces_into_floor :
    let s := (fire aboveFloor lob).ticked aboveFloor 5
    let c := aboveFloor.later 6
    (s.advance c).2 = .bounced ∧
      ∃ hit, trampoline.firstHit (s.sweepStart c) (s.positionIn c) = some hit ∧
        hit.normal.isAxis = true ∧ (s.advance c).1.direction.dot hit.normal < 0.0 := by
  intro s c
  have bounces : ((s.advance c).2.isBounced &&
      (trampoline.firstHit (s.sweepStart c) (s.positionIn c)).any fun hit =>
        hit.normal.isAxis &&
          decide ((s.advance c).1.direction.dot hit.normal < 0.0)) = true := by
    decide +kernel
  rw [Bool.and_eq_true, Option.any_eq_true] at bounces
  obtain ⟨back, hit, met, into⟩ := bounces
  rw [Bool.and_eq_true, decide_eq_true_eq] at into
  exact ⟨Outcome.isBounced_iff.mp back, hit, met, into⟩

end Shot
end Volley
