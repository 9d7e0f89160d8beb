/-
# Which fractions can be drawn

A client that predicts draws a shot on its trajectory, and takes a fraction that is not finite
for zero. Without prediction it draws an entity between its two newest snapshots, where both list
it. Recorded positions are far from the end of the range, so there every number will do as a
fraction: it is moved into the unit interval. What is not a number stays what it is, and so does
the position (`Vec2.isFinite_lerp_iff`). Where one of the snapshots does not list the entity, it
is drawn at its newest record, or on its trajectory again.

Key definitions: `Client.Traced`, `Client.DrawnBetween`.
Key theorems: `Client.isFinite_of_between_iff`, `Client.isFinite_of_not_between`,
`Client.renderPositions_finite_iff`.
-/
import Volley.Proofs.Client.Mirror
import Volley.Proofs.Shot.Finiteness

namespace Volley

namespace Client

/-- All live shots are at finite points at every fraction of the current tick. -/
def Traced (c : Client) : Prop :=
  ∀ e ∈ c.world.live, ∀ fraction : Scalar, 0.0 ≤ fraction → fraction ≤ 1.0 →
    (e.shot.positionAt (e.shot.flightSeconds c.world.context + c.world.context.seconds 1 * fraction)
      c.world.context.tuning).isFinite = true

/-- The client draws the entity between its two newest snapshots. -/
def DrawnBetween (c : Client) (e : Entity) : Prop :=
  c.predicting = false ∧ ∃ id older newer a b, e.serverId = some id ∧
    [older, newer] <:+ c.history.snapshots ∧ older.find? id = some a ∧ newer.find? id = some b

variable {c : Client} {e : Entity}

/-- On its trajectory a shot is drawn at a finite point, whatever the fraction. -/
theorem Traced.isFinite_renderPosition (traced : c.Traced) (he : e ∈ c.world.live)
    (fraction : Scalar) : (e.shot.renderPosition c.world.context fraction).isFinite = true := by
  unfold Shot.renderPosition
  simp only
  split
  · rename_i hfinite
    obtain ⟨hlow, hhigh⟩ := Scalar.clampUnit_bounds (Scalar.isNaN_of_isFinite hfinite)
    exact traced e he _ hlow hhigh
  · exact traced e he _ (by decide +kernel) (by decide +kernel)

/-- Between two snapshots an entity is drawn at a finite point exactly if the fraction is a
number. -/
theorem isFinite_of_between_iff (between : c.DrawnBetween e) (fraction : Scalar) :
    (c.renderPosition fraction e).isFinite = true ↔ fraction.isNaN = false := by
  obtain ⟨off, id, older, newer, a, b, number, last, ha, hb⟩ := between
  have hdrawn : c.history.interpolate id fraction = some (a.position.lerp b.position fraction) :=
    (History.interpolate_eq_some_iff _ _ _ _).mpr ⟨older, newer, a, b, last, ha, hb, rfl⟩
  have hposition : c.renderPosition fraction e = a.position.lerp b.position fraction := by
    simp [renderPosition, confirmedPosition, off, number, hdrawn]
  rw [hposition]
  exact Vec2.isFinite_lerp_iff a.within_position b.within_position (by norm_num) fraction

/-- Any other entity is drawn at a finite point. -/
theorem isFinite_of_not_between (traced : c.Traced) (he : e ∈ c.world.live)
    (apart : ¬c.DrawnBetween e) (fraction : Scalar) :
    (c.renderPosition fraction e).isFinite = true := by
  have honTrajectory := traced.isFinite_renderPosition he fraction
  cases hp : c.predicting with
  | true =>
    have hposition : c.renderPosition fraction e =
        e.shot.renderPosition c.world.context fraction := by simp [renderPosition, hp]
    rw [hposition]
    exact honTrajectory
  | false =>
    cases number : e.serverId with
    | none =>
      have hposition : c.renderPosition fraction e =
          e.shot.renderPosition c.world.context fraction := by simp [renderPosition, number]
      rw [hposition]
      exact honTrajectory
    | some id =>
      have hnone : c.history.interpolate id fraction = none := by
        refine Option.eq_none_iff_forall_ne_some.mpr fun p hp' => apart ?_
        obtain ⟨older, newer, a, b, last, ha, hb, -⟩ :=
          (History.interpolate_eq_some_iff _ _ _ _).mp hp'
        exact ⟨hp, id, older, newer, a, b, number, last, ha, hb⟩
      have hposition : c.renderPosition fraction e =
          ((c.history.record? id).map (·.position)).getD
            (e.shot.renderPosition c.world.context fraction) := by
        simp [renderPosition, confirmedPosition, hp, number, hnone]
      rw [hposition]
      cases c.history.record? id with
      | none => exact honTrajectory
      | some r => exact r.within_position.isFinite

/-- **Which fractions can be drawn.** Let all live shots of a client be at finite points at every
fraction of the current tick. Then all positions that it draws are finite exactly if the fraction
it is asked for is a number, infinite or not, or it draws no entity between two snapshots. -/
theorem renderPositions_finite_iff (traced : c.Traced) (fraction : Scalar) :
    (∀ drawn ∈ c.renderPositions fraction, drawn.2.isFinite = true) ↔
      fraction.isNaN = false ∨ ∀ e ∈ c.world.live, ¬c.DrawnBetween e := by
  rw [renderPositions, List.forall_mem_map]
  constructor
  · intro finite
    by_cases hnumber : fraction.isNaN = false
    · exact Or.inl hnumber
    · exact Or.inr fun e he between =>
        hnumber ((isFinite_of_between_iff between fraction).mp (finite e he))
  · intro h e he
    by_cases between : c.DrawnBetween e
    · rcases h with number | apart
      · exact (isFinite_of_between_iff between fraction).mpr number
      · exact absurd between (apart e he)
    · exact isFinite_of_not_between traced he between fraction

/-- With moderate tuning, the shots that a client mirrors are all at finite points. -/
theorem traced_of_mirroring (cfg : Config) (terrain : Terrain) (moderate : cfg.tuning.Moderate)
    {as : List Action} (stays : ∀ a ∈ as, a ≠ .setPredicting true) :
    (((Client.new cfg terrain).setPredicting false).play as).Traced := by
  let start := (Client.new cfg terrain).setPredicting false
  have hstart : start.world.Mirrors (World.new cfg terrain).contextAt
      ([] : List Snapshot).getLast? := World.mirrors_new cfg terrain
  obtain ⟨newest, hmirrors⟩ : ∃ newest, (start.play as).world.Mirrors
      (World.new cfg terrain).contextAt newest :=
    ⟨_, mirrors_play rfl stays hstart⟩
  show (start.play as).Traced
  generalize start.play as = c at hmirrors
  have hcontext : c.world.context = (World.new cfg terrain).contextAt c.world.tick :=
    congrFun hmirrors.context c.world.tick
  intro e he fraction h₀ h₁
  have hshown := hmirrors.shown
  cases newest with
  | none =>
    rw [show c.world.live = [] from hshown] at he
    cases he
  | some s =>
    obtain ⟨item, -, hstands⟩ := hshown.exists_item he
    rw [hstands.shot, hcontext]
    exact (Shot.steady_ofRecord _ item.record).isFinite_within_tick
      (Shot.isFinite_origin_ofRecord _ item.record) moderate h₀ h₁

/-- Two snapshots of a shot on its way. -/
def sightings : List Action :=
  [.receive { tick := 1, items := [⟨⟨7⟩, { (default : Record) with x := 3200 }⟩] },
    .receive { tick := 3, items := [⟨⟨7⟩, { (default : Record) with x := 4800 }⟩] }]

/-- A client that does not predict and has taken them. -/
def watcher : Client := ((Client.new .standard .openSpace).setPredicting false).play sightings

theorem traced_watcher : watcher.Traced :=
  traced_of_mirroring .standard .openSpace TuningTable.moderate_standard (by simp [sightings])

/-- At an infinite fraction everything is drawn at a finite point. -/
theorem renderPositions_finite_watcher :
    watcher.Traced ∧ (watcher.renderPositions (1.0 / 0.0)).length = 1 ∧
      ∀ drawn ∈ watcher.renderPositions (1.0 / 0.0), drawn.2.isFinite = true :=
  ⟨traced_watcher, by decide +kernel,
    (renderPositions_finite_iff traced_watcher (1.0 / 0.0)).mpr (Or.inl (by decide +kernel))⟩

/-- At a fraction that is not a number, the shot is not drawn at a finite point, although its
trajectory has one at every fraction. -/
theorem lost_between_sightings :
    watcher.Traced ∧ watcher.predicting = false ∧
      ¬∀ drawn ∈ watcher.renderPositions (0.0 / 0.0), drawn.2.isFinite = true :=
  ⟨traced_watcher, by decide +kernel, by decide +kernel⟩

end Client

end Volley
