/-
# Every impact is delivered

A step strikes once for each live shot that hits something in it (`World.struckIn`), with what
the shot was before. Nothing else that is done with a world strikes, though a correction and a
late shot go through ticks of their own. What a run has struck is what was drained in it,
followed by what still waits (`drained_append_waiting`), and the reports of its steps count the
same strikes (`length_struckBy`). Shots that are put away in a step are those that struck,
expired or left the map in it, since no live shot was over before.

Clearing a world throws waiting effects away, so it is left out of these runs.

Key definitions: `Shot.strike?`, `World.struckBy`, `World.drainedBy`, `World.reportsBy`.
Key theorems: `World.act_impacts`, `World.drained_append_waiting`, `World.step_removed`,
`World.step_live`, `World.impacts_delivered`.
-/
import Volley.Proofs.World.Accounts
import Volley.Proofs.World.Run

namespace Volley

namespace Shot

/-- The impact of a tick, if its outcome is one: where it happens, with the tick and with what
the shot was before the tick. -/
def strike? (s : Shot) (ctx : TickContext) : Option Impact :=
  (s.advance ctx).2.impact?.map fun event =>
    { tick := ctx.tick
      position := event.position
      owner := s.owner
      weapon := s.weapon
      explosive := s.explosive
      freeze := s.freeze
      force := s.force
      sound := s.impactSound }

/-- What a tick reports is the strike. -/
theorem impact?_advance (s : Shot) (ctx : TickContext) :
    (s.advance ctx).2.impact? = s.strike? ctx := by
  unfold strike?
  have hs := s.advanced ctx
  generalize s.advance ctx = out at hs
  cases hs <;> rfl

/-- A flight ends in a tick by an impact, by its age or by leaving the map, and by one of these
only. -/
theorem removed_advance {s : Shot} (flies : s.removed = false) (ctx : TickContext) :
    (s.advance ctx).1.removed.toNat = (s.advance ctx).2.isImpact.toNat +
      (s.advance ctx).2.isExpired.toNat + (s.advance ctx).2.isClipped.toNat := by
  have hs := s.advanced ctx
  generalize s.advance ctx = out at hs
  cases hs with
  | inactive ended =>
    rw [flies] at ended
    cases ended
  | bounced hit flew =>
    show s.removed.toNat = 0
    rw [flies]
    rfl
  | flying flew =>
    show s.removed.toNat = 0
    rw [flies]
    rfl
  | impact => rfl
  | clipped => rfl
  | expired => rfl

end Shot

namespace World

/-! ### What a run strikes, takes and reports -/

/-- The impacts of an operation, in the order of the live entities. -/
def struckIn (w : World) : Action → List Impact
  | .step => w.live.filterMap (·.shot.strike? (w.contextAt w.tick.next))
  | _ => []

/-- The impacts that an operation takes. -/
def drainedIn (w : World) : Action → List Impact
  | .drain => w.drainImpacts.1
  | _ => []

/-- The report of an operation, if it is a step. -/
def reportsIn (w : World) : Action → List StepReport
  | .step => [w.step.1]
  | _ => []

/-- The impacts of a run, one step after the other. -/
def struckBy : World → List Action → List Impact := gather struckIn

/-- The impacts that a run takes, one after the other. -/
def drainedBy : World → List Action → List Impact := gather drainedIn

/-- The reports of the steps of a run. -/
def reportsBy : World → List Action → List StepReport := gather reportsIn

variable {w : World} {as : List Action}

/-- A step pushes what it strikes. -/
theorem emissions_eq (w : World) : w.emissions.map Prod.snd = w.struckIn .step := by
  simp only [emissions, advanceAll, struckIn, List.map_filterMap, List.filterMap_map]
  refine List.filterMap_congr fun e _ => ?_
  rw [← Shot.impact?_advance]
  simp [Function.comp_def]

/-- What waited before an operation and what it strikes is what it takes and what waits after
it. -/
theorem act_impacts (w : World) {a : Action} (keeps : a ≠ .clear) :
    w.drainedIn a ++ (w.act a).effects.impacts = w.effects.impacts ++ w.struckIn a := by
  cases a with
  | clear => exact absurd rfl keeps
  | step =>
    show w.step.2.effects.impacts = _
    rw [step_impacts, emissions_eq]
  | reconcile s policy =>
    show (w.reconcile s policy).2.effects.impacts = _
    rw [reconcile_effects]
    exact (List.append_nil _).symm
  | mirror s =>
    show (Client.replaceAll w s).effects.impacts = _
    rw [replaceAll_effects]
    exact (List.append_nil _).symm
  | drain => rfl
  | fire | addConfirmed | setTick => exact (List.append_nil _).symm

/-- What a run strikes is taken in it, in order, or still waits. -/
theorem drained_append_waiting (keeps : ∀ a ∈ as, a ≠ .clear) :
    w.drainedBy as ++ (w.play as).effects.impacts = w.effects.impacts ++ w.struckBy as := by
  induction as generalizing w with
  | nil => exact (List.append_nil _).symm
  | cons a as ih =>
    have hfirst := w.act_impacts (keeps a List.mem_cons_self)
    have hrest := ih (w := w.act a) fun b hb => keeps b (List.mem_cons_of_mem _ hb)
    calc w.drainedBy (a :: as) ++ (w.play (a :: as)).effects.impacts
        = w.drainedIn a ++ ((w.act a).drainedBy as ++ ((w.act a).play as).effects.impacts) :=
          List.append_assoc _ _ _
      _ = w.drainedIn a ++ (w.act a).effects.impacts ++ (w.act a).struckBy as := by
          rw [hrest, List.append_assoc]
      _ = w.effects.impacts ++ w.struckBy (a :: as) := by
          rw [hfirst, List.append_assoc]
          rfl

/-! ### What the reports count -/

theorem impacts_advanceAll (ctx : TickContext) (entities : List Entity) :
    ((advanceAll ctx entities).map Prod.snd).countP Outcome.isImpact =
      (entities.filterMap (·.shot.strike? ctx)).length := by
  induction entities with
  | nil => rfl
  | cons e rest ih =>
    have hstrike := e.shot.impact?_advance ctx
    simp only [advanceAll, List.map_cons, List.countP_cons, List.filterMap_cons] at ih ⊢
    rw [ih, ← hstrike]
    cases (e.shot.advance ctx).2 <;> rfl

/-- A step reports as many impacts as it strikes. -/
theorem step_report_impacts (w : World) : w.step.1.impacts = (w.struckIn .step).length :=
  impacts_advanceAll (w.contextAt w.tick.next) w.live

/-- The reports of a run count all that it strikes. -/
theorem length_struckBy (w : World) (as : List Action) :
    (w.struckBy as).length = ((w.reportsBy as).map (·.impacts)).sum := by
  induction as generalizing w with
  | nil => rfl
  | cons a as ih =>
    have hsplit : (w.struckBy (a :: as)).length =
        (w.struckIn a).length + ((w.act a).struckBy as).length := List.length_append
    rw [hsplit, ih]
    cases a with
    | step =>
      rw [← step_report_impacts]
      rfl
    | _ => exact Nat.zero_add _

/-- What a tick brings to its end among shots in flight. -/
theorem removed_advanceAll (ctx : TickContext) {entities : List Entity}
    (flying : ∀ e ∈ entities, e.shot.removed = false) :
    let outcomes := (advanceAll ctx entities).map Prod.snd
    ((advanceAll ctx entities).map Prod.fst).countP (·.shot.removed) =
      outcomes.countP Outcome.isImpact + outcomes.countP Outcome.isExpired +
        outcomes.countP Outcome.isClipped := by
  intro outcomes
  induction entities with
  | nil => rfl
  | cons e rest ih =>
    have hrest := ih fun x hx => flying x (List.mem_cons_of_mem _ hx)
    have hfirst := Shot.removed_advance (flying e List.mem_cons_self) ctx
    simp only [Bool.toNat, Bool.cond_eq_ite] at hfirst
    simp only [outcomes, advanceAll, List.map_cons, List.countP_cons] at hrest ⊢
    omega

/-- What a step puts away are the shots whose flight ended in it. -/
theorem step_removed (tidy : Tidy w) :
    w.step.1.removed = w.step.1.impacts + w.step.1.expired + w.step.1.clipped :=
  removed_advanceAll (w.contextAt w.tick.next) tidy.flying

/-- A step takes as many entities from the live ones as it puts away. -/
theorem step_live (w : World) : w.step.1.removed + w.step.2.live.length = w.live.length := by
  have hmoved : w.moved.live.length = w.live.length := by
    rw [moved_live, List.length_map]
  have hparts := List.length_eq_countP_add_countP (fun e : Entity => e.shot.removed)
    (l := w.moved.live)
  have hswept : w.step.2.live.length = w.moved.live.countP (!·.shot.removed) :=
    (List.countP_eq_length_filter ..).symm
  have hcount : w.step.1.removed = w.moved.live.countP (·.shot.removed) := rfl
  simp only [Bool.not_eq_true, Bool.decide_eq_false] at hparts
  rw [hswept, hcount]
  omega

/-- **No impact is lost, repeated or out of order.** Whatever is done with a world but clear it:
what was drained, followed by what still waits, is what its steps have struck, one step after
the other and in the order of the live entities, with the tick of the step and with what the
shot was before it. The reports add up to it, and each step puts away as many shots as have
struck, expired or left the map in it, which is what the live ones are short of afterwards. -/
theorem impacts_delivered (cfg : Config) (terrain : Terrain) {as : List Action}
    (keeps : ∀ a ∈ as, a ≠ .clear) :
    let start := new cfg terrain
    start.drainedBy as ++ (start.play as).effects.impacts = start.struckBy as ∧
      (start.struckBy as).length = ((start.reportsBy as).map (·.impacts)).sum ∧
      ∀ before after, as = before ++ .step :: after →
        let w := start.play before
        let r := w.step.1
        r.removed = r.impacts + r.expired + r.clipped ∧
          r.removed + w.step.2.live.length = w.live.length := by
  intro start
  refine ⟨drained_append_waiting keeps, length_struckBy start as, fun before after _ => ?_⟩
  exact ⟨step_removed (tidy_play cfg terrain before), step_live _⟩

/-- A map with a wall to the right of the origin. -/
def rightWall : Terrain :=
  { Terrain.openSpace with
    hit := fun a b => if 0.0 < b.x then some ⟨b, a, Vec2.zero, false⟩ else none }

/-- A shot in the wall and one that expires, a snapshot after the effects have been drained, and
another shot in the wall. -/
def volleys : List Action :=
  [.fire { dropBy 3 with origin := ⟨1.0, 0.0⟩ }, .fire { dropBy 4 with lifespan := some 1 }, .step,
    .drain, .reconcile mixedSnapshot {}, .fire { dropBy 5 with origin := ⟨1.0, 0.0⟩ }, .step]

/-- The impact of the first shot is drained, and that of the third one waits. The second one
expires in the first step, without an impact. -/
theorem impacts_delivered_volleys :
    let start := new .standard rightWall
    let struck := start.struckBy volleys
    let first := (start.play (volleys.take 2)).step
    (∀ a ∈ volleys, a ≠ .clear) ∧
      struck.map (fun i => (i.tick, i.owner)) = [(1, some ⟨3⟩), (2, some ⟨5⟩)] ∧
      (start.drainedBy volleys).length = 1 ∧
      start.drainedBy volleys ++ (start.play volleys).effects.impacts = struck ∧
      ((start.reportsBy volleys).map (·.impacts)).sum = 2 ∧
      first.1.impacts = 1 ∧ first.1.expired = 1 ∧ first.1.removed = 2 ∧
      first.2.live.length = 0 := by
  intro start struck first
  have keeps : ∀ a ∈ volleys, a ≠ .clear := by
    intro a ha
    simp only [volleys, List.mem_cons, List.not_mem_nil, or_false] at ha
    rcases ha with rfl | rfl | rfl | rfl | rfl | rfl | rfl <;> simp
  obtain ⟨delivered, counted, stepwise⟩ := impacts_delivered .standard rightWall keeps
  obtain ⟨ended, left⟩ := stepwise (volleys.take 2) (volleys.drop 3) rfl
  change first.1.removed = first.1.impacts + first.1.expired + first.1.clipped at ended
  change first.1.removed + first.2.live.length = 2 at left
  have stamps : struck.map (fun i => (i.tick, i.owner)) =
      [(1, some ⟨3⟩), (2, some ⟨5⟩)] := by
    decide +kernel
  have taken : (start.drainedBy volleys).length = 1 := by decide +kernel
  have report : first.1.impacts = 1 ∧ first.1.expired = 1 ∧ first.1.clipped = 0 := by
    decide +kernel
  have length : struck.length = 2 := by
    rw [← List.length_map (fun i : Impact => (i.tick, i.owner)), stamps]
    rfl
  have sum : ((start.reportsBy volleys).map (·.impacts)).sum = 2 := counted.symm.trans length
  obtain ⟨struck_one, expired, clipped_none⟩ := report
  have removed : first.1.removed = 2 := by
    rw [ended, struck_one, expired, clipped_none]
  have none_left : first.2.live.length = 0 := by
    rw [removed] at left
    omega
  exact ⟨keeps, stamps, taken, delivered, sum, struck_one, expired, removed, none_left⟩

end World

end Volley
