/-
# Shots do not interact

What a tick does to a shot depends on that shot and on what all shots see, which is the clock,
the configuration and the map. So each entity of a world has a fate of its own
(`Entity.fate?`), and after any number of steps the live entities are the fates of those
before, in their order (`steps_live`). Leaving some of them out changes nothing for the others,
and neither does their order. If the live entities are dealt to two worlds, what the two
worlds do and report adds up to what the one world does and reports, step after step
(`steps_independent`).

Key definitions: `Interleaved`, `Entity.survivor?`, `Entity.fate?`, `StepReport.Adds`.
Key theorems: `Interleaved.filterMap`, `World.steps_live`, `World.filter_chosen`,
`World.step_adds`, `World.steps_independent`.
-/
import Volley.Proofs.World.Delivery

namespace Volley

/-! ### Lists dealt in two -/

/-- The elements of `l` are dealt in their order to `as` and `bs`. -/
inductive Interleaved {α : Type} : List α → List α → List α → Prop where
  | nil : Interleaved [] [] []
  | left (a : α) {as bs l : List α} (rest : Interleaved as bs l) :
      Interleaved (a :: as) bs (a :: l)
  | right (b : α) {as bs l : List α} (rest : Interleaved as bs l) :
      Interleaved as (b :: bs) (b :: l)

namespace Interleaved

variable {α β : Type} {as bs l : List α}

theorem filterMap (h : Interleaved as bs l) (f : α → Option β) :
    Interleaved (as.filterMap f) (bs.filterMap f) (l.filterMap f) := by
  induction h with
  | nil => exact .nil
  | left a rest ih =>
    rw [List.filterMap_cons, List.filterMap_cons]
    cases f a with
    | none => exact ih
    | some x => exact .left x ih
  | right b rest ih =>
    rw [List.filterMap_cons, List.filterMap_cons]
    cases f b with
    | none => exact ih
    | some x => exact .right x ih

theorem map (h : Interleaved as bs l) (f : α → β) :
    Interleaved (as.map f) (bs.map f) (l.map f) := by
  induction h with
  | nil => exact .nil
  | left a rest ih => exact .left (f a) ih
  | right b rest ih => exact .right (f b) ih

/-- What a test accepts and what it refuses. -/
theorem of_filter (p : α → Bool) (l : List α) :
    Interleaved (l.filter p) (l.filter (!p ·)) l := by
  induction l with
  | nil => exact .nil
  | cons a rest ih =>
    rw [List.filter_cons, List.filter_cons]
    by_cases hp : p a = true
    · rw [if_pos hp, if_neg (by simp [hp])]
      exact .left a ih
    · rw [if_neg hp, if_pos (by simpa using hp)]
      exact .right a ih

theorem countP (h : Interleaved as bs l) (p : α → Bool) :
    l.countP p = as.countP p + bs.countP p := by
  induction h with
  | nil => rfl
  | left a rest ih =>
    rw [List.countP_cons, List.countP_cons, ih]
    omega
  | right b rest ih =>
    rw [List.countP_cons, List.countP_cons, ih]
    omega

end Interleaved

/-! ### The fate of an entity -/

namespace Entity

/-- The entity after the tick of the context, if it is still in flight. -/
def survivor? (ctx : TickContext) (e : Entity) : Option Entity :=
  Option.guard (!·.shot.removed) (World.advanced ctx e)

/-- The entity after the next `n` ticks, if it is still in flight. -/
def fate? : Nat → TickContext → Entity → Option Entity
  | 0, _, e => some e
  | n + 1, ctx, e =>
    let ctx := { ctx with tick := ctx.tick.next }
    (e.survivor? ctx).bind (fate? n ctx)

theorem id_of_survivor {ctx : TickContext} {e e' : Entity} (h : e.survivor? ctx = some e') :
    e'.id = e.id := by
  have hsame := (Option.guard_eq_some_iff.mp h).1
  rw [← hsame]
  rfl

theorem id_of_fate {n : Nat} {ctx : TickContext} {e e' : Entity} (h : fate? n ctx e = some e') :
    e'.id = e.id := by
  induction n generalizing ctx e with
  | zero => exact (congrArg Entity.id (Option.some.inj h)).symm
  | succ n ih =>
    obtain ⟨x, hx, hrest⟩ := Option.bind_eq_some_iff.mp h
    exact (ih hrest).trans (id_of_survivor hx)

end Entity

namespace World

variable {w v u : World}

theorem step_live_eq (w : World) :
    w.step.2.live = w.live.filterMap (Entity.survivor? (w.contextAt w.tick.next)) := by
  have hswept : w.step.2.live = w.moved.live.filter (!·.shot.removed) := rfl
  rw [hswept, moved_live, ← List.filterMap_eq_filter, List.filterMap_map]
  rfl

/-- The live entities after some steps are the fates of those before. -/
theorem steps_live (w : World) (n : Nat) :
    (w.steps n).live = w.live.filterMap (Entity.fate? n w.context) := by
  induction n generalizing w with
  | zero => exact (List.filterMap_some ..).symm
  | succ n ih =>
    show (w.step.2.steps n).live = _
    rw [ih, step_live_eq, List.filterMap_filterMap]
    rfl

/-- Worlds with the same clock, configuration and map go on to have the same. -/
theorem context_steps (same : v.context = w.context) (n : Nat) :
    (v.steps n).context = (w.steps n).context := by
  induction n generalizing v w with
  | zero => exact same
  | succ n ih =>
    have hstep : v.step.2.context = w.step.2.context :=
      congrArg (fun ctx => { ctx with tick := ctx.tick.next }) same
    exact ih hstep

/-- What the shots of a step see depends on what they saw before. -/
theorem contextAt_next (same : v.context = w.context) :
    v.contextAt v.tick.next = w.contextAt w.tick.next :=
  congrArg (fun ctx => { ctx with tick := ctx.tick.next }) same

/-- Some entities of a list are those with their numbers, if no number is there twice. -/
theorem filter_chosen {chosen entities : List Entity} (sub : chosen.Sublist entities)
    (distinct : (ids entities).Nodup) :
    entities.filter (fun e => e.id ∈ ids chosen) = chosen := by
  induction sub with
  | slnil => rfl
  | cons e sub ih =>
    obtain ⟨hnew, hrest⟩ := List.nodup_cons.mp distinct
    have hout : e.id ∉ ids _ := fun hmem => hnew ((sub.map _).subset hmem)
    rw [List.filter_cons_of_neg (by simpa using hout)]
    exact ih hrest
  | cons_cons e sub ih =>
    obtain ⟨hnew, hrest⟩ := List.nodup_cons.mp distinct
    rw [List.filter_cons_of_pos (by simp [ids])]
    congr 1
    refine (List.filter_congr fun x hx => ?_).trans (ih hrest)
    -- behind `e` nothing has the number of `e`
    have hother : x.id ≠ e.id := by
      intro heq
      have hmem : x.id ∈ ids _ := List.mem_map_of_mem hx
      rw [heq] at hmem
      exact hnew hmem
    simp [ids, hother]

/-- The live entities with chosen numbers, after some steps, are those of a world that started
with them only. -/
theorem steps_chosen (same : v.context = w.context) (sub : v.live.Sublist w.live)
    (distinct : (ids w.live).Nodup) (n : Nat) :
    (w.steps n).live.filter (fun e => e.id ∈ ids v.live) = (v.steps n).live := by
  rw [steps_live, steps_live, same]
  conv_rhs => rw [← filter_chosen sub distinct]
  rw [List.filter_filterMap, List.filterMap_filter]
  refine List.filterMap_congr fun e _ => ?_
  cases hfate : Entity.fate? n w.context e with
  | none => simp
  | some e' =>
    rw [Option.filter_some, Entity.id_of_fate hfate]

/-! ### Two parts of a world -/

/-- Two worlds that share the live entities of a third one share them after any number of
steps. -/
theorem steps_interleaved (same_v : v.context = w.context) (same_u : u.context = w.context)
    (split : Interleaved v.live u.live w.live) (n : Nat) :
    Interleaved (v.steps n).live (u.steps n).live (w.steps n).live := by
  rw [steps_live, steps_live, steps_live, same_v, same_u]
  exact split.filterMap _

end World

/-- The report `r` is of the same tick as `r₁` and `r₂`, and its counts are the sums of
theirs. -/
structure StepReport.Adds (r₁ r₂ r : StepReport) : Prop where
  ticks : r₁.tick = r.tick ∧ r₂.tick = r.tick
  bounced : r.bounced = r₁.bounced + r₂.bounced
  impacts : r.impacts = r₁.impacts + r₂.impacts
  expired : r.expired = r₁.expired + r₂.expired
  clipped : r.clipped = r₁.clipped + r₂.clipped
  removed : r.removed = r₁.removed + r₂.removed

namespace World

variable {w v u : World}

/-- What a step of two parts reports adds up to what it reports of the whole. -/
theorem step_adds (same_v : v.context = w.context) (same_u : u.context = w.context)
    (split : Interleaved v.live u.live w.live) :
    StepReport.Adds v.step.1 u.step.1 w.step.1 := by
  have hv := contextAt_next same_v
  have hu := contextAt_next same_u
  have hadvanced : Interleaved (advanceAll (v.contextAt v.tick.next) v.live)
      (advanceAll (u.contextAt u.tick.next) u.live)
      (advanceAll (w.contextAt w.tick.next) w.live) := by
    rw [hv, hu]
    exact split.map _
  have houtcomes := hadvanced.map Prod.snd
  have hmoved := hadvanced.map Prod.fst
  exact {
    ticks := ⟨congrArg TickContext.tick hv, congrArg TickContext.tick hu⟩
    bounced := houtcomes.countP _
    impacts := houtcomes.countP _
    expired := houtcomes.countP _
    clipped := houtcomes.countP _
    removed := hmoved.countP _ }

/-- The impacts of two parts are those of the whole, dealt in their order. -/
theorem emissions_interleaved (same_v : v.context = w.context) (same_u : u.context = w.context)
    (split : Interleaved v.live u.live w.live) :
    Interleaved v.emissions u.emissions w.emissions := by
  unfold emissions
  rw [contextAt_next same_v, contextAt_next same_u]
  exact (split.map _).filterMap _

/-- **Shots do not interact.** After any number of steps of any world, each live entity is what
has become of one before, by itself and under its number. A world with the same clock,
configuration and map that started with only some of the live entities holds what has become
of those, in their order. If no number is carried twice, which is so after every run, that is
what the whole world has left under their numbers. If the live entities are dealt to two such
worlds, then at every step the counts of their reports add up to those of the whole world, and
its impacts are theirs, dealt in their order. Nor does the order of the live entities matter. -/
theorem steps_independent (w : World) (n : Nat) :
    ((w.steps n).live = w.live.filterMap (Entity.fate? n w.context) ∧
      ∀ e e', Entity.fate? n w.context e = some e' → e'.id = e.id) ∧
    (∀ v : World, v.context = w.context → v.live.Sublist w.live →
      (v.steps n).live = v.live.filterMap (Entity.fate? n w.context) ∧
      ((ids w.live).Nodup →
        (w.steps n).live.filter (fun e => e.id ∈ ids v.live) = (v.steps n).live)) ∧
    (∀ v u : World, v.context = w.context → u.context = w.context →
      Interleaved v.live u.live w.live →
      Interleaved (v.steps n).live (u.steps n).live (w.steps n).live ∧
      StepReport.Adds (v.steps n).step.1 (u.steps n).step.1 (w.steps n).step.1 ∧
      ∃ as bs l, Interleaved as bs l ∧
        (v.steps n).step.2.effects.impacts = (v.steps n).effects.impacts ++ as ∧
        (u.steps n).step.2.effects.impacts = (u.steps n).effects.impacts ++ bs ∧
        (w.steps n).step.2.effects.impacts = (w.steps n).effects.impacts ++ l) ∧
    ∀ v : World, v.context = w.context → v.live.Perm w.live →
      (v.steps n).live.Perm (w.steps n).live := by
  refine ⟨⟨steps_live w n, fun e e' => Entity.id_of_fate⟩, fun v same sub => ⟨?_, ?_⟩,
    fun v u same_v same_u split => ?_, fun v same perm => ?_⟩
  · rw [steps_live, same]
  · exact fun distinct => steps_chosen same sub distinct n
  · have hsplit := steps_interleaved same_v same_u split n
    have hv := context_steps same_v n
    have hu := context_steps same_u n
    exact ⟨hsplit, step_adds hv hu hsplit, _, _, _,
      (emissions_interleaved hv hu hsplit).map Prod.snd, step_impacts _, step_impacts _,
      step_impacts _⟩
  · rw [steps_live, steps_live, same]
    exact perm.filterMap _

/-- Two shots in the wall, and between them one that expires at the first tick and one that
flies. -/
def quartet : World :=
  let w := ((new .standard rightWall).fire { dropBy 3 with origin := ⟨1.0, 0.0⟩ }).2
  let w := (w.fire { dropBy 4 with lifespan := some 1 }).2
  let w := (w.fire (dropBy 5)).2
  (w.fire { dropBy 6 with origin := ⟨1.0, 0.0⟩ }).2

/-- The quartet without some of its shots. -/
def part (kept : Entity → Bool) : World := { quartet with live := quartet.live.filter kept }

/-- The shot of the player 5 flies on with the shot of the player 3 alone as it does in the
quartet. The two shots in the wall are in different parts, and both impacts are emitted. -/
theorem steps_independent_quartet :
    let kept : Entity → Bool := fun e => e.id = ⟨1⟩ || e.id = ⟨3⟩
    let v := part kept
    let u := part fun e => !kept e
    v.context = quartet.context ∧ u.context = quartet.context ∧
      v.live.Sublist quartet.live ∧ Interleaved v.live u.live quartet.live ∧
      (ids quartet.live).Nodup ∧ ids v.live = [⟨1⟩, ⟨3⟩] ∧
      (quartet.steps 2).live.filter (fun e => e.id ∈ ids v.live) = (v.steps 2).live ∧
      ids (v.steps 2).live = [⟨3⟩] ∧
      StepReport.Adds v.step.1 u.step.1 quartet.step.1 ∧
      v.step.1.impacts = 1 ∧ u.step.1.impacts = 1 ∧ u.step.1.expired = 1 ∧
      quartet.step.2.effects.impacts.map (·.owner) = [some ⟨3⟩, some ⟨6⟩] := by
  intro kept v u
  have sub : v.live.Sublist quartet.live := List.filter_sublist
  have split : Interleaved v.live u.live quartet.live := .of_filter kept quartet.live
  have distinct : (ids quartet.live).Nodup := by decide +kernel
  have chosen : ids v.live = [⟨1⟩, ⟨3⟩] := by decide +kernel
  have left : ids (v.steps 2).live = [⟨3⟩] := by decide +kernel
  have counts : v.step.1.impacts = 1 ∧ u.step.1.impacts = 1 ∧ u.step.1.expired = 1 := by
    decide +kernel
  have owners : quartet.step.2.effects.impacts.map (·.owner) = [some ⟨3⟩, some ⟨6⟩] := by
    decide +kernel
  obtain ⟨-, hsome, -, -⟩ := steps_independent quartet 2
  obtain ⟨-, -, hparts, -⟩ := steps_independent quartet 0
  exact ⟨rfl, rfl, sub, split, distinct, chosen, (hsome v rfl sub).2 distinct, left,
    (hparts v u rfl rfl split).2.1, counts.1, counts.2.1, counts.2.2, owners⟩

end World

end Volley
