/-
# A late snapshot is as good as a timely one

A shot that a record adds is brought up to date at once, with a loop of its own. In a world
that holds nothing else, the same shot could have been added at the tick of the record and
stepped with the world. Both ways go through the same ticks (`Shot.advanceSilently_succ`), so
they end in the same entity, in flight or retired alike (`Alone.steps`); only the effects
differ, since those of the way up are dropped.

Key definitions: `World.Alone`.
Key theorems: `World.Alone.step`, `World.Alone.steps`, `World.alone_reconcile`,
`World.late_eq_timely`.
-/
import Volley.Proofs.Shot.Published
import Volley.Proofs.Shot.Recall
import Volley.Proofs.World.Effects

namespace Volley

namespace World

/-! ### A world with one entity -/

/-- The entity `e` is all there is in the world, and is where it belongs: in flight, or
retired if its flight is over. -/
structure Alone (w : World) (e : Entity) : Prop where
  live : w.live = [e].filter (!·.shot.removed)
  retired : w.retired = [e].filter (·.shot.removed)

theorem Alone.roster {w : World} {e : Entity} (h : Alone w e) : w.roster = [e] := by
  rw [World.roster, h.live, h.retired]
  by_cases ended : e.shot.removed = true <;> simp [ended]

/-- Two worlds that hold the same entity hold it in the same place. -/
theorem Alone.congr {w w' : World} {e : Entity} (h : Alone w e) (h' : Alone w' e) :
    w'.live = w.live ∧ w'.retired = w.retired :=
  ⟨h'.live.trans h.live.symm, h'.retired.trans h.retired.symm⟩

/-- What is put away of one entity goes to the retired ones if its flight is over. -/
theorem alone_sweep {w : World} {e : Entity} (live : w.live = [e]) (retired : w.retired = []) :
    Alone w.sweep e where
  live := by simp only [sweep, live]
  retired := by
    simp only [sweep, live, retired, List.nil_append]
    apply keepLatest_of_le
    have hlength : ([e].filter (·.shot.removed)).length ≤ 1 := List.length_filter_le _ _
    have hcapacity : 1 ≤ retiredCapacity := by decide
    omega

/-- A step advances the entity, or leaves it retired. -/
theorem Alone.step {w : World} {e : Entity} (h : Alone w e) :
    Alone w.step.2 (advanced (w.contextAt w.tick.next) e) := by
  rw [step_world]
  by_cases ended : e.shot.removed = true
  · have hsame : advanced (w.contextAt w.tick.next) e = e := by
      rw [advanced, Shot.advance_of_removed ended]
    have hlive : w.moved.live = [] := by
      rw [moved_live, h.live]
      simp [ended]
    have hretired : w.moved.retired = [e] := by
      have hkept : w.moved.retired = w.retired := rfl
      rw [hkept, h.retired]
      simp [ended]
    rw [hsame]
    constructor
    · simp [sweep, hlive, ended]
    · simp [sweep, hlive, hretired, ended, keepLatest, retiredCapacity]
  · apply alone_sweep
    · rw [moved_live, h.live]
      simp [ended]
    · have hkept : w.moved.retired = w.retired := rfl
      rw [hkept, h.retired]
      simp [ended]

/-- Stepping the world brings its entity up to date. -/
theorem Alone.steps {w : World} {e : Entity} (h : Alone w e) (n : Nat) :
    Alone (w.steps n) { e with shot := Shot.advanceSilently w.context n e.shot } := by
  induction n generalizing w e with
  | zero => exact h
  | succ n ih =>
    have hstep := ih h.step
    have hcontext : w.step.2.context = { w.context with tick := w.context.tick.next } := rfl
    rw [hcontext] at hstep
    rw [Shot.advanceSilently_succ]
    exact hstep

/-! ### The two ways -/

variable {w : World} {item : SnapshotItem} {seen : Tick}

/-- In an empty world, the only record of a snapshot adds its shot, brought up to date. -/
theorem alone_reconcile (policy : MatchPolicy) (live : w.live = []) (retired : w.retired = []) :
    Alone (w.reconcile { tick := seen, items := [item] } policy).2
      { id := ⟨w.nextId⟩
        serverId := some item.id
        shot := (Shot.ofRecord (w.contextAt seen) item.record).runTo (w.contextAt seen)
          w.tick } := by
  generalize hs : ({ tick := seen, items := [item] } : Snapshot) = s
  generalize he : Entity.mk _ _ _ = e
  have hrecords : (w.withRecords s policy).live = [e] ∧ (w.withRecords s policy).retired = [] := by
    subst hs he
    simp [withRecords, takeRecords, takeRecord, findTracked, bestMatch, firstLeast, spawn, insert,
      confirmed, live, retired]
  have hlisted : gone policy s e = false := by
    subst hs he
    simp [gone, isDropped, isDiscarded, Snapshot.lists]
  have hmarked : (w.marked s policy).live = [e] := by
    show (w.withRecords s policy).live.map (markGone policy s) = _
    rw [hrecords.1]
    simp [markGone, hlisted]
  have hswept : Alone (w.marked s policy).sweep e := alone_sweep hmarked hrecords.2
  rw [reconcile_world]
  refine ⟨hswept.live, ?_⟩
  have hpruned : (prune policy s (w.marked s policy).sweep).retired =
      (w.marked s policy).sweep.retired.filter (!gone policy s ·) := by simp only [prune, gone]
  rw [hpruned, hswept.retired]
  by_cases ended : e.shot.removed = true <;> simp [ended, hlisted]

/-- In an empty world, the shot of a record is added as it was at its tick. -/
theorem alone_addConfirmed (live : w.live = []) (retired : w.retired = []) :
    Alone (w.addConfirmed item.id item.record seen).2
      { id := ⟨w.nextId⟩
        serverId := some item.id
        shot := Shot.ofRecord (w.contextAt seen) item.record } := by
  have hflying := Shot.removed_ofRecord (w.contextAt seen) item.record
  constructor
  · simp [addConfirmed, insert, live, hflying]
  · simp [addConfirmed, insert, retired, hflying]

/-- **A late snapshot gives the same as a timely one.** Let a world be empty. One record that
was published at `seen` adds one entity, which is just where and what it would be had it been
added at `seen` and stepped with the world since; and no effect of these ticks is pushed. -/
theorem late_eq_timely (w : World) (item : SnapshotItem) (seen : Tick) (policy : MatchPolicy)
    (live : w.live = []) (retired : w.retired = []) (known : seen ≤ w.tick) :
    let late := (w.reconcile { tick := seen, items := [item] } policy).2
    let timely := ((w.setTick seen).addConfirmed item.id item.record seen).2.steps
      (seen.stepsUpTo w.tick)
    (∃ e, e.serverId = some item.id ∧ late.roster = [e]) ∧
      timely.live = late.live ∧ timely.retired = late.retired ∧ timely.tick = w.tick ∧
      late.effects = w.effects := by
  intro late timely
  have hlate : Alone late _ := alone_reconcile policy live retired
  have hstart : Alone ((w.setTick seen).addConfirmed item.id item.record seen).2 _ :=
    alone_addConfirmed (w := w.setTick seen) live retired
  have htimely := hstart.steps (seen.stepsUpTo w.tick)
  obtain ⟨hlive, hretired⟩ := hlate.congr htimely
  refine ⟨⟨_, rfl, hlate.roster⟩, hlive, hretired, ?_, reconcile_effects w _ policy⟩
  have hsteps : (seen.stepsUpTo w.tick : Int) = w.tick.toInt - seen.toInt := by
    have hle := Int32.le_iff_toInt_le.mp known
    unfold Tick.stepsUpTo
    omega
  have hmax := w.tick.toInt_le
  have htick : timely.tick.toInt = seen.toInt + seen.stepsUpTo w.tick := tick_steps (by
    show seen.toInt + _ ≤ _
    omega)
  apply Int32.toInt_inj.mp
  omega

/-- A record that is five ticks late, of a shot that bounces in two of them and dies in the
third: both ways the shot ends among the retired ones, and only one of them shows its impact. -/
theorem late_eq_timely_boxed :
    let w := (World.new .standard (Shot.boxed 0).terrain).setTick 6
    let item : SnapshotItem :=
      { id := ⟨7⟩
        record := { (default : Record) with
          weapon := 1, startTick := 1, dirX := 1000000, extra := some { bounces := 2 } } }
    let late := (w.reconcile { tick := 1, items := [item] } {}).2
    let timely := ((w.setTick 1).addConfirmed item.id item.record 1).2.steps 5
    w.live = [] ∧ w.retired = [] ∧ 1 ≤ w.tick ∧
      late.retired.map (·.shot.pastLegs.length) = [2] ∧ timely.retired = late.retired ∧
      timely.live = late.live ∧ timely.effects.impacts.length = 1 ∧
      late.effects.impacts.length = 0 := by
  intro w item late timely
  have ended : late.retired.map (·.shot.pastLegs.length) = [2] := by decide +kernel
  have shown : timely.effects.impacts.length = 1 := by decide +kernel
  obtain ⟨-, hlive, hretired, -, heffects⟩ :=
    late_eq_timely w item 1 {} rfl rfl (by decide)
  have silent : late.effects.impacts.length = 0 := by rw [heffects]; rfl
  exact ⟨rfl, rfl, by decide, ended, hretired, hlive, shown, silent⟩

end World

end Volley
