/-
# Which shot sets off which effect

A step pushes one impact for each live entity that hits something in it, in their order
(`step_impacts`), and puts that entity away at once. No other operation pushes an impact,
and none puts an entity back in flight, so a log of all impacts, each with the number of
its entity, has every number at most once (`Spent`).

Key definitions: `World.emissions`, `World.emissionsOf`, `World.Spent`.
Key theorems: `World.step_impacts`, `World.reconcile_effects`, `World.Spent.passage`,
`World.Spent.step`.
-/
import Volley.Proofs.Shot.Past
import Volley.Proofs.World.Numbering

namespace Volley

namespace World

/-- The impacts of the next step, each with the number of the entity that sets it off. -/
def emissions (w : World) : List (EntityId × Impact) :=
  (advanceAll (w.contextAt w.tick.next) w.live).filterMap fun after =>
    after.2.impact?.map (after.1.id, ·)

/-- The impacts of the next `n` steps. -/
def emissionsOf : Nat → World → List (EntityId × Impact)
  | 0, _ => []
  | n + 1, w => w.emissions ++ emissionsOf n w.step.2

/-- A step pushes its impacts, and nothing else. -/
theorem step_impacts (w : World) :
    w.step.2.effects.impacts = w.effects.impacts ++ w.emissions.map Prod.snd := by
  have hpushed : w.emissions.map Prod.snd =
      ((advanceAll (w.contextAt w.tick.next) w.live).map Prod.snd).filterMap
        Outcome.impact? := by
    simp only [emissions, List.map_filterMap, List.filterMap_map]
    refine List.filterMap_congr fun after _ => ?_
    simp [Function.comp_def]
  rw [hpushed]
  rfl

theorem steps_impacts (n : Nat) (w : World) :
    (w.steps n).effects.impacts = w.effects.impacts ++ (w.emissionsOf n).map Prod.snd := by
  induction n generalizing w with
  | zero => simp [steps, emissionsOf]
  | succ n ih =>
    have hstep := ih w.step.2
    rw [step_impacts, List.append_assoc, ← List.map_append] at hstep
    exact hstep

theorem Taken.effects {policy : MatchPolicy} {seen : Tick} {item : SnapshotItem} {w : World}
    {r : ReconcileReport} {out : World × ReconcileReport} (h : Taken policy seen item w r out) :
    out.1.effects = w.effects := by
  cases h <;> rfl

/-- A snapshot pushes no effect, even for a shot that it brings up to date. -/
theorem reconcile_effects (w : World) (s : Snapshot) (policy : MatchPolicy) :
    (w.reconcile s policy).2.effects = w.effects := by
  have hrecords : (w.withRecords s policy).effects = w.effects :=
    takeRecords_induction (P := fun out => out.1.effects = w.effects)
      (fun _ _ _ _ _ hw ht => ht.effects.trans hw) rfl
  rw [reconcile_world]
  exact hrecords

theorem replaceAll_effects (w : World) (s : Snapshot) :
    (Client.replaceAll w s).effects = w.effects := by
  rw [replaceAll_eq]

/-! ### At most one impact an entity -/

theorem mem_emissions {w : World} {p : EntityId × Impact} (h : p ∈ w.emissions) :
    ∃ e ∈ w.live, e.id = p.1 ∧
      (e.shot.advance (w.contextAt w.tick.next)).1.removed = true := by
  obtain ⟨after, hafter, hp⟩ := List.mem_filterMap.mp h
  obtain ⟨e, he, rfl⟩ := List.mem_map.mp hafter
  obtain ⟨event, hevent, rfl⟩ := Option.map_eq_some_iff.mp hp
  exact ⟨e, he, rfl, Shot.removed_of_impact hevent⟩

/-- A step names every entity at most once, in order. -/
theorem emissions_sublist (w : World) : (w.emissions.map Prod.fst).Sublist (ids w.live) := by
  unfold emissions advanceAll
  induction w.live with
  | nil => exact List.Sublist.refl _
  | cons e rest ih =>
    rw [List.map_cons, List.filterMap_cons]
    cases (e.shot.advance (w.contextAt w.tick.next)).2.impact? with
    | none => exact ih.cons e.id
    | some event => exact ih.cons_cons e.id

/-- What set off an impact is no longer in flight. -/
theorem not_live_of_emitted {w : World} (hw : Numbered w) {id : EntityId}
    (h : id ∈ w.emissions.map Prod.fst) : id ∉ ids w.step.2.live := by
  obtain ⟨p, hp, rfl⟩ := List.mem_map.mp h
  obtain ⟨e, he, hid, hremoved⟩ := mem_emissions hp
  intro hlive
  rw [step_world] at hlive
  obtain ⟨e', he', hid'⟩ := List.mem_map.mp hlive
  have hflying := not_removed_of_mem_sweep he'
  have hmoved : e' ∈ w.moved.live := (List.mem_filter.mp he').1
  rw [moved_live] at hmoved
  obtain ⟨e0, he0, rfl⟩ := List.mem_map.mp hmoved
  have hsame : e0 = e := List.inj_on_of_nodup_map hw.nodup_live he0 he (hid'.trans hid.symm)
  rw [hsame] at hflying
  rw [advanced, hremoved] at hflying
  exact absurd hflying (by simp)

/-- The log of all impacts up to a state: every entity stands in it at most once, and none
of those is still in flight. -/
structure Spent (log : List (EntityId × Impact)) (w : World) : Prop where
  once : (log.map Prod.fst).Nodup
  given : ∀ id ∈ log.map Prod.fst, id.val.toNat < w.nextId.toNat
  flown : ∀ id ∈ log.map Prod.fst, id ∉ ids w.live

theorem spent_nil (w : World) : Spent [] w where
  once := List.nodup_nil
  given _ h := nomatch h
  flown _ h := nomatch h

/-- No operation puts an entity back in flight. -/
theorem Spent.passage {log : List (EntityId × Impact)} {w w' : World} {n : Nat}
    (h : Spent log w) (p : Passage w w' n) (room : w.nextId.toNat + n < UInt64.size) :
    Spent log w' where
  once := h.once
  given id hid := by
    have := h.given id hid
    rw [p.toNat_nextId room]
    omega
  flown id hid hlive := by
    rcases p.flying id hlive with hf | hl
    · have h1 := h.given id hid
      have h2 := (mem_fresh (Nat.le_of_lt room) hf).1
      omega
    · exact h.flown id hid hl

theorem Spent.step {log : List (EntityId × Impact)} {w : World} (h : Spent log w)
    (hw : Numbered w) : Spent (log ++ w.emissions) w.step.2 := by
  have hold := h.passage (passage_step w) w.nextId.toNat_lt
  have hemitted : ∀ id ∈ w.emissions.map Prod.fst, id ∈ ids w.live :=
    fun id hid => (emissions_sublist w).subset hid
  refine ⟨?_, fun id hid => ?_, fun id hid => ?_⟩
  · rw [List.map_append]
    refine h.once.append (hw.nodup_live.sublist (emissions_sublist w)) fun id hid hnew => ?_
    exact h.flown id hid (hemitted id hnew)
  · rw [List.map_append, List.mem_append] at hid
    rcases hid with hid | hid
    · exact hold.given id hid
    · rw [(passage_step w).toNat_nextId w.nextId.toNat_lt]
      exact hw.below_live (hemitted id hid)
  · rw [List.map_append, List.mem_append] at hid
    rcases hid with hid | hid
    · exact hold.flown id hid
    · exact not_live_of_emitted hw hid

theorem Spent.steps {log : List (EntityId × Impact)} {w : World} (h : Spent log w)
    (hw : Numbered w) (n : Nat) : Spent (log ++ w.emissionsOf n) (w.steps n) := by
  induction n generalizing w log with
  | zero => simpa [emissionsOf, World.steps] using h
  | succ n ih =>
    have hnumbered := (passage_step w).numbered hw w.nextId.toNat_lt
    rw [emissionsOf, ← List.append_assoc]
    exact ih (h.step hw) hnumbered

end World

end Volley
