/-
# Pairing is one-to-one

A client pairs its entities with those of the server while snapshots arrive in any order,
prediction is switched on and off, and shots fly, end and are forgotten. Through all of it
no number of the server is carried twice, and an entity that carries one carries it for as
long as it stays.

Only a snapshot that replaces the whole world can bring the same number twice, so those are
the ones that must not repeat a number.

Key definitions: `Client.MirrorsDistinct`.
Key theorems: `Client.pairing_one_to_one`.
-/
import Volley.Proofs.Client.Run

namespace Volley

namespace World

theorem tracked_insert (w : World) (serverId : Option EntityId) (shot : Shot) :
    (w.insert serverId shot).2.tracked.Perm (w.tracked ++ serverId.toList) := by
  have hone : serverIds [{ id := ⟨w.nextId⟩, serverId, shot }] = serverId.toList := by
    cases serverId <;> rfl
  simp only [tracked_eq, insert, serverIds_append, hone, List.append_assoc]
  exact List.Perm.append_left _ List.perm_append_comm

theorem tracked_moved (w : World) : w.moved.tracked = w.tracked := by
  have hlive : serverIds w.moved.live = serverIds w.live := by
    rw [moved_live, serverIds, serverIds, List.filterMap_map]
    rfl
  rw [tracked_eq, tracked_eq, hlive]
  rfl

theorem nodup_tracked_fire {w : World} (h : w.tracked.Nodup) (l : Launch) :
    (w.fire l).2.tracked.Nodup := by
  have hp := w.tracked_insert none (Shot.fire w.context l)
  rw [Option.toList_none, List.append_nil] at hp
  exact hp.nodup_iff.mpr h

theorem nodup_tracked_step {w : World} (h : w.tracked.Nodup) : w.step.2.tracked.Nodup := by
  rw [step_world]
  rw [← tracked_moved] at h
  obtain ⟨l, hp, hs⟩ := serverIds_subperm (sweep_subperm w.moved)
  exact hp.nodup_iff.mp (h.sublist hs)

theorem nodup_tracked_steps {w : World} (h : w.tracked.Nodup) (n : Nat) :
    (w.steps n).tracked.Nodup := by
  induction n generalizing w with
  | zero => exact h
  | succ n ih => exact ih (nodup_tracked_step h)

/-- The world that replaces all its shots carries exactly the numbers of the snapshot. -/
theorem tracked_replaceAll (w : World) (s : Snapshot) :
    (Client.replaceAll w s).tracked = s.items.map (·.id) := by
  rw [replaceAll_eq, tracked_eq]
  simp only [serverIds_mirrored]
  exact List.append_nil _

end World

namespace Client

/-- A snapshot that replaces the whole world lists no number twice. -/
def MirrorsDistinct (c : Client) (a : Action) : Prop :=
  c.predicting = false → ∀ s, c.accepted? a = some s → (s.items.map (·.id)).Nodup

theorem Becomes.nodup_tracked {c : Client} {a : Action} {w : World} (h : Becomes c a w)
    (distinct : c.MirrorsDistinct a) (hn : c.world.tracked.Nodup) : w.tracked.Nodup := by
  cases h with
  | same => exact hn
  | fired l => exact World.nodup_tracked_fire hn l
  | ticked => exact World.nodup_tracked_step hn
  | waited => exact hn
  | drained => exact hn
  | reconciled s => exact World.nodup_tracked_reconcile (World.nodup_tracked_steps hn _) s _
  | mirrored s t accepted predicting =>
    rw [World.tracked_replaceAll]
    exact distinct predicting s accepted

theorem nodup_tracked_play {c : Client} {as : List Action}
    (distinct : Along act MirrorsDistinct c as) (h : c.world.tracked.Nodup) :
    (c.play as).world.tracked.Nodup :=
  distinct.foldl (Q := fun c => c.world.tracked.Nodup)
    (fun c a hd hn => (act_becomes c a).nodup_tracked hd hn) h

/-- **Pairing is one-to-one over whole runs.** In every state a number of the server is
carried at most once. Every entity is new since an earlier state, or continues one of that
state and carries what that one carried; and as long as there are unused local numbers, it
is the one with the same local number. -/
theorem pairing_one_to_one (cfg : Config) (terrain : Terrain) (as : List Action)
    (distinct : Along act MirrorsDistinct (Client.new cfg terrain) as) :
    (∀ id, ((Client.new cfg terrain).play as).world.roster.countP
      (fun e => e.serverId = some id) ≤ 1) ∧
    ∀ before after, as = before ++ after →
      (∀ e' ∈ ((Client.new cfg terrain).play as).world.roster,
        e'.id ∈ World.fresh ((Client.new cfg terrain).play before).world.nextId
          (((Client.new cfg terrain).play before).createdBy after) ∨
        ∃ e ∈ ((Client.new cfg terrain).play before).world.roster, e'.Continues e) ∧
      ((Client.new cfg terrain).createdBy as + 1 < UInt64.size →
        ∀ e ∈ ((Client.new cfg terrain).play before).world.roster,
        ∀ e' ∈ ((Client.new cfg terrain).play as).world.roster, e'.id = e.id →
          ∀ s, e.serverId = some s → e'.serverId = some s) := by
  refine ⟨fun id => ?_, fun before after split => ?_⟩
  · have hn := nodup_tracked_play distinct List.nodup_nil
    rw [World.countP_carries]
    exact List.nodup_iff_count_le_one.mp hn id
  subst split
  have hpass := passage_play ((Client.new cfg terrain).play before) after
  rw [← play_append] at hpass
  refine ⟨hpass.origin, fun few e he e' he' hid s hs => ?_⟩
  rw [createdBy_append] at few
  have hbefore : (Client.new cfg terrain).createdBy before + 1 < UInt64.size := by omega
  have hnext := nextId_play cfg terrain hbefore
  have hc := hpass.continues (numbered_play cfg terrain hbefore) (by omega) he he' hid
  exact hc.2 s hs

/-- A run that mirrors 7 and 8, then predicts and takes a snapshot that repeats 7. -/
theorem pairing_one_to_one_switched :
    let c := Client.new .standard .openSpace
    let before : List Action := [.setPredicting false,
      .receive { tick := 1, items := [⟨⟨7⟩, default⟩, ⟨⟨8⟩, default⟩] }, .setPredicting true]
    let after : List Action := [.tick,
      .receive { tick := 2, items := [⟨⟨7⟩, default⟩, ⟨⟨7⟩, default⟩, ⟨⟨9⟩, default⟩] }]
    Along act MirrorsDistinct c (before ++ after) ∧
      c.createdBy (before ++ after) + 1 < UInt64.size ∧
      (c.play (before ++ after)).world.roster.countP (fun e => e.serverId = some ⟨7⟩) ≤ 1 ∧
      ∀ e ∈ (c.play before).world.roster, ∀ e' ∈ (c.play (before ++ after)).world.roster,
        e'.id = e.id → e.serverId = some ⟨7⟩ → e'.serverId = some ⟨7⟩ := by
  intro c before after
  have distinct : Along act MirrorsDistinct c (before ++ after) := by
    refine ⟨?_, ?_, ?_, ?_, ?_, trivial⟩ <;> intro hp s h
    · cases h
    · obtain ⟨hs, -⟩ := Option.filter_eq_some_iff.mp h
      cases hs
      decide
    · cases h
    · cases h
    · cases hp
  have few : c.createdBy (before ++ after) + 1 < UInt64.size := by decide +kernel
  obtain ⟨once, keeps⟩ := pairing_one_to_one .standard .openSpace (before ++ after) distinct
  exact ⟨distinct, few, once ⟨7⟩, fun e he e' he' hid hs =>
    (keeps before after rfl).2 few e he e' he' hid ⟨7⟩ hs⟩

end Client

end Volley
