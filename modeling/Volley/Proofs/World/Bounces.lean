/-
# Who counts the bounces

A record tells how many bounces its shot had left. The shot that is paired with the record
takes this number over only if it was launched no later than the shot of the record
(`Shot.adopt`), or if it is replaced. So a shot that has not bounced at all, but started a
tick later than the server says, keeps its own number (`bounces_kept_by_late_start`).

Key theorems: `World.settle_shot`, `World.past_confirmed`, `World.bouncesAt_of_pairs`.
-/
import Volley.Proofs.Shot.Published
import Volley.Proofs.Shot.Recall
import Volley.Proofs.World.Settled

namespace Volley

open Shot (Past)

namespace World

variable {w : World} {s : Snapshot} {policy : MatchPolicy} {item : SnapshotItem}

/-- A paired shot is replaced by the shot of the record, or takes over what the server
decides. -/
theorem settle_shot (w : World) (policy : MatchPolicy) (seen : Tick) (r : Record) (s : Shot) :
    (w.settle policy seen r s).1 =
      if (w.settle policy seen r s).2 = true then
        (w.confirmed r seen (some s)).runTo (w.contextAt seen) w.tick
      else s.adopt (w.confirmed r seen (some s)) := by
  unfold settle
  simp only
  split <;> rfl

/-- A record with an extension block describes its shot alone. -/
theorem confirmed_of_extra {r : Record} {extra : RecordExtra} (carries : r.extra = some extra)
    (seen : Tick) (paired : Option Shot) :
    w.confirmed r seen paired = Shot.ofRecord (w.contextAt seen) r := by
  rw [confirmed, carries, Option.some_or, ← carries]

/-- The shot of a record is the first leg of its own history. -/
theorem past_confirmed {r : Record} {extra : RecordExtra} (carries : r.extra = some extra)
    {seen : Tick} (published : r.startTick.plus extra.launchOffset ≤ seen) (paired : Option Shot) :
    Past (w.confirmed r seen paired) (w.confirmed r seen paired) seen ∧
      (w.confirmed r seen paired).bounces = extra.bounces := by
  have hextra : r.extraOrDefault = extra := by rw [Record.extraOrDefault, carries, Option.getD_some]
  rw [confirmed_of_extra carries]
  constructor
  · refine Past.refl fun leg hleg => ?_
    rw [Shot.legs, Shot.pastLegs_ofRecord, List.mem_singleton] at hleg
    have hlaunch : leg.launchTick = (Shot.ofRecord (w.contextAt seen) r).launchTick := by
      rw [hleg]
      rfl
    rw [hlaunch]
    rcases Shot.launchTick_ofRecord (w.contextAt seen) r with h | h
    · rw [h, hextra]
      exact published
    · rw [h]
      exact Int32.le_refl _
  · rw [Shot.bounces_ofRecord, hextra]

/-- **Whose bounces count.** Let a record with an extension block, as a server publishes it,
be paired with a live entity `e` that has not bounced since the snapshot. What stays of `e`
had the bounces of the record then if its shot was replaced or was launched no later than
that of the record, and its own bounces otherwise. -/
theorem bouncesAt_of_pairs {extra : RecordExtra} {e e' : Entity} (numbered : Numbered w)
    (room : w.nextId.toNat + (w.reconcile s policy).1.spawned < UInt64.size)
    (distinct : (s.items.map (·.id)).Nodup) (paired : w.Pairs s policy item e)
    (carries : item.record.extra = some extra)
    (published : item.record.startTick.plus extra.launchOffset ≤ s.tick)
    (unbounced : e.shot.bouncesAfter s.tick = 0)
    (stays : e' ∈ (w.reconcile s policy).2.roster) (same : e'.id = e.id) :
    e ∈ w.live ∧ e'.shot.bouncesAt s.tick =
      if (w.settle policy s.tick item.record e.shot).2 = true ∨
          e.shot.launchTick ≤ (w.confirmed item.record s.tick (some e.shot)).launchTick
      then extra.bounces else e.shot.bounces := by
  refine ⟨mem_live_of_pairs distinct paired, ?_⟩
  obtain ⟨hpast, hbounces⟩ := past_confirmed (w := w) carries published (some e.shot)
  rw [eq_of_pairs numbered room distinct paired stays same, settled, settle_shot]
  generalize (w.settle policy s.tick item.record e.shot).2 = replaced
  generalize w.confirmed item.record s.tick (some e.shot) = server at hpast hbounces
  cases replaced with
  | true =>
    have hrun : Past (server.runTo (w.contextAt s.tick) w.tick) server s.tick :=
      hpast.runTo (Int32.le_refl _) w.tick
    simp only [if_true, true_or]
    rw [hrun.bouncesAt, hbounces]
  | false =>
    have hkept : (e.shot.adopt server).bouncesAfter s.tick = 0 := unbounced
    simp only [Bool.false_eq_true, if_false, false_or]
    rw [Shot.bouncesAt_of_unbounced hkept, Shot.adopt, hbounces]

/-- A grenade that can bounce `n` times. -/
def lob (n : UInt32) : Launch :=
  { weapon := .grenade, owner := some ⟨3⟩, origin := Vec2.zero, direction := ⟨1.0, 0.0⟩
    bounces := n }

/-- The world at tick 2 in which the grenade was fired at the tick `start`. -/
def lobbed (start : Nat) (n : UInt32) : World :=
  (((World.new .standard .openSpace).steps start).fire (lob n)).2.steps (2 - start)

/-- What a server says of the grenade at tick 2 that it fired at tick 0. -/
def lobItem : SnapshotItem :=
  { id := ⟨1⟩
    record :=
      { weapon := 3, startTick := 0, owner := 3, x := 4000, y := 112, dirX := 1000000, dirY := 0
        lifespan := -1, flags := .explosive, force := 0, impactSound := -1
        extra := some { bounces := 3 } } }

/-- The snapshot of that server. -/
def lobSnapshot : Snapshot := { tick := 2, items := [lobItem] }

theorem snapshot_lobbed : (lobbed 0 3).snapshot = lobSnapshot := by decide +kernel

/-- A prediction that was fired with the server takes over the number of its bounces. -/
theorem bounces_taken_by_timely_start :
    ∃ e ∈ (lobbed 0 1).live, e.shot.bounces = 1 ∧
      ∃ e' ∈ ((lobbed 0 1).reconcile lobSnapshot {}).2.roster, e'.id = e.id ∧
        e'.shot.bouncesAt lobSnapshot.tick = 3 := by
  have state : (livePartner {} lobSnapshot.tick lobItem (lobbed 0 1)).any (fun e =>
      decide (e.shot.bounces = 1 ∧ e.shot.bouncesAfter lobSnapshot.tick = 0 ∧
        e.shot.launchTick ≤
          ((lobbed 0 1).confirmed lobItem.record lobSnapshot.tick (some e.shot)).launchTick ∧
        ∃ e' ∈ ((lobbed 0 1).reconcile lobSnapshot {}).2.roster, e'.id = e.id)) = true := by
    decide +kernel
  obtain ⟨e, he, facts⟩ := (Option.any_eq_true _ _).mp state
  obtain ⟨bounces, unbounced, early, e', stays, same⟩ := of_decide_eq_true facts
  have numbered : Numbered (lobbed 0 1) := ⟨by decide +kernel, by decide +kernel⟩
  have paired : (lobbed 0 1).Pairs lobSnapshot {} lobItem e := ⟨[], [], rfl, he⟩
  obtain ⟨live, count⟩ := bouncesAt_of_pairs numbered (by decide +kernel) (by decide) paired rfl
    (by decide) unbounced stays same
  rw [if_pos (Or.inr early)] at count
  exact ⟨e, live, bounces, e', stays, same, count⟩

/-- A prediction that was fired a tick later keeps its own number, though it has not bounced
at all: it was launched after the shot of the record. -/
theorem bounces_kept_by_late_start :
    (lobbed 0 3).snapshot = lobSnapshot ∧
      ∃ e ∈ (lobbed 1 1).live, (lobbed 1 1).Pairs lobSnapshot {} lobItem e ∧
        e.shot.pastLegs = [] ∧ e.shot.bouncesAfter lobSnapshot.tick = 0 ∧
        lobItem.record.startTick.plus lobItem.record.extraOrDefault.launchOffset ≤
          lobSnapshot.tick ∧
        ∃ e' ∈ ((lobbed 1 1).reconcile lobSnapshot {}).2.live, e'.id = e.id ∧
          e'.shot.bouncesAt lobSnapshot.tick ≠ lobItem.record.extraOrDefault.bounces := by
  refine ⟨snapshot_lobbed, ?_⟩
  have state : (livePartner {} lobSnapshot.tick lobItem (lobbed 1 1)).any (fun e =>
      decide (e.shot.pastLegs.isEmpty = true ∧ e.shot.bouncesAfter lobSnapshot.tick = 0 ∧
        ∃ e' ∈ ((lobbed 1 1).reconcile lobSnapshot {}).2.live, e'.id = e.id ∧
          e'.shot.bouncesAt lobSnapshot.tick ≠ lobItem.record.extraOrDefault.bounces)) = true := by
    decide +kernel
  obtain ⟨e, he, facts⟩ := (Option.any_eq_true _ _).mp state
  obtain ⟨flown, unbounced, kept⟩ := of_decide_eq_true facts
  have paired : (lobbed 1 1).Pairs lobSnapshot {} lobItem e := ⟨[], [], rfl, he⟩
  have live := mem_live_of_pairs (by decide) paired
  exact ⟨e, live, paired, List.isEmpty_iff.mp flown, unbounced, by decide, kept⟩

end World

end Volley
