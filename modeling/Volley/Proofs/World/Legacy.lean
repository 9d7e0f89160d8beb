/-
# Records without an extension block

Such a record decides neither the zone nor the layer, the number and the bounces of the shot
that it is paired with: the block that is missing is the shot's own, as of the tick of the
snapshot (`confirmed_of_legacy`). So the paired shot keeps all four (`extra_of_pairs`), with
one exception.

The block counts launch ticks from the start of the shot, and the record has a start of its
own. If that is later, the shot of the record may be launched later than the paired one,
which has bounced since the snapshot; then the bounces of that tick are taken for those that
are left now, and the ones taken since are counted again (`bounces_counted_twice`).

Key theorems: `Shot.bouncesAt_advance`, `Shot.bouncesAt_runTo`, `World.confirmed_of_legacy`,
`World.bouncesAt_settle`, `World.extra_of_pairs`.
-/
import Volley.Proofs.World.Bounces
import Volley.TileGrid.Sweep

namespace Volley

namespace Shot

/-! ### The bounces of an earlier tick -/

theorem ofNatClamp_toNat (n : UInt32) : UInt32.ofNatClamp n.toNat = n := by
  rw [UInt32.ofNatClamp_eq_ofNat _ n.toNat_lt, UInt32.ofNat_toNat]

/-- Whatever a later tick does, the bounces that were left at a tick are the same: one that
is taken is one after that tick. -/
theorem bouncesAt_advance {s : Shot} {ctx : TickContext} {t : Tick} (later : t < ctx.tick) :
    (s.advance ctx).1.bouncesAt t = s.bouncesAt t := by
  have hs := s.advanced ctx
  generalize s.advance ctx = out at hs
  cases hs with
  | bounced hit flew met bouncy left =>
    have hafter : (s.bounceOff ctx.tick hit).bouncesAfter t = s.bouncesAfter t + 1 := by
      have hlegs : (s.bounceOff ctx.tick hit).legs.dropLast =
          (s.bounceOff ctx.tick hit).leg :: s.legs.dropLast := rfl
      have hlast : t < (s.bounceOff ctx.tick hit).leg.launchTick := later
      rw [bouncesAfter, hlegs, List.filter_cons_of_pos (by simpa using hlast), List.length_cons,
        bouncesAfter]
    have hless := bounces_bounceOff left ctx.tick hit
    have hsum : (s.bounceOff ctx.tick hit).bounces.toNat +
        (s.bounceOff ctx.tick hit).bouncesAfter t = s.bounces.toNat + s.bouncesAfter t := by
      omega
    rw [bouncesAt, hsum, bouncesAt]
  | inactive => rfl
  | impact => rfl
  | clipped => rfl
  | expired => rfl
  | flying => rfl

theorem bouncesAt_runTo {s : Shot} {ctx : TickContext} {t : Tick} (known : t ≤ ctx.tick)
    (tick : Tick) : (s.runTo ctx tick).bouncesAt t = s.bouncesAt t := by
  apply runTo_induction (P := fun s' => s'.bouncesAt t = s.bouncesAt t) _ rfl known
  intro s' ctx' later same
  exact (bouncesAt_advance later).trans same

theorem fixed_runTo (s : Shot) (ctx : TickContext) (tick : Tick) :
    (s.runTo ctx tick).fixed = s.fixed := by
  apply runTo_induction (P := fun s' => s'.fixed = s.fixed) _ rfl (Int32.le_refl ctx.tick)
  intro s' ctx' _ same
  exact (fixed_advance s' ctx').trans same

/-- The shot of a record has only one leg, so the bounces it has are those it had. -/
theorem bouncesAt_ofRecord (ctx : TickContext) (r : Record) (t : Tick) :
    (ofRecord ctx r).bouncesAt t = r.extraOrDefault.bounces := by
  have hnone : (ofRecord ctx r).bouncesAfter t = 0 := by
    rw [bouncesAfter, legs, pastLegs_ofRecord]
    rfl
  rw [bouncesAt_of_unbounced hnone, bounces_ofRecord]

end Shot

namespace World

variable {w : World} {s : Snapshot} {policy : MatchPolicy} {item : SnapshotItem} {seen : Tick}

/-! ### One shot -/

/-- The block that is missing is that of the paired shot. -/
theorem confirmed_of_legacy {r : Record} (legacy : r.extra = none) (seen : Tick) (shot : Shot) :
    w.confirmed r seen (some shot) =
      Shot.ofRecord (w.contextAt seen) { r with extra := some (shot.extraAt seen) } := by
  rw [confirmed, legacy, Option.none_or, Option.map_some]

/-- So the shot of the record has the zone, the layer and the number of the paired one, and
the bounces that it had left. -/
theorem block_of_legacy (w : World) (seen : Tick) {r : Record} (legacy : r.extra = none)
    (shot : Shot) :
    let server := w.confirmed r seen (some shot)
    server.tuneZone = shot.tuneZone ∧ server.layer = shot.layer ∧ server.number = shot.number ∧
      server.bounces = shot.bouncesAt seen ∧ server.bouncesAt seen = shot.bouncesAt seen := by
  intro server
  have hserver : server = _ := confirmed_of_legacy legacy seen shot
  have hfixed := Shot.fixed_ofRecord (w.contextAt seen)
    { r with extra := some (shot.extraAt seen) }
  rw [← hserver] at hfixed
  refine ⟨(congrArg Shot.tuneZone hfixed :), (congrArg Shot.layer hfixed :),
    (congrArg Shot.number hfixed :), ?_, ?_⟩
  · rw [hserver, Shot.bounces_ofRecord]
    rfl
  · rw [hserver, Shot.bouncesAt_ofRecord]
    rfl

/-- What is fixed of a paired shot, it has from the shot of the record. -/
theorem block_settle (w : World) (policy : MatchPolicy) (seen : Tick) (r : Record) (shot : Shot) :
    let server := w.confirmed r seen (some shot)
    (w.settle policy seen r shot).1.tuneZone = server.tuneZone ∧
      (w.settle policy seen r shot).1.layer = server.layer ∧
      (w.settle policy seen r shot).1.number = server.number := by
  intro server
  rw [settle_shot]
  split
  · have hfixed := server.fixed_runTo (w.contextAt seen) w.tick
    exact ⟨(congrArg Shot.tuneZone hfixed :), (congrArg Shot.layer hfixed :),
      (congrArg Shot.number hfixed :)⟩
  · exact ⟨rfl, rfl, rfl⟩

/-- The bounces of a paired shot as of the snapshot: those it took since are counted again
if it takes the bounces of that tick for its own. -/
theorem bouncesAt_settle {r : Record} (legacy : r.extra = none) (shot : Shot) :
    (w.settle policy seen r shot).1.bouncesAt seen =
      UInt32.ofNatClamp ((shot.bouncesAt seen).toNat +
        if (w.settle policy seen r shot).2 = true ∨
            (w.confirmed r seen (some shot)).launchTick < shot.launchTick
        then 0 else shot.bouncesAfter seen) := by
  obtain ⟨-, -, -, hbounces, hbouncesAt⟩ := w.block_of_legacy seen legacy shot
  rw [settle_shot]
  generalize (w.settle policy seen r shot).2 = replaced
  generalize w.confirmed r seen (some shot) = server at *
  cases replaced with
  | true =>
    have known : seen ≤ (w.contextAt seen).tick := Int32.le_refl seen
    simp only [if_true, true_or, Nat.add_zero]
    rw [Shot.bouncesAt_runTo known, hbouncesAt, Shot.ofNatClamp_toNat]
  | false =>
    simp only [Bool.false_eq_true, if_false, false_or]
    by_cases early : server.launchTick < shot.launchTick
    · have hkept : (shot.adopt server).bouncesAt seen = shot.bouncesAt seen := by
        have hbounces' : (shot.adopt server).bounces = shot.bounces :=
          if_neg (Int32.not_le.mpr early)
        rw [Shot.bouncesAt, hbounces', Shot.bouncesAt]
        rfl
      rw [if_pos early, Nat.add_zero, hkept, Shot.ofNatClamp_toNat]
    · have hbounces' : (shot.adopt server).bounces = shot.bouncesAt seen := by
        rw [← hbounces]
        exact if_pos (Int32.not_lt.mp early)
      rw [if_neg early, Shot.bouncesAt, hbounces']
      rfl

/-! ### The paired entity -/

/-- **What a record without extension block leaves alone.** Let such a record be paired with
a live entity `e`. What stays of `e` has the zone, the layer and the number that it had, and
had the same bounces left at the snapshot, unless it has bounced since and the shot of the
record, with the paired block, was launched no earlier: then the bounces since are counted
twice. -/
theorem extra_of_pairs {e e' : Entity} (numbered : Numbered w)
    (room : w.nextId.toNat + (w.reconcile s policy).1.spawned < UInt64.size)
    (distinct : (s.items.map (·.id)).Nodup) (paired : w.Pairs s policy item e)
    (legacy : item.record.extra = none)
    (stays : e' ∈ (w.reconcile s policy).2.roster) (same : e'.id = e.id) :
    e ∈ w.live ∧ e'.shot.tuneZone = e.shot.tuneZone ∧ e'.shot.layer = e.shot.layer ∧
      e'.shot.number = e.shot.number ∧
      e'.shot.bouncesAt s.tick = UInt32.ofNatClamp ((e.shot.bouncesAt s.tick).toNat +
        if (w.settle policy s.tick item.record e.shot).2 = true ∨
            (w.confirmed item.record s.tick (some e.shot)).launchTick < e.shot.launchTick
        then 0 else e.shot.bouncesAfter s.tick) := by
  have hshot : e'.shot = (w.settle policy s.tick item.record e.shot).1 := by
    rw [eq_of_pairs numbered room distinct paired stays same]
    rfl
  obtain ⟨hzone, hlayer, hnumber⟩ := w.block_settle policy s.tick item.record e.shot
  obtain ⟨hzone', hlayer', hnumber', -, -⟩ := w.block_of_legacy s.tick legacy e.shot
  rw [hshot]
  exact ⟨mem_live_of_pairs distinct paired, hzone.trans hzone', hlayer.trans hlayer',
    hnumber.trans hnumber', bouncesAt_settle legacy e.shot⟩

/-! ### A shot between two walls -/

/-- A tile between two that throw shots back. -/
def lane : TileGrid := ((TileGrid.blank 3 1).setTile 0 0 .bounce).setTile 2 0 .bounce

/-- A shot along the lane, which bounces in every tick. -/
def dart : Launch :=
  { weapon := .gun, owner := some ⟨3⟩, origin := ⟨48.0, 16.0⟩, direction := ⟨1.0, 0.0⟩
    bounces := 5 }

/-- The world at the tick `stop` in which the shot was fired at the tick `start`. -/
def darted (start stop : Nat) : World :=
  (((World.new .standard lane.terrain).steps start).fire dart).2.steps (stop - start)

/-- What a server says of the shot in the legacy protocol at the tick 3, if it fired it at
the tick 2. -/
def dartItem : SnapshotItem :=
  { id := ⟨1⟩
    record :=
      { weapon := 1, startTick := 2, owner := 3, x := 6364, y := 1609, dirX := -1000000, dirY := 0
        lifespan := -1, flags := .empty, force := 0, impactSound := -1, extra := none } }

/-- The snapshot of that server. -/
def dartSnapshot : Snapshot := { tick := 3, items := [dartItem] }

theorem snapshot_darted : (darted 2 3).snapshot.onWire Wire.legacyVersion = dartSnapshot := by
  decide +kernel

/-- A prediction that started with the server, and has bounced since the snapshot, still knows
how many bounces it had left then. -/
theorem bounces_kept_by_same_start :
    ∃ e ∈ (darted 2 4).live, e.shot.bouncesAfter dartSnapshot.tick = 1 ∧
      ∃ e' ∈ ((darted 2 4).reconcile dartSnapshot {}).2.roster, e'.id = e.id ∧
        e'.shot.number = e.shot.number ∧
        e'.shot.bouncesAt dartSnapshot.tick = e.shot.bouncesAt dartSnapshot.tick := by
  have state : Numbered (darted 2 4) ∧
      (darted 2 4).nextId.toNat + ((darted 2 4).reconcile dartSnapshot {}).1.spawned <
        UInt64.size ∧
      (livePartner {} dartSnapshot.tick dartItem (darted 2 4)).any (fun e =>
        decide (e.shot.bouncesAfter dartSnapshot.tick = 1 ∧
          ((darted 2 4).confirmed dartItem.record dartSnapshot.tick (some e.shot)).launchTick <
            e.shot.launchTick ∧
          ∃ e' ∈ ((darted 2 4).reconcile dartSnapshot {}).2.roster, e'.id = e.id)) = true := by
    decide +kernel
  obtain ⟨numbered, room, found⟩ := state
  obtain ⟨e, he, facts⟩ := (Option.any_eq_true _ _).mp found
  obtain ⟨bounced, early, e', stays, same⟩ := of_decide_eq_true facts
  have paired : (darted 2 4).Pairs dartSnapshot {} dartItem e := ⟨[], [], rfl, he⟩
  obtain ⟨live, -, -, number, bounces⟩ := extra_of_pairs numbered room (by decide) paired rfl
    stays same
  have kept : UInt32.ofNatClamp ((e.shot.bouncesAt dartSnapshot.tick).toNat + 0) =
      e.shot.bouncesAt dartSnapshot.tick := Shot.ofNatClamp_toNat _
  rw [if_pos (Or.inr early), kept] at bounces
  exact ⟨e, live, bounced, e', stays, same, number, bounces⟩

/-- A prediction that started two ticks before the server had two bounces left at the snapshot,
and has taken one since. After the legacy record it would have had three. -/
theorem bounces_counted_twice :
    (darted 2 3).snapshot.onWire Wire.legacyVersion = dartSnapshot ∧
      ∃ e ∈ (darted 0 4).live, (darted 0 4).Pairs dartSnapshot {} dartItem e ∧
        dartItem.record.extra = none ∧ dartItem.record.startTick ≤ dartSnapshot.tick ∧
        ∃ e' ∈ ((darted 0 4).reconcile dartSnapshot {}).2.live, e'.id = e.id ∧
          e.shot.bouncesAt dartSnapshot.tick = 2 ∧ e'.shot.bouncesAt dartSnapshot.tick = 3 := by
  refine ⟨snapshot_darted, ?_⟩
  have state : (livePartner {} dartSnapshot.tick dartItem (darted 0 4)).any (fun e =>
      decide (∃ e' ∈ ((darted 0 4).reconcile dartSnapshot {}).2.live, e'.id = e.id ∧
        e.shot.bouncesAt dartSnapshot.tick = 2 ∧ e'.shot.bouncesAt dartSnapshot.tick = 3)) =
      true := by
    decide +kernel
  obtain ⟨e, he, facts⟩ := (Option.any_eq_true _ _).mp state
  have paired : (darted 0 4).Pairs dartSnapshot {} dartItem e := ⟨[], [], rfl, he⟩
  have live := mem_live_of_pairs (by decide) paired
  exact ⟨e, live, paired, rfl, by decide, of_decide_eq_true facts⟩

end World

end Volley
