/-
# Records of shots that ended here

A server may still list a shot that has ended here. Its first record gives a number to a
retired entity, and then the number keeps the shot from coming back. But the live
predictions are asked before the retired ones. So the record is suppressed only if it
agrees with no live prediction (`suppressed_of_ended`); if it agrees with one, that one is
claimed, even if it started later and the shot that ended started with the record
(`claimed_despite_ended`).

Key definitions: `World.Closest`, `World.Ended`, `World.OnlyRetired`.
Key theorems: `World.closest_of_bestMatch`, `World.takeRecord_unmatched`,
`World.takeRecord_matched`, `World.Taken.onlyRetired`, `World.suppressed_of_ended`.
-/
import Volley.Proofs.Shot.Published
import Volley.Proofs.World.Settled
import Volley.TileGrid.Sweep

namespace Volley

namespace World

variable {policy : MatchPolicy} {seen : Tick} {item : SnapshotItem} {w : World} {s : Snapshot}

/-! ### The nearest partner -/

theorem firstLeast_le {α : Type} {key : α → Nat} {a : α} {l : List α}
    (h : firstLeast key l = some a) : ∀ b ∈ l, key a ≤ key b := by
  induction l generalizing a with
  | nil => cases h
  | cons c rest ih =>
    intro b hb
    unfold firstLeast at h
    cases hrest : firstLeast key rest with
    | none =>
      have hnil : rest = [] := firstLeast_eq_none.mp hrest
      simp only [hrest, Option.some.injEq] at h
      subst h hnil
      have hbc : b = c := List.mem_singleton.mp hb
      exact Nat.le_of_eq (congrArg key hbc.symm)
    | some d =>
      have hd : ∀ b ∈ rest, key d ≤ key b := ih hrest
      simp only [hrest] at h
      by_cases hle : key c ≤ key d
      · rw [if_pos hle, Option.some.injEq] at h
        subst h
        rcases List.mem_cons.mp hb with rfl | hbr
        · exact Nat.le_refl _
        · exact Nat.le_trans hle (hd b hbr)
      · rw [if_neg hle, Option.some.injEq] at h
        subst h
        rcases List.mem_cons.mp hb with rfl | hbr
        · omega
        · exact hd b hbr

/-- Of the entities that can be paired with a confirmed shot, `e` is one that started nearest
to it. -/
structure Closest (entities : List Entity) (server : Shot) (seen : Tick) (policy : MatchPolicy)
    (before : List Entity) (e : Entity) (after : List Entity) : Prop extends
    Partner entities server seen policy before e after where
  nearest : ∀ x ∈ entities, x.serverId = none → x.shot.agreesAt server seen policy = true →
    e.shot.startTick.gap server.startTick ≤ x.shot.startTick.gap server.startTick

theorem closest_of_bestMatch {entities : List Entity} {server : Shot} {place : Entity × Nat}
    (h : bestMatch entities server seen policy = some place) :
    ∃ before after, Closest entities server seen policy before place.1 after ∧
      ∀ e, entities.set place.2 e = before ++ e :: after := by
  obtain ⟨before, after, hpartner, hset⟩ := partner_of_bestMatch h
  refine ⟨before, after, ⟨hpartner, fun x hx hn ha => ?_⟩, hset⟩
  obtain ⟨i, hi⟩ := List.mem_iff_getElem?.mp hx
  have hmem : (x, i) ∈ entities.zipIdx := List.mk_mem_zipIdx_iff_getElem?.mpr hi
  refine firstLeast_le h (x, i) (List.mem_filter.mpr ⟨hmem, ?_⟩)
  simp [hn, ha]

theorem bestMatch_eq_none {entities : List Entity} {server : Shot} :
    bestMatch entities server seen policy = none ↔ Unmatched entities server seen policy := by
  refine ⟨unmatched_of_bestMatch, fun unmatched => ?_⟩
  by_contra hsome
  obtain ⟨place, hplace⟩ := Option.ne_none_iff_exists'.mp hsome
  obtain ⟨before, after, hpartner, -⟩ := partner_of_bestMatch hplace
  have hmem : place.1 ∈ entities := hpartner.split ▸ List.mem_append_right _ List.mem_cons_self
  have hagrees := hpartner.agrees
  rw [unmatched place.1 hmem hpartner.unpaired] at hagrees
  cases hagrees

/-- A partner that started with the confirmed shot is found before one that did not. -/
theorem Closest.startTick_eq {entities before after : List Entity} {server : Shot} {e x : Entity}
    (h : Closest entities server seen policy before e after) (hx : x ∈ entities)
    (unpaired : x.serverId = none) (agrees : x.shot.agreesAt server seen policy = true)
    (same : x.shot.startTick = server.startTick) : e.shot.startTick = server.startTick := by
  have hle := h.nearest x hx unpaired agrees
  rw [same] at hle
  unfold Tick.gap at hle
  apply Int32.toInt_inj.mp
  omega

theorem startTick_confirmed (w : World) (r : Record) (seen : Tick) (paired : Option Shot) :
    (w.confirmed r seen paired).startTick = r.startTick :=
  (congrArg Shot.startTick (Shot.fixed_ofRecord (w.contextAt seen)
    { r with extra := r.extra.or (paired.map (·.extraAt seen)) }) :)

/-! ### The turn of a record -/

/-- The record of an item has not been paired yet, and describes a shot `x` that has ended
here and started when the record says. -/
structure Ended (policy : MatchPolicy) (seen : Tick) (item : SnapshotItem) (w : World)
    (x : Entity) : Prop where
  new : item.id ∉ w.tracked
  retired : x ∈ w.retired
  unpaired : x.serverId = none
  agrees : x.shot.agreesAt (w.confirmed item.record seen none) seen policy = true
  started : x.shot.startTick = item.record.startTick

instance (policy : MatchPolicy) (seen : Tick) (item : SnapshotItem) (w : World) :
    Decidable (∃ x, Ended policy seen item w x) :=
  decidable_of_iff (item.id ∉ w.tracked ∧ ∃ x ∈ w.retired, x.serverId = none ∧
      x.shot.agreesAt (w.confirmed item.record seen none) seen policy = true ∧
      x.shot.startTick = item.record.startTick)
    ⟨fun ⟨new, x, hx, unpaired, agrees, started⟩ => ⟨x, new, hx, unpaired, agrees, started⟩,
      fun ⟨x, h⟩ => ⟨h.new, x, h.retired, h.unpaired, h.agrees, h.started⟩⟩

/-- A number that nothing carries is found nowhere. -/
theorem not_found_of_new (new : item.id ∉ w.tracked) :
    findTracked w.live item.id = none ∧ w.retired.any (·.serverId = some item.id) = false := by
  rw [tracked_eq, List.mem_append, not_or] at new
  obtain ⟨hlive, hretired⟩ := new
  constructor
  · by_contra hsome
    obtain ⟨place, hplace⟩ := Option.ne_none_iff_exists'.mp hsome
    obtain ⟨hid, before, after, hsplit, -⟩ := split_of_findTracked hplace
    have hmem : place.1 ∈ w.live := hsplit ▸ List.mem_append_right _ List.mem_cons_self
    exact hlive (mem_serverIds.mpr ⟨place.1, hmem, hid⟩)
  · apply List.any_eq_false.mpr
    intro e he hid
    exact hretired (mem_serverIds.mpr ⟨e, he, of_decide_eq_true hid⟩)

/-- If no live prediction agrees with the record, it is suppressed, and its number goes to a
retired entity that started when the record says. -/
theorem takeRecord_unmatched {x : Entity} (ended : Ended policy seen item w x)
    (unmatched : Unmatched w.live (w.confirmed item.record seen none) seen policy)
    (r : ReconcileReport) :
    ∃ before e after,
      Closest w.retired (w.confirmed item.record seen none) seen policy before e after ∧
        e.shot.startTick = item.record.startTick ∧
        takeRecord policy seen item (w, r) =
          ({ w with retired := before ++ { e with serverId := some item.id } :: after },
            { r with suppressed := r.suppressed + 1 }) := by
  have hstart := w.startTick_confirmed item.record seen none
  have hfound : bestMatch w.retired (w.confirmed item.record seen none) seen policy ≠ none := by
    intro hnone
    have hdiffers := unmatched_of_bestMatch hnone x ended.retired ended.unpaired
    rw [ended.agrees] at hdiffers
    cases hdiffers
  obtain ⟨place, hplace⟩ := Option.ne_none_iff_exists'.mp hfound
  obtain ⟨before, after, hclosest, hset⟩ := closest_of_bestMatch hplace
  refine ⟨before, place.1, after, hclosest, ?_, ?_⟩
  · rw [← hstart]
    exact hclosest.startTick_eq ended.retired ended.unpaired ended.agrees
      (ended.started.trans hstart.symm)
  · obtain ⟨hlive, hretired⟩ := not_found_of_new ended.new
    unfold takeRecord
    simp only [hlive, hretired, Bool.false_eq_true, if_false, bestMatch_eq_none.mpr unmatched,
      hplace, pairRetired, hset]

/-- If a live prediction agrees with the record, the one that started nearest to it is
claimed, whatever has ended here. -/
theorem takeRecord_matched (new : item.id ∉ w.tracked)
    (matched : ¬ Unmatched w.live (w.confirmed item.record seen none) seen policy)
    (r : ReconcileReport) :
    ∃ before e after,
      Closest w.live (w.confirmed item.record seen none) seen policy before e after ∧
        takeRecord policy seen item (w, r) =
          ({ w with live := before ++ settled policy seen item w e :: after },
            { r with
              claimed := r.claimed + 1
              replaced := r.replaced + (w.settle policy seen item.record e.shot).2.toNat }) := by
  rw [← bestMatch_eq_none] at matched
  obtain ⟨place, hplace⟩ := Option.ne_none_iff_exists'.mp matched
  obtain ⟨before, after, hclosest, hset⟩ := closest_of_bestMatch hplace
  obtain ⟨hlive, hretired⟩ := not_found_of_new new
  refine ⟨before, place.1, after, hclosest, ?_⟩
  unfold takeRecord
  simp only [hlive, hretired, Bool.false_eq_true, if_false, hplace, pairLive, hset, settled]

/-! ### The records after it -/

/-- A retired entity carries the number, and no live one does. -/
structure OnlyRetired (id : EntityId) (w : World) : Prop where
  carried : id ∈ serverIds w.retired
  grounded : id ∉ serverIds w.live

/-- No record puts a number in flight that a retired entity carries. -/
theorem Taken.onlyRetired {id : EntityId} {r : ReconcileReport} {out : World × ReconcileReport}
    (h : Taken policy seen item w r out) (only : OnlyRetired id w) : OnlyRetired id out.1 := by
  have htracked : id ∈ w.tracked := tracked_eq w ▸ List.mem_append_right _ only.carried
  -- a live entity that carries `id` now would have got it from this record
  have hlive : item.id ≠ id → id ∉ serverIds out.1.live := by
    intro hother hid
    obtain ⟨e, he, hcarries⟩ := mem_serverIds.mp hid
    rcases h.mem_live he with hold | hnew
    · exact only.grounded (mem_serverIds.mpr ⟨e, hold, hcarries⟩)
    · exact hother (Option.some.inj (hnew.symm.trans hcarries))
  have hnew : item.id ∉ w.tracked → item.id ≠ id := fun new hid => new (hid ▸ htracked)
  cases h with
  | adopted before e after split carries =>
    refine ⟨only.carried, hlive fun hid => only.grounded ?_⟩
    have he : e ∈ w.live := split ▸ List.mem_append_right _ List.mem_cons_self
    exact mem_serverIds.mpr ⟨e, he, hid ▸ carries⟩
  | suppressed => exact only
  | claimed before e after new => exact ⟨only.carried, hlive (hnew new)⟩
  | tagged before e after new unclaimed partner =>
    refine ⟨?_, only.grounded⟩
    obtain ⟨x, hx, hcarries⟩ := mem_serverIds.mp only.carried
    rw [partner.split] at hx
    refine mem_serverIds.mpr ⟨x, (mem_of_place hx).resolve_right ?_, hcarries⟩
    rintro rfl
    rw [partner.unpaired] at hcarries
    cases hcarries
  | spawned new => exact ⟨only.carried, hlive (hnew new)⟩

/-- **The record of a shot that ended here.** Let a record that is paired with nothing yet
agree with a retired entity that started when it says. If no live prediction agrees with it,
it is suppressed: its number goes to such an entity, and no live entity carries it when the
snapshot has been taken. Otherwise the live prediction that started nearest to it is
claimed. -/
theorem suppressed_of_ended {before after : List SnapshotItem} {x : Entity}
    (hitems : s.items = before ++ item :: after)
    (ended : Ended policy s.tick item (w.upTo s policy before).1 x) :
    let now := w.upTo s policy before
    let next := w.upTo s policy (before ++ [item])
    let server := now.1.confirmed item.record s.tick none
    (Unmatched now.1.live server s.tick policy →
      (∃ b e a, Closest now.1.retired server s.tick policy b e a ∧
        e.shot.startTick = item.record.startTick ∧
        next = ({ now.1 with retired := b ++ { e with serverId := some item.id } :: a },
          { now.2 with suppressed := now.2.suppressed + 1 })) ∧
      ∀ e ∈ (w.reconcile s policy).2.live, e.serverId ≠ some item.id) ∧
    (¬ Unmatched now.1.live server s.tick policy →
      ∃ b e a, Closest now.1.live server s.tick policy b e a ∧
        next = ({ now.1 with live := b ++ settled policy s.tick item now.1 e :: a },
          { now.2 with
            claimed := now.2.claimed + 1
            replaced := now.2.replaced +
              (now.1.settle policy s.tick item.record e.shot).2.toNat })) := by
  intro now next server
  have hnext : next = takeRecord policy s.tick item now := w.upTo_concat s policy before item
  refine ⟨fun unmatched => ?_, fun matched => ?_⟩
  · obtain ⟨b, e, a, hclosest, hstarted, htaken⟩ := takeRecord_unmatched ended unmatched now.2
    refine ⟨⟨b, e, a, hclosest, hstarted, hnext.trans htaken⟩, fun y hy hcarries => ?_⟩
    have hfirst : OnlyRetired item.id (takeRecord policy s.tick item now).1 := by
      rw [htaken]
      refine ⟨mem_serverIds.mpr ⟨_, List.mem_append_right _ List.mem_cons_self, rfl⟩, ?_⟩
      have hnew := ended.new
      rw [tracked_eq, List.mem_append, not_or] at hnew
      exact hnew.1
    have hall : OnlyRetired item.id (w.withRecords s policy) := by
      rw [withRecords_split hitems]
      exact takeRecords_induction (s := { s with items := after })
        (P := fun out => OnlyRetired item.id out.1) (fun _ _ _ _ _ hw ht => ht.onlyRetired hw)
        hfirst
    exact hall.grounded (mem_serverIds.mpr ⟨y, mem_live_withRecords hy, hcarries⟩)
  · rw [hnext]
    exact takeRecord_matched ended.new matched now.2

/-! ### Two shots at a wall -/

/-- A row of tiles with a wall at its end. -/
def alley : TileGrid := (TileGrid.blank 4 1).setTile 3 0 .solid

/-- A shot along the alley, which is in the wall after two ticks. -/
def bullet (owner : ClientId) : Launch :=
  { weapon := .gun, owner := some owner, origin := ⟨16.0, 16.0⟩, direction := ⟨1.0, 0.0⟩ }

/-- The world at the tick 2 in which one player fired at the tick 0, and one at the tick 1. -/
def twoShots (first second : ClientId) : World :=
  ((((World.new .standard alley.terrain).fire (bullet first)).2.steps 1).fire
    (bullet second)).2.steps 1

/-- What a server without the wall says of the first shot at the tick 2. -/
def bulletItem : SnapshotItem :=
  { id := ⟨1⟩
    record :=
      { weapon := 1, startTick := 0, owner := 3, x := 10400, y := 1697, dirX := 1000000, dirY := 0
        lifespan := -1, flags := .empty, force := 0, impactSound := -1
        extra := some
          { layer := 0, number := 0, tuneZone := 0, bounces := 0, launchOffset := 0 } } }

/-- The snapshot of that server. -/
def bulletSnapshot : Snapshot := { tick := 2, items := [bulletItem] }

theorem snapshot_bullet :
    (((World.new .standard .openSpace).fire (bullet ⟨3⟩)).2.steps 2).snapshot =
      bulletSnapshot := by
  decide +kernel

/-- The shot of one player ended in the wall, and that of another is under way. The record of
the first one is suppressed. -/
theorem suppressed_beside_another :
    let w := twoShots ⟨3⟩ ⟨4⟩
    (∃ x, Ended {} bulletSnapshot.tick bulletItem w x) ∧
      Unmatched w.live (w.confirmed bulletItem.record bulletSnapshot.tick none)
        bulletSnapshot.tick {} ∧
      w.live.length = 1 ∧ (w.upTo bulletSnapshot {} [bulletItem]).2.suppressed = 1 ∧
      ∀ e ∈ (w.reconcile bulletSnapshot {}).2.live, e.serverId ≠ some bulletItem.id := by
  intro w
  have state : (∃ x, Ended {} bulletSnapshot.tick bulletItem w x) ∧
      Unmatched w.live (w.confirmed bulletItem.record bulletSnapshot.tick none)
        bulletSnapshot.tick {} ∧
      w.live.length = 1 := by
    decide +kernel
  clear_value w
  obtain ⟨⟨x, ended⟩, unmatched, flying⟩ := state
  have hitems : bulletSnapshot.items = [] ++ bulletItem :: [] := rfl
  obtain ⟨⟨b, e, a, -, -, hnext⟩, grounded⟩ := (suppressed_of_ended hitems ended).1 unmatched
  have hsuppressed : (w.upTo bulletSnapshot {} [bulletItem]).2.suppressed = 1 :=
    congrArg (fun out => out.2.suppressed) hnext
  exact ⟨⟨x, ended⟩, unmatched, flying, hsuppressed, grounded⟩

/-- One player fired twice: the first shot ended in the wall, and the second is under way. The
record of the first one is taken for the second, though no live shot started when it says. -/
theorem claimed_despite_ended :
    let w := twoShots ⟨3⟩ ⟨3⟩
    (((World.new .standard .openSpace).fire (bullet ⟨3⟩)).2.steps 2).snapshot = bulletSnapshot ∧
      (∃ x, Ended {} bulletSnapshot.tick bulletItem w x) ∧
      (∀ e ∈ w.live, e.shot.startTick ≠ bulletItem.record.startTick) ∧
      (w.reconcile bulletSnapshot {}).1.suppressed = 0 ∧
      (w.reconcile bulletSnapshot {}).1.claimed = 1 ∧
      (∃ e ∈ (w.reconcile bulletSnapshot {}).2.live, e.serverId = some bulletItem.id) ∧
      ∀ e ∈ (w.reconcile bulletSnapshot {}).2.retired, e.serverId ≠ some bulletItem.id := by
  intro w
  refine ⟨snapshot_bullet, ?_⟩
  decide +kernel

end World

end Volley
