/-
# What becomes of a paired shot

When the turn of a record comes, `livePartner` is the live entity that it is paired with:
the one that carries its number, or else the prediction that is claimed for it. If the
items of a snapshot have different numbers, no other record touches that entity, neither
before (`mem_live_of_pairs`) nor after. So the entity ends up with the shot that it had
before the snapshot, settled with that one record (`eq_of_pairs`).

Key definitions: `World.livePartner`, `World.upTo`, `World.Pairs`.
Key theorems: `World.takeRecord_livePartner`, `World.mem_live_of_pairs`, `World.eq_of_pairs`.
-/
import Volley.Proofs.World.Numbering

namespace Volley

namespace World

variable {policy : MatchPolicy} {seen : Tick} {item : SnapshotItem} {w : World}
  {r : ReconcileReport}

/-- The live entity that a record is paired with, if there is one. -/
def livePartner (policy : MatchPolicy) (seen : Tick) (item : SnapshotItem) (w : World) :
    Option Entity :=
  match findTracked w.live item.id with
  | some place => some place.1
  | none =>
    if w.retired.any (·.serverId = some item.id) then none
    else (bestMatch w.live (w.confirmed item.record seen none) seen policy).map Prod.fst

/-- An entity after it has been paired with a record. -/
def settled (policy : MatchPolicy) (seen : Tick) (item : SnapshotItem) (w : World) (e : Entity) :
    Entity :=
  { e with serverId := some item.id, shot := (w.settle policy seen item.record e.shot).1 }

/-- The record settles its partner, and nothing else. -/
theorem takeRecord_livePartner {e : Entity} (h : livePartner policy seen item w = some e)
    (r : ReconcileReport) :
    (e.serverId = none ∨ e.serverId = some item.id) ∧
      ∃ before after, w.live = before ++ e :: after ∧
        (takeRecord policy seen item (w, r)).1 =
          { w with live := before ++ settled policy seen item w e :: after } := by
  unfold livePartner at h
  unfold takeRecord
  cases hp : findTracked w.live item.id with
  | some place =>
    simp only [hp, Option.some.injEq] at h ⊢
    obtain ⟨hid, before, after, hs, hset⟩ := split_of_findTracked hp
    subst h
    refine ⟨Or.inr hid, before, after, hs, ?_⟩
    simp only [pairLive, hset, settled]
  | none =>
    simp only [hp] at h ⊢
    by_cases hr : w.retired.any (·.serverId = some item.id)
    · rw [if_pos hr] at h
      cases h
    · rw [if_neg hr] at h
      obtain ⟨place, hb, rfl⟩ := Option.map_eq_some_iff.mp h
      obtain ⟨before, after, hpart, hset⟩ := partner_of_bestMatch hb
      refine ⟨Or.inl hpart.unpaired, before, after, hpart.split, ?_⟩
      simp only [if_neg hr, hb, pairLive, hset, settled]

/-! ### The other records -/

theorem mem_of_place {before after : List Entity} {e x y : Entity}
    (h : e ∈ before ++ y :: after) : e ∈ before ++ x :: after ∨ e = y := by
  rw [List.mem_append, List.mem_cons] at h
  rcases h with h | h | h
  · exact Or.inl (List.mem_append_left _ h)
  · exact Or.inr h
  · exact Or.inl (List.mem_append_right _ (List.mem_cons_of_mem _ h))

/-- A live entity was there before the record, or it carries its number now. -/
theorem Taken.mem_live {out : World × ReconcileReport} (h : Taken policy seen item w r out)
    {e : Entity} (he : e ∈ out.1.live) : e ∈ w.live ∨ e.serverId = some item.id := by
  cases h with
  | adopted before x after split carries =>
    rw [split]
    exact (mem_of_place he).imp_right (congrArg Entity.serverId)
  | suppressed => exact Or.inl he
  | claimed before x after new partner =>
    rw [partner.split]
    exact (mem_of_place he).imp_right (congrArg Entity.serverId)
  | tagged => exact Or.inl he
  | spawned =>
    simp only [spawn, insert, List.mem_append, List.mem_singleton] at he
    exact he.imp_right (congrArg Entity.serverId)

/-- A live entity that carries another number is not touched. -/
theorem Taken.keeps_other {out : World × ReconcileReport} (h : Taken policy seen item w r out)
    {e : Entity} (he : e ∈ w.live) {id : EntityId} (carries : e.serverId = some id)
    (other : item.id ≠ id) : e ∈ out.1.live := by
  cases h with
  | adopted before x after split carried =>
    rw [split] at he
    refine (mem_of_place he).resolve_right ?_
    rintro rfl
    exact other (Option.some.inj (carried.symm.trans carries))
  | suppressed => exact he
  | claimed before x after new partner =>
    rw [partner.split] at he
    refine (mem_of_place he).resolve_right ?_
    rintro rfl
    rw [partner.unpaired] at carries
    cases carries
  | tagged => exact he
  | spawned => exact List.mem_append_left _ he

/-- No record changes what shots see. -/
theorem Taken.contextAt {out : World × ReconcileReport} (h : Taken policy seen item w r out) :
    out.1.tick = w.tick ∧ out.1.contextAt = w.contextAt := by
  cases h <;> exact ⟨rfl, rfl⟩

/-- What a record does to a shot depends on what the shot sees, not on the other shots. -/
theorem settled_congr {w' : World} (tick : w'.tick = w.tick)
    (context : w'.contextAt = w.contextAt) :
    settled policy seen item w' = settled policy seen item w := by
  have hconfirmed : w'.confirmed = w.confirmed := by
    funext r t paired
    rw [confirmed, confirmed, context]
  have hdeviation : w'.deviation = w.deviation := by
    funext s r t
    rw [deviation, deviation, context]
  funext e
  unfold settled settle
  rw [hconfirmed, hdeviation, context, tick]

/-! ### The records in turn -/

/-- The world when some records of a snapshot have been taken. -/
def upTo (w : World) (s : Snapshot) (policy : MatchPolicy) (items : List SnapshotItem) :
    World × ReconcileReport :=
  takeRecords policy { s with items } (w, { tick := s.tick, confirmed := s.items.length })

/-- In a snapshot, the record of an item is paired with a live entity. -/
def Pairs (w : World) (s : Snapshot) (policy : MatchPolicy) (item : SnapshotItem) (e : Entity) :
    Prop :=
  ∃ before after, s.items = before ++ item :: after ∧
    livePartner policy s.tick item (w.upTo s policy before).1 = some e

variable {s : Snapshot} {e e' : Entity}

theorem mem_live_upTo (w : World) (s : Snapshot) (policy : MatchPolicy)
    (items : List SnapshotItem) : ∀ x ∈ (w.upTo s policy items).1.live,
      x ∈ w.live ∨ ∃ i ∈ items, x.serverId = some i.id :=
  takeRecords_induction (P := fun out => ∀ x ∈ out.1.live,
      x ∈ w.live ∨ ∃ i ∈ items, x.serverId = some i.id)
    (fun i hi _ _ _ hw ht x hx => (ht.mem_live hx).elim (hw x) fun hs => Or.inr ⟨i, hi, hs⟩)
    fun _ hx => Or.inl hx

theorem contextAt_upTo (w : World) (s : Snapshot) (policy : MatchPolicy)
    (items : List SnapshotItem) :
    (w.upTo s policy items).1.tick = w.tick ∧
      (w.upTo s policy items).1.contextAt = w.contextAt :=
  takeRecords_induction (P := fun out => out.1.tick = w.tick ∧ out.1.contextAt = w.contextAt)
    (fun _ _ _ _ _ hw ht => ⟨ht.contextAt.1.trans hw.1, ht.contextAt.2.trans hw.2⟩) ⟨rfl, rfl⟩

/-- No snapshot changes what shots see. -/
theorem contextAt_reconcile (w : World) (s : Snapshot) (policy : MatchPolicy) :
    (w.reconcile s policy).2.tick = w.tick ∧
      (w.reconcile s policy).2.contextAt = w.contextAt := by
  rw [reconcile_world]
  exact contextAt_upTo w s policy s.items

theorem upTo_concat (w : World) (s : Snapshot) (policy : MatchPolicy) (before : List SnapshotItem)
    (item : SnapshotItem) : w.upTo s policy (before ++ [item]) =
      takeRecord policy s.tick item (w.upTo s policy before) := by
  simp only [upTo, takeRecords, List.foldl_append, List.foldl_cons, List.foldl_nil]

/-- The records leave all numbers different. -/
theorem Numbered.withRecords (numbered : Numbered w)
    (room : w.nextId.toNat + (w.reconcile s policy).1.spawned < UInt64.size) :
    Numbered (w.withRecords s policy) := by
  obtain ⟨n, hn, hp⟩ := passage_takeRecords policy s
    (w, { tick := s.tick, confirmed := s.items.length })
  have hspawned : (w.reconcile s policy).1.spawned = n := by
    rw [← Nat.zero_add n]
    exact hn
  exact hp.numbered numbered (hspawned ▸ room)

/-- The records after one of them are taken into the world that it leaves. -/
theorem withRecords_split {before after : List SnapshotItem}
    (hitems : s.items = before ++ item :: after) : w.withRecords s policy =
      (takeRecords policy { s with items := after }
        (takeRecord policy s.tick item (w.upTo s policy before))).1 := by
  simp only [withRecords, upTo, takeRecords, hitems, List.foldl_append, List.foldl_cons]

/-- Marking and putting away leave in flight only what was there before, as it was. -/
theorem mem_live_withRecords {e : Entity} (h : e ∈ (w.reconcile s policy).2.live) :
    e ∈ (w.withRecords s policy).live := by
  rw [reconcile_live] at h
  have hflying := not_removed_of_mem_sweep h
  obtain ⟨e0, he0, rfl⟩ := List.mem_map.mp (List.mem_filter.mp h).1
  unfold markGone at hflying ⊢
  split
  · rename_i hgone
    rw [if_pos hgone] at hflying
    cases hflying
  · exact he0

/-- The items around one of a snapshot with different items have other numbers. -/
theorem ids_around {before after : List SnapshotItem}
    (distinct : ((before ++ item :: after).map (·.id)).Nodup) :
    (∀ i ∈ before, i.id ≠ item.id) ∧ ∀ i ∈ after, i.id ≠ item.id := by
  rw [List.map_append, List.map_cons, List.nodup_middle, List.nodup_cons] at distinct
  have hnot := distinct.1
  rw [List.mem_append, not_or] at hnot
  exact ⟨fun i hi hid => hnot.1 (hid ▸ List.mem_map_of_mem hi),
    fun i hi hid => hnot.2 (hid ▸ List.mem_map_of_mem hi)⟩

/-- The partner of a record is as it was before the snapshot. -/
theorem mem_live_of_pairs (distinct : (s.items.map (·.id)).Nodup)
    (paired : w.Pairs s policy item e) : e ∈ w.live := by
  obtain ⟨before, after, hitems, hpartner⟩ := paired
  obtain ⟨hcarries, b, a, hlive, -⟩ := takeRecord_livePartner hpartner default
  have hmem : e ∈ (w.upTo s policy before).1.live :=
    hlive ▸ List.mem_append_right _ List.mem_cons_self
  rcases mem_live_upTo w s policy before e hmem with he | ⟨i, hi, hs⟩
  · exact he
  · -- an earlier record would have given it its own number
    have hid : i.id = item.id := by
      rcases hcarries with hn | hs'
      · rw [hn] at hs
        cases hs
      · exact Option.some.inj (hs.symm.trans hs')
    exact absurd hid ((ids_around (hitems ▸ distinct)).1 i hi)

/-- After all records, the partner of one of them is settled. -/
theorem settled_mem_withRecords (distinct : (s.items.map (·.id)).Nodup)
    (paired : w.Pairs s policy item e) :
    settled policy s.tick item w e ∈ (w.withRecords s policy).live := by
  obtain ⟨before, after, hitems, hpartner⟩ := paired
  obtain ⟨-, b, a, hlive, hworld⟩ := takeRecord_livePartner hpartner (w.upTo s policy before).2
  obtain ⟨htick, hcontext⟩ := contextAt_upTo w s policy before
  rw [settled_congr htick hcontext] at hworld
  have hothers := (ids_around (hitems ▸ distinct)).2
  rw [withRecords_split hitems]
  refine takeRecords_induction (s := { s with items := after })
    (P := fun out => settled policy s.tick item w e ∈ out.1.live)
    (fun i hi _ _ _ hw ht => ht.keeps_other hw rfl (hothers i hi)) ?_
  rw [hworld]
  exact List.mem_append_right _ List.mem_cons_self

/-- **A paired shot is settled by its record alone.** Whatever else a snapshot with different
items says, the entity that stays under the number of the partner is the partner, settled. -/
theorem eq_of_pairs (numbered : Numbered w)
    (room : w.nextId.toNat + (w.reconcile s policy).1.spawned < UInt64.size)
    (distinct : (s.items.map (·.id)).Nodup) (paired : w.Pairs s policy item e)
    (stays : e' ∈ (w.reconcile s policy).2.roster) (same : e'.id = e.id) :
    e' = settled policy s.tick item w e := by
  have hmem := settled_mem_withRecords distinct paired
  have hmem' := (not_gone_of_mem_reconcile stays).1
  exact List.inj_on_of_nodup_map (numbered.withRecords room).nodup hmem'
    (mem_roster_of_live hmem) same

end World

end Volley
