/-
# Which entity a record is paired with

A record of a snapshot is taken into the world in one of five ways (`Taken`): a live
entity that carries its number takes over what the server decides, a retired entity that
carries it lets it be suppressed, a live prediction is claimed for it, a retired
prediction is tagged with it, or its shot is added. So a number is either carried already
and stays with its entity, or given to one entity that had none (`Taken.tracked_perm`).

After all records, what the server does not list and what it should have confirmed is gone
(`gone`), and everything else is kept, in flight or retired (`reconcile_roster_perm`). So
the numbers that a world carries after a snapshot are the listed ones, each carried by one
entity, whatever it carried before (`reconcile_pairs`).

Key definitions: `World.roster`, `World.tracked`, `World.Partner`, `World.Taken`,
`World.gone`.
Key theorems: `World.taken`, `World.Taken.tracked_perm`, `World.reconcile_roster_perm`,
`World.reconcile_pairs`.
-/
import Mathlib.Data.List.Perm.Basic
import Mathlib.Data.List.Nodup
import Mathlib.Data.List.Perm.Subperm
import Volley.World.Reconcile

namespace Volley

namespace World

/-- All entities of a world, live ones first. -/
def roster (w : World) : List Entity := w.live ++ w.retired

theorem mem_roster_of_live {w : World} {e : Entity} (h : e ∈ w.live) : e ∈ w.roster :=
  List.mem_append_left _ h

theorem mem_roster_of_retired {w : World} {e : Entity} (h : e ∈ w.retired) : e ∈ w.roster :=
  List.mem_append_right _ h

/-- The numbers of the server among some entities. -/
def serverIds (entities : List Entity) : List EntityId := entities.filterMap (·.serverId)

/-- The numbers of the server that the entities of a world carry. -/
def tracked (w : World) : List EntityId := serverIds w.roster

theorem tracked_eq (w : World) : w.tracked = serverIds w.live ++ serverIds w.retired := by
  simp [tracked, roster, serverIds]

theorem mem_serverIds {entities : List Entity} {id : EntityId} :
    id ∈ serverIds entities ↔ ∃ e ∈ entities, e.serverId = some id := by
  simp [serverIds]

theorem mem_tracked {w : World} {id : EntityId} :
    id ∈ w.tracked ↔ ∃ e ∈ w.roster, e.serverId = some id := mem_serverIds

/-- A number is carried as often as it stands among the numbers. -/
theorem countP_carries (entities : List Entity) (id : EntityId) :
    entities.countP (fun e => e.serverId = some id) = (serverIds entities).count id := by
  rw [serverIds, List.count_filterMap]
  exact List.countP_congr fun e _ => by simp

/-- Two entities that carry the same number are one, if no number is carried twice. -/
theorem eq_of_carries {entities : List Entity} (distinct : (serverIds entities).Nodup)
    {e e' : Entity} (he : e ∈ entities) (he' : e' ∈ entities) {s : EntityId}
    (hs : e.serverId = some s) (hs' : e'.serverId = some s) : e = e' := by
  induction entities with
  | nil => cases he
  | cons x rest ih =>
    have hrest : (serverIds rest).Nodup :=
      distinct.sublist ((List.sublist_cons_self x rest).filterMap _)
    -- if `x` carries `s` itself, nothing behind it does
    have hfirst : x.serverId = some s → ∀ y ∈ rest, y.serverId ≠ some s := by
      intro hx y hy hys
      have hcons : serverIds (x :: rest) = s :: serverIds rest := by simp [serverIds, hx]
      rw [hcons, List.nodup_cons] at distinct
      exact distinct.1 (mem_serverIds.mpr ⟨y, hy, hys⟩)
    rcases List.mem_cons.mp he with hx | hm
    · rcases List.mem_cons.mp he' with hx' | hm'
      · exact hx.trans hx'.symm
      · exact absurd hs' (hfirst (hx ▸ hs) e' hm')
    · rcases List.mem_cons.mp he' with hx' | hm'
      · exact absurd hs (hfirst (hx' ▸ hs') e hm)
      · exact ih hrest hm hm'

/-! ### The search for a partner -/

theorem mem_of_firstLeast {α : Type} {key : α → Nat} {a : α} :
    ∀ {l : List α}, firstLeast key l = some a → a ∈ l
  | [], h => by simp [firstLeast] at h
  | b :: rest, h => by
    unfold firstLeast at h
    split at h
    · simp_all
    · rename_i c hc
      split at h
      · simp_all
      · have := mem_of_firstLeast (hc.trans h)
        exact List.mem_cons_of_mem _ this

theorem firstLeast_eq_none {α : Type} {key : α → Nat} {l : List α} :
    firstLeast key l = none ↔ l = [] := by
  cases l with
  | nil => simp [firstLeast]
  | cons a rest =>
    unfold firstLeast
    split
    · simp
    · split <;> simp

/-- An element of a list at a place, with what stands before and after it. -/
theorem split_of_place {entities : List Entity} {place : Entity × Nat}
    (h : place ∈ entities.zipIdx) :
    ∃ before after, entities = before ++ place.1 :: after ∧
      ∀ e, entities.set place.2 e = before ++ e :: after := by
  obtain ⟨hlt, heq⟩ := List.getElem?_eq_some_iff.mp (List.mem_zipIdx_iff_getElem?.mp h)
  refine ⟨entities.take place.2, entities.drop (place.2 + 1), ?_, fun e => ?_⟩
  · rw [← heq, List.getElem_cons_drop, List.take_append_drop]
  · rw [List.set_eq_take_append_cons_drop, if_pos hlt]

/-- The entity `e` of a list, between `before` and `after`, is unpaired and agrees with a
confirmed shot. -/
structure Partner (entities : List Entity) (server : Shot) (seen : Tick) (policy : MatchPolicy)
    (before : List Entity) (e : Entity) (after : List Entity) : Prop where
  split : entities = before ++ e :: after
  unpaired : e.serverId = none
  agrees : e.shot.agreesAt server seen policy = true

theorem partner_of_bestMatch {entities : List Entity} {server : Shot} {seen : Tick}
    {policy : MatchPolicy} {place : Entity × Nat}
    (h : bestMatch entities server seen policy = some place) :
    ∃ before after, Partner entities server seen policy before place.1 after ∧
      ∀ e, entities.set place.2 e = before ++ e :: after := by
  have hm := mem_of_firstLeast h
  simp only [List.mem_filter, Bool.and_eq_true, Option.isNone_iff_eq_none] at hm
  obtain ⟨hp, hn, ha⟩ := hm
  obtain ⟨before, after, hs, hset⟩ := split_of_place hp
  exact ⟨before, after, ⟨hs, hn, ha⟩, hset⟩

/-- No entity of the list can be paired with a confirmed shot. -/
def Unmatched (entities : List Entity) (server : Shot) (seen : Tick) (policy : MatchPolicy) :
    Prop :=
  ∀ e ∈ entities, e.serverId = none → e.shot.agreesAt server seen policy = false

instance (entities : List Entity) (server : Shot) (seen : Tick) (policy : MatchPolicy) :
    Decidable (Unmatched entities server seen policy) :=
  inferInstanceAs (Decidable (∀ e ∈ entities, _ → _))

theorem unmatched_of_bestMatch {entities : List Entity} {server : Shot} {seen : Tick}
    {policy : MatchPolicy} (h : bestMatch entities server seen policy = none) :
    Unmatched entities server seen policy := by
  intro e he hn
  rw [bestMatch, firstLeast_eq_none, List.filter_eq_nil_iff] at h
  obtain ⟨i, hi⟩ := List.mem_iff_getElem?.mp he
  have := h (e, i) (List.mk_mem_zipIdx_iff_getElem?.mpr hi)
  simpa [hn] using this

theorem split_of_findTracked {entities : List Entity} {id : EntityId} {place : Entity × Nat}
    (h : findTracked entities id = some place) :
    place.1.serverId = some id ∧ ∃ before after, entities = before ++ place.1 :: after ∧
      ∀ e, entities.set place.2 e = before ++ e :: after := by
  have hid := List.find?_some h
  exact ⟨by simpa using hid, split_of_place (List.mem_of_find?_eq_some h)⟩

theorem not_mem_of_findTracked {entities : List Entity} {id : EntityId}
    (h : findTracked entities id = none) : id ∉ serverIds entities := by
  intro hm
  obtain ⟨e, he, hid⟩ := mem_serverIds.mp hm
  obtain ⟨i, hi⟩ := List.mem_iff_getElem?.mp he
  have := List.find?_eq_none.mp h (e, i) (List.mk_mem_zipIdx_iff_getElem?.mpr hi)
  simp [hid] at this

/-! ### A record -/

/-- The ways in which a record is taken into a world `w`, and what becomes of the world and
the report. -/
inductive Taken (policy : MatchPolicy) (seen : Tick) (item : SnapshotItem) (w : World)
    (r : ReconcileReport) : World × ReconcileReport → Prop where
  /-- A live entity carries the number. -/
  | adopted (before : List Entity) (e : Entity) (after : List Entity)
      (split : w.live = before ++ e :: after) (carries : e.serverId = some item.id) :
      Taken policy seen item w r
        ({ w with live := before ++
            { e with
              serverId := some item.id
              shot := (w.settle policy seen item.record e.shot).1 } :: after },
          { r with
            adopted := r.adopted + 1
            replaced := r.replaced + (w.settle policy seen item.record e.shot).2.toNat })
  /-- A retired entity carries the number. -/
  | suppressed (flown : item.id ∉ serverIds w.live) (carried : item.id ∈ serverIds w.retired) :
      Taken policy seen item w r (w, { r with suppressed := r.suppressed + 1 })
  /-- A live prediction is claimed. -/
  | claimed (before : List Entity) (e : Entity) (after : List Entity) (new : item.id ∉ w.tracked)
      (partner :
        Partner w.live (w.confirmed item.record seen none) seen policy before e after) :
      Taken policy seen item w r
        ({ w with live := before ++
            { e with
              serverId := some item.id
              shot := (w.settle policy seen item.record e.shot).1 } :: after },
          { r with
            claimed := r.claimed + 1
            replaced := r.replaced + (w.settle policy seen item.record e.shot).2.toNat })
  /-- A retired prediction is tagged. -/
  | tagged (before : List Entity) (e : Entity) (after : List Entity) (new : item.id ∉ w.tracked)
      (unclaimed : Unmatched w.live (w.confirmed item.record seen none) seen policy)
      (partner :
        Partner w.retired (w.confirmed item.record seen none) seen policy before e after) :
      Taken policy seen item w r
        ({ w with retired := before ++ { e with serverId := some item.id } :: after },
          { r with suppressed := r.suppressed + 1 })
  /-- The confirmed shot is added. -/
  | spawned (new : item.id ∉ w.tracked)
      (unclaimed : Unmatched w.live (w.confirmed item.record seen none) seen policy)
      (untagged : Unmatched w.retired (w.confirmed item.record seen none) seen policy) :
      Taken policy seen item w r
        (w.spawn seen item (w.confirmed item.record seen none),
          { r with spawned := r.spawned + 1 })

/-- A record is taken in one of the five ways. -/
theorem taken (policy : MatchPolicy) (seen : Tick) (item : SnapshotItem) (w : World)
    (r : ReconcileReport) : Taken policy seen item w r (takeRecord policy seen item (w, r)) := by
  unfold takeRecord
  simp only
  split
  · rename_i place hp
    obtain ⟨hid, before, after, hs, hset⟩ := split_of_findTracked hp
    simp only [pairLive, hset]
    exact .adopted before place.1 after hs hid
  · rename_i hp
    have hlive := not_mem_of_findTracked hp
    split
    · rename_i hr
      refine .suppressed hlive (mem_serverIds.mpr ?_)
      simpa using hr
    · rename_i hr
      have hnew : item.id ∉ w.tracked := by
        rw [tracked_eq, List.mem_append]
        rintro (hm | hm)
        · exact hlive hm
        · exact hr (by simpa [mem_serverIds] using hm)
      split
      · rename_i place hb
        obtain ⟨before, after, hpart, hset⟩ := partner_of_bestMatch hb
        simp only [pairLive, hset]
        exact .claimed before place.1 after hnew hpart
      · rename_i hb
        have hun := unmatched_of_bestMatch hb
        split
        · rename_i place hb'
          obtain ⟨before, after, hpart, hset⟩ := partner_of_bestMatch hb'
          simp only [pairRetired, hset]
          exact .tagged before place.1 after hnew hun hpart
        · rename_i hb'
          exact .spawned hnew hun (unmatched_of_bestMatch hb')

theorem serverIds_append (a b : List Entity) :
    serverIds (a ++ b) = serverIds a ++ serverIds b := List.filterMap_append

/-- A number is carried already and stays where it is, or is given to an entity that had
none. -/
theorem Taken.tracked_perm {policy : MatchPolicy} {seen : Tick} {item : SnapshotItem} {w : World}
    {r : ReconcileReport} {out : World × ReconcileReport} (h : Taken policy seen item w r out) :
    item.id ∈ w.tracked ∧ out.1.tracked.Perm w.tracked ∨
      item.id ∉ w.tracked ∧ out.1.tracked.Perm (item.id :: w.tracked) := by
  cases h with
  | adopted before e after split carries =>
    left
    simp only [tracked_eq, split]
    refine ⟨by simp [serverIds, carries], ?_⟩
    simp [serverIds, carries]
  | suppressed flown carried => exact Or.inl ⟨by simp [tracked_eq, carried], List.Perm.refl _⟩
  | claimed before e after new partner =>
    refine Or.inr ⟨new, ?_⟩
    simp only [tracked_eq, partner.split, serverIds_append]
    simp only [serverIds, List.filterMap_cons, partner.unpaired, List.append_assoc,
      List.cons_append]
    exact List.perm_middle
  | tagged before e after new unclaimed partner =>
    refine Or.inr ⟨new, ?_⟩
    simp only [tracked_eq, partner.split, serverIds_append]
    simp only [serverIds, List.filterMap_cons, partner.unpaired]
    rw [← List.append_assoc, ← List.append_assoc]
    exact List.perm_middle
  | spawned new unclaimed untagged =>
    refine Or.inr ⟨new, ?_⟩
    simp only [spawn, insert, tracked_eq, serverIds_append]
    simp only [serverIds, List.filterMap_cons, List.filterMap_nil, List.append_assoc,
      List.cons_append, List.nil_append]
    exact List.perm_middle

theorem Taken.mem_tracked {policy : MatchPolicy} {seen : Tick} {item : SnapshotItem} {w : World}
    {r : ReconcileReport} {out : World × ReconcileReport} (h : Taken policy seen item w r out)
    (id : EntityId) : id ∈ out.1.tracked ↔ id = item.id ∨ id ∈ w.tracked := by
  rcases h.tracked_perm with ⟨hm, hp⟩ | ⟨-, hp⟩
  · rw [hp.mem_iff]
    constructor
    · exact Or.inr
    · rintro (rfl | hid)
      · exact hm
      · exact hid
  · rw [hp.mem_iff, List.mem_cons]

theorem Taken.nodup_tracked {policy : MatchPolicy} {seen : Tick} {item : SnapshotItem} {w : World}
    {r : ReconcileReport} {out : World × ReconcileReport} (h : Taken policy seen item w r out)
    (hn : w.tracked.Nodup) : out.1.tracked.Nodup := by
  rcases h.tracked_perm with ⟨-, hp⟩ | ⟨hm, hp⟩
  · exact hp.nodup_iff.mpr hn
  · exact hp.nodup_iff.mpr (List.nodup_cons.mpr ⟨hm, hn⟩)

/-- A record adds at most one entity. -/
theorem Taken.length_roster {policy : MatchPolicy} {seen : Tick} {item : SnapshotItem} {w : World}
    {r : ReconcileReport} {out : World × ReconcileReport} (h : Taken policy seen item w r out) :
    out.1.roster.length ≤ w.roster.length + 1 := by
  cases h with
  | adopted before e after split carries => simp [roster, split]
  | suppressed flown carried => exact Nat.le_succ _
  | claimed before e after new partner => simp [roster, partner.split]
  | tagged before e after new unclaimed partner => simp [roster, partner.split]
  | spawned new unclaimed untagged => simp [roster, spawn, insert]; omega

/-! ### All records -/

/-- What every record keeps, all records keep. -/
theorem takeRecords_induction {policy : MatchPolicy} {s : Snapshot}
    {P : World × ReconcileReport → Prop}
    (step : ∀ item ∈ s.items, ∀ w r out, P (w, r) → Taken policy s.tick item w r out → P out)
    {start : World × ReconcileReport} (h : P start) : P (takeRecords policy s start) := by
  unfold takeRecords
  generalize s.items = items at step
  induction items generalizing start with
  | nil => exact h
  | cons item rest ih =>
    have h1 := step item List.mem_cons_self start.1 start.2 _ h (taken ..)
    exact ih h1 fun i hi => step i (List.mem_cons_of_mem _ hi)

/-- After all records a world carries the listed numbers beside its own. -/
theorem mem_tracked_takeRecords (policy : MatchPolicy) (s : Snapshot)
    (start : World × ReconcileReport) (id : EntityId) :
    id ∈ (takeRecords policy s start).1.tracked ↔ s.lists id = true ∨ id ∈ start.1.tracked := by
  unfold takeRecords Snapshot.lists
  generalize s.items = items
  induction items generalizing start with
  | nil => simp
  | cons item rest ih =>
    rw [List.foldl_cons, ih, (taken policy s.tick item start.1 start.2).mem_tracked]
    simp only [List.any_cons, Bool.or_eq_true, decide_eq_true_eq, eq_comm (a := id)]
    tauto

theorem nodup_tracked_takeRecords {policy : MatchPolicy} {s : Snapshot}
    {start : World × ReconcileReport} (h : start.1.tracked.Nodup) :
    (takeRecords policy s start).1.tracked.Nodup :=
  takeRecords_induction (P := fun out => out.1.tracked.Nodup)
    (fun _ _ _ _ _ hn ht => ht.nodup_tracked hn) h

theorem length_roster_takeRecords (policy : MatchPolicy) (s : Snapshot)
    (start : World × ReconcileReport) :
    (takeRecords policy s start).1.roster.length ≤ start.1.roster.length + s.items.length := by
  unfold takeRecords
  generalize s.items = items
  induction items generalizing start with
  | nil => simp
  | cons item rest ih =>
    obtain ⟨w, r⟩ := start
    have h1 := (taken policy s.tick item w r).length_roster
    have h2 := ih (takeRecord policy s.tick item (w, r))
    simp only [List.foldl_cons, List.length_cons] at h1 h2 ⊢
    omega

/-! ### What goes and what stays -/

/-- The server no longer lists the entity, or should have confirmed it. -/
def gone (policy : MatchPolicy) (s : Snapshot) (e : Entity) : Bool :=
  isDropped s e || isDiscarded policy s e

theorem gone_of_serverId {policy : MatchPolicy} {s : Snapshot} {e : Entity} {id : EntityId}
    (h : e.serverId = some id) : gone policy s e = !s.lists id := by
  simp [gone, isDropped, isDiscarded, h]

theorem gone_of_unpaired {policy : MatchPolicy} {s : Snapshot} {e : Entity}
    (h : e.serverId = none) : gone policy s e = decide (e.shot.startTick < horizon policy s) := by
  simp [gone, isDropped, isDiscarded, h]

/-- The world with all records taken, before anything is put away. -/
def withRecords (w : World) (s : Snapshot) (policy : MatchPolicy) : World :=
  (takeRecords policy s (w, { tick := s.tick, confirmed := s.items.length })).1

/-- What is gone is marked for removal. -/
def markGone (policy : MatchPolicy) (s : Snapshot) (e : Entity) : Entity :=
  if gone policy s e then { e with shot := e.shot.remove } else e

theorem gone_markGone (policy : MatchPolicy) (s : Snapshot) (e : Entity) :
    gone policy s (markGone policy s e) = gone policy s e := by
  unfold markGone
  split <;> rfl

theorem expire_world (policy : MatchPolicy) (s : Snapshot) (state : World × ReconcileReport) :
    (expire policy s state).1 = { state.1 with live := state.1.live.map (markGone policy s) } := rfl

theorem filter_map_markGone (policy : MatchPolicy) (s : Snapshot) (entities : List Entity) :
    (entities.map (markGone policy s)).filter (!gone policy s ·) =
      entities.filter (!gone policy s ·) := by
  induction entities with
  | nil => rfl
  | cons e rest ih =>
    rw [List.map_cons, List.filter_cons, List.filter_cons, gone_markGone, ih]
    by_cases hg : gone policy s e <;> simp [hg, markGone]

/-- The world with all records taken and what is gone marked for removal. -/
def marked (w : World) (s : Snapshot) (policy : MatchPolicy) : World :=
  { w.withRecords s policy with
    live := (w.withRecords s policy).live.map (markGone policy s) }

theorem reconcile_world (w : World) (s : Snapshot) (policy : MatchPolicy) :
    (w.reconcile s policy).2 = prune policy s (w.marked s policy).sweep := by
  rw [marked, withRecords, ← expire_world, reconcile]

theorem reconcile_live (w : World) (s : Snapshot) (policy : MatchPolicy) :
    (w.reconcile s policy).2.live = (w.marked s policy).sweep.live := by
  rw [reconcile_world]
  rfl

theorem not_removed_of_mem_sweep {w : World} {e : Entity} (h : e ∈ w.sweep.live) :
    e.shot.removed = false := by
  simpa using (List.mem_filter.mp h).2

/-- What is gone is put away, and then forgotten. -/
theorem reconcile_roster (w : World) (s : Snapshot) (policy : MatchPolicy) :
    (w.reconcile s policy).2.roster =
      (w.marked s policy).sweep.roster.filter (!gone policy s ·) := by
  have hlive : (w.marked s policy).sweep.live.filter (!gone policy s ·) =
      (w.marked s policy).sweep.live := by
    refine List.filter_eq_self.mpr fun e he => ?_
    have hr := not_removed_of_mem_sweep he
    obtain ⟨e0, -, rfl⟩ := List.mem_map.mp (List.mem_filter.mp he).1
    by_contra hg
    rw [Bool.not_eq_true', Bool.not_eq_false, gone_markGone] at hg
    simp [markGone, hg, Shot.remove] at hr
  rw [roster, roster, List.filter_append, hlive, reconcile_world]
  simp only [prune, gone]

/-! ### What is put away -/

theorem keepLatest_of_le {entities : List Entity} (h : entities.length ≤ retiredCapacity) :
    keepLatest entities = entities := by
  simp [keepLatest, Nat.sub_eq_zero_of_le h]

theorem keepLatest_sublist (entities : List Entity) : (keepLatest entities).Sublist entities :=
  List.drop_sublist _ _

theorem perm_of_swept (live retired : List Entity) :
    (live.filter (!·.shot.removed) ++ (retired ++ live.filter (·.shot.removed))).Perm
      (live ++ retired) := by
  have hsplit := List.filter_append_perm (fun e : Entity => e.shot.removed) live
  refine List.Perm.trans ?_ (hsplit.append_right retired)
  rw [← List.append_assoc, List.append_assoc (live.filter (·.shot.removed))]
  exact List.perm_append_comm

/-- The retired list has room for what is put away. -/
def SweepFits (w : World) : Prop := w.retired.length + w.removedCount ≤ retiredCapacity

instance (w : World) : Decidable w.SweepFits := inferInstanceAs (Decidable (_ ≤ _))

/-- Nothing is lost by putting away, if the retired list has room. -/
theorem sweep_perm {w : World} (h : w.SweepFits) : w.sweep.roster.Perm w.roster := by
  simp only [sweep, roster]
  rw [keepLatest_of_le]
  · exact perm_of_swept _ _
  · rw [List.length_append, ← List.countP_eq_length_filter]
    exact h

theorem sweep_subperm (w : World) : w.sweep.roster.Subperm w.roster := by
  have hsub := keepLatest_sublist (w.retired ++ w.live.filter (·.shot.removed))
  have hall := (hsub.append_left (w.live.filter (!·.shot.removed))).subperm
  simp only [sweep, roster]
  exact hall.trans (perm_of_swept w.live w.retired).subperm

/-- The retired list has room for what a snapshot puts away. -/
def ReconcileFits (w : World) (s : Snapshot) (policy : MatchPolicy) : Prop :=
  (w.marked s policy).SweepFits

instance (w : World) (s : Snapshot) (policy : MatchPolicy) :
    Decidable (w.ReconcileFits s policy) := inferInstanceAs (Decidable (SweepFits _))

theorem marked_roster (w : World) (s : Snapshot) (policy : MatchPolicy) :
    (w.marked s policy).roster.filter (!gone policy s ·) =
      (w.withRecords s policy).roster.filter (!gone policy s ·) := by
  simp only [roster, marked, List.filter_append, filter_map_markGone]

/-- **What stays after a snapshot.** Everything but what is gone, if the retired list has
room. -/
theorem reconcile_roster_perm {w : World} {s : Snapshot} {policy : MatchPolicy}
    (fits : w.ReconcileFits s policy) :
    (w.reconcile s policy).2.roster.Perm
      ((w.withRecords s policy).roster.filter (!gone policy s ·)) := by
  rw [reconcile_roster, ← marked_roster]
  exact (sweep_perm fits).filter _

/-- Nothing stays that is gone, whether or not the retired list has room. -/
theorem reconcile_roster_subperm (w : World) (s : Snapshot) (policy : MatchPolicy) :
    (w.reconcile s policy).2.roster.Subperm
      ((w.withRecords s policy).roster.filter (!gone policy s ·)) := by
  rw [reconcile_roster, ← marked_roster]
  exact (sweep_subperm _).filter _

theorem reconcileFits_of_room {w : World} {s : Snapshot} (policy : MatchPolicy)
    (room : w.live.length + w.retired.length + s.items.length ≤ retiredCapacity) :
    w.ReconcileFits s policy := by
  have hlen := length_roster_takeRecords policy s
    (w, { tick := s.tick, confirmed := s.items.length })
  have hcount : (w.marked s policy).removedCount ≤ (w.marked s policy).live.length :=
    List.countP_le_length
  simp only [roster, List.length_append] at hlen
  simp only [marked, List.length_map] at hcount
  simp only [ReconcileFits, SweepFits, marked]
  unfold withRecords at hcount ⊢
  omega

theorem serverIds_subperm {a b : List Entity} (h : a.Subperm b) :
    (serverIds a).Subperm (serverIds b) := by
  obtain ⟨l, hp, hs⟩ := h
  exact ⟨serverIds l, hp.filterMap _, hs.filterMap _⟩

/-- No number is carried twice after a snapshot. -/
theorem nodup_tracked_reconcile {w : World} (h : w.tracked.Nodup) (s : Snapshot)
    (policy : MatchPolicy) : (w.reconcile s policy).2.tracked.Nodup := by
  have h1 : (w.withRecords s policy).tracked.Nodup := nodup_tracked_takeRecords h
  have h2 := serverIds_subperm ((reconcile_roster_subperm w s policy).trans
    List.filter_sublist.subperm)
  obtain ⟨l, hp, hs⟩ := h2
  exact hp.nodup_iff.mp (h1.sublist hs)

theorem not_gone_of_mem_reconcile {w : World} {s : Snapshot} {policy : MatchPolicy} {e : Entity}
    (h : e ∈ (w.reconcile s policy).2.roster) :
    e ∈ (w.withRecords s policy).roster ∧ gone policy s e = false := by
  have := (reconcile_roster_subperm w s policy).subset h
  simpa [List.mem_filter] using this

theorem mem_tracked_reconcile {w : World} {s : Snapshot} {policy : MatchPolicy}
    (fits : w.ReconcileFits s policy) (id : EntityId) :
    id ∈ (w.reconcile s policy).2.tracked ↔ s.lists id = true := by
  rw [mem_tracked]
  constructor
  · rintro ⟨e, he, hid⟩
    have hg := (not_gone_of_mem_reconcile he).2
    simpa [gone_of_serverId hid] using hg
  · intro hl
    have hm : id ∈ (w.withRecords s policy).tracked :=
      (mem_tracked_takeRecords policy s _ id).mpr (Or.inl hl)
    obtain ⟨e, he, hid⟩ := mem_tracked.mp hm
    refine ⟨e, (reconcile_roster_perm fits).mem_iff.mpr (List.mem_filter.mpr ⟨he, ?_⟩), hid⟩
    simp [gone_of_serverId hid, hl]

/-- **A snapshot decides what a world tracks.** Every listed number is carried by exactly one
entity, no other number is carried, an unpaired entity is young enough to be confirmed yet,
and what is in flight has not ended. The numbers that were carried before have no part in
it. -/
theorem reconcile_pairs {w : World} {s : Snapshot} {policy : MatchPolicy}
    (distinct : w.tracked.Nodup)
    (room : w.live.length + w.retired.length + s.items.length ≤ retiredCapacity) :
    (∀ id, s.lists id = true →
      (w.reconcile s policy).2.roster.countP (fun e => e.serverId = some id) = 1) ∧
    (∀ e ∈ (w.reconcile s policy).2.roster, ∀ id, e.serverId = some id → s.lists id = true) ∧
    (∀ e ∈ (w.reconcile s policy).2.roster, e.serverId = none →
      s.tick.minus policy.tickWindow.atLeastZero ≤ e.shot.startTick) ∧
    (∀ e ∈ (w.reconcile s policy).2.live, e.shot.removed = false) ∧
    ∀ id, id ∈ (w.reconcile s policy).2.tracked ↔ s.lists id = true := by
  have htracked := mem_tracked_reconcile (reconcileFits_of_room policy room)
  refine ⟨fun id hl => ?_, fun e he id hid => ?_, fun e he hn => ?_, fun e he => ?_, htracked⟩
  · rw [countP_carries]
    exact List.count_eq_one_of_mem (nodup_tracked_reconcile distinct s policy)
      ((htracked id).mpr hl)
  · exact (htracked id).mp (mem_tracked.mpr ⟨e, he, hid⟩)
  · have hg := (not_gone_of_mem_reconcile he).2
    rw [gone_of_unpaired hn] at hg
    exact Int32.not_lt.mp (of_decide_eq_false hg)
  · rw [reconcile_live] at he
    exact not_removed_of_mem_sweep he

/-- A world that tracks 4 and 5 and a snapshot that lists 7 twice, and 4. -/
theorem reconcile_pairs_repeated :
    let w := (((World.new .standard .openSpace).addConfirmed ⟨4⟩ default 0).2.addConfirmed
      ⟨5⟩ default 0).2
    let s : Snapshot := { tick := 1, items := [⟨⟨7⟩, default⟩, ⟨⟨7⟩, default⟩, ⟨⟨4⟩, default⟩] }
    w.tracked.Nodup ∧ w.live.length + w.retired.length + s.items.length ≤ retiredCapacity ∧
      (w.reconcile s {}).2.roster.countP (fun e => e.serverId = some ⟨7⟩) = 1 ∧
      ⟨5⟩ ∉ (w.reconcile s {}).2.tracked := by
  intro w s
  have distinct : w.tracked.Nodup := by decide
  have room : w.live.length + w.retired.length + s.items.length ≤ retiredCapacity := by decide
  obtain ⟨once, -, -, -, tracked⟩ := @reconcile_pairs w s {} distinct room
  exact ⟨distinct, room, once ⟨7⟩ (by decide), fun h => absurd ((tracked ⟨5⟩).mp h) (by decide)⟩

end World

end Volley
