/-
# Local numbers

Every entity that a world creates gets the next local number. `Passage w w' n` says what
any operation on a world does to numbers, from `w` to `w'` with `n` new entities: an entity
of `w'` is either new or stood in `w` under the same local number, and then it still carries
the number of the server that it carried there; and one in flight was in flight before, if
it is not new. Operations compose (`Passage.trans`), so a whole run is a passage.

Numbers are 64 bit words. Up to 2⁶⁴ - 1 creations they are all different (`Numbered`), and
an entity is known by its number for as long as it stays (`Passage.continues`).

Key definitions: `Entity.Continues`, `World.fresh`, `World.Passage`, `World.Numbered`,
`World.mirrored`.
Key theorems: `World.Passage.trans`, `World.Passage.numbered`, `World.Passage.continues`,
`World.passage_step`, `World.passage_reconcile`, `World.replaceAll_eq`,
`World.passage_replaceAll`.
-/
import Volley.Client
import Volley.Proofs.Shot.Past
import Volley.Proofs.World.Pairing

namespace Volley

/-- `e'` has the local number of `e`, and carries the number of the server that `e` carried,
if it carried one. -/
def Entity.Continues (e' e : Entity) : Prop :=
  e'.id = e.id ∧ ∀ s, e.serverId = some s → e'.serverId = some s

/-- An entity keeps its number of the server, or is given one if it had none. -/
theorem Entity.continues_paired (e : Entity) (id : EntityId)
    (h : e.serverId = none ∨ e.serverId = some id) (shot : Shot) :
    Entity.Continues { e with serverId := some id, shot } e := by
  refine ⟨rfl, fun s hs => ?_⟩
  rcases h with h | h
  · rw [h] at hs
    exact absurd hs (by simp)
  · exact h.symm.trans hs

namespace World

/-- The numbers of the next `n` entities. -/
def fresh (next : UInt64) (n : Nat) : List EntityId :=
  (List.range n).map fun k => ⟨next + UInt64.ofNat k⟩

theorem fresh_add (next : UInt64) (n m : Nat) :
    fresh next (n + m) = fresh next n ++ fresh (next + UInt64.ofNat n) m := by
  simp [fresh, List.range_add, UInt64.add_assoc, Function.comp_def, UInt64.ofNat_add]

theorem fresh_one (next : UInt64) : fresh next 1 = [⟨next⟩] := by simp [fresh]

/-- The numbers of some entities. -/
def ids (entities : List Entity) : List EntityId := entities.map (·.id)

/-- What an operation with `n` new entities does to the numbers of a world. -/
structure Passage (w w' : World) (n : Nat) : Prop where
  nextId : w'.nextId = w.nextId + UInt64.ofNat n
  ids : (ids w'.roster).Subperm (ids w.roster ++ fresh w.nextId n)
  origin : ∀ e' ∈ w'.roster,
    e'.id ∈ fresh w.nextId n ∨ ∃ e ∈ w.roster, e'.Continues e
  flying : ∀ id ∈ World.ids w'.live, id ∈ fresh w.nextId n ∨ id ∈ World.ids w.live

namespace Passage

variable {w w' w'' : World} {n m : Nat}

theorem refl (w : World) : Passage w w 0 where
  nextId := by simp
  ids := by simpa [fresh] using List.Subperm.refl _
  origin e he := Or.inr ⟨e, he, rfl, fun _ h => h⟩
  flying _ h := Or.inr h

theorem trans (a : Passage w w' n) (b : Passage w' w'' m) : Passage w w'' (n + m) where
  nextId := by rw [b.nextId, a.nextId, UInt64.ofNat_add, UInt64.add_assoc]
  ids := by
    rw [fresh_add, ← List.append_assoc, ← a.nextId]
    exact b.ids.trans ((List.subperm_append_right _).mpr a.ids)
  origin e'' he'' := by
    rw [fresh_add, ← a.nextId, List.mem_append]
    rcases b.origin e'' he'' with hf | ⟨e', he', hid', hsid'⟩
    · exact Or.inl (Or.inr hf)
    rcases a.origin e' he' with hf | ⟨e, he, hid, hsid⟩
    · exact Or.inl (Or.inl (hid' ▸ hf))
    · exact Or.inr ⟨e, he, hid'.trans hid, fun s hs => hsid' s (hsid s hs)⟩
  flying id hid := by
    rw [fresh_add, ← a.nextId, List.mem_append]
    rcases b.flying id hid with hf | hid
    · exact Or.inl (Or.inr hf)
    rcases a.flying id hid with hf | hid
    · exact Or.inl (Or.inl hf)
    · exact Or.inr hid

/-- An operation that only moves and removes entities. -/
theorem of_subperm (hnext : w'.nextId = w.nextId) (h : w'.roster.Subperm w.roster)
    (hlive : World.ids w'.live ⊆ World.ids w.live) : Passage w w' 0 where
  nextId := by simp [hnext]
  ids := by
    obtain ⟨l, hp, hs⟩ := h
    simpa [fresh] using ⟨_, hp.map _, hs.map _⟩
  origin e he := Or.inr ⟨e, h.subset he, rfl, fun _ hs => hs⟩
  flying _ hid := Or.inr (hlive hid)

end Passage

/-! ### Different numbers -/

theorem toNat_add_ofNat {next : UInt64} {k n : Nat} (hk : k < n)
    (h : next.toNat + n ≤ UInt64.size) : (next + UInt64.ofNat k).toNat = next.toNat + k := by
  have hs : UInt64.size = 2 ^ 64 := rfl
  rw [UInt64.toNat_add, UInt64.toNat_ofNat', Nat.mod_eq_of_lt (a := k) (by omega),
    Nat.mod_eq_of_lt (by omega)]

theorem mem_fresh {next : UInt64} {n : Nat} (h : next.toNat + n ≤ UInt64.size) {id : EntityId}
    (hid : id ∈ fresh next n) :
    next.toNat ≤ id.val.toNat ∧ id.val.toNat < next.toNat + n := by
  obtain ⟨k, hk, rfl⟩ := List.mem_map.mp hid
  have hk := List.mem_range.mp hk
  simp only [toNat_add_ofNat hk h]
  omega

theorem nodup_fresh {next : UInt64} {n : Nat} (h : next.toNat + n ≤ UInt64.size) :
    (fresh next n).Nodup := by
  refine List.Nodup.map_on (fun a ha b hb hab => ?_) List.nodup_range
  have ha := toNat_add_ofNat (List.mem_range.mp ha) h
  have hb := toNat_add_ofNat (List.mem_range.mp hb) h
  have := congrArg (fun id : EntityId => id.val.toNat) hab
  simp only [ha, hb] at this
  omega

/-- All entities have different numbers, and each of them has been given out. -/
structure Numbered (w : World) : Prop where
  nodup : (ids w.roster).Nodup
  below : ∀ id ∈ ids w.roster, id.val.toNat < w.nextId.toNat

instance (w : World) : Decidable (Numbered w) :=
  decidable_of_iff ((ids w.roster).Nodup ∧ ∀ id ∈ ids w.roster, id.val.toNat < w.nextId.toNat)
    ⟨fun ⟨nodup, below⟩ => ⟨nodup, below⟩, fun h => ⟨h.nodup, h.below⟩⟩

theorem Numbered.below_live {w : World} (h : Numbered w) {id : EntityId} (hid : id ∈ ids w.live) :
    id.val.toNat < w.nextId.toNat := by
  refine h.below id ?_
  rw [roster, ids, List.map_append]
  exact List.mem_append_left _ hid

theorem Numbered.nodup_live {w : World} (h : Numbered w) : (ids w.live).Nodup := by
  have hn := h.nodup
  rw [roster, ids, List.map_append] at hn
  exact hn.of_append_left

namespace Passage

variable {w w' : World} {n : Nat}

theorem toNat_nextId (p : Passage w w' n) (h : w.nextId.toNat + n < UInt64.size) :
    w'.nextId.toNat = w.nextId.toNat + n := by
  rw [p.nextId]
  exact toNat_add_ofNat (Nat.lt_succ_self n) h

/-- Numbers stay different as long as they do not run out. -/
theorem numbered (p : Passage w w' n) (hw : Numbered w)
    (h : w.nextId.toNat + n < UInt64.size) : Numbered w' where
  nodup := by
    obtain ⟨l, hp, hs⟩ := p.ids
    refine hp.nodup_iff.mp (List.Nodup.sublist hs ?_)
    refine List.Nodup.append hw.nodup (nodup_fresh (Nat.le_of_lt h)) fun id hid hf => ?_
    have h1 := hw.below id hid
    have h2 := (mem_fresh (Nat.le_of_lt h) hf).1
    omega
  below id hid := by
    rw [p.toNat_nextId h]
    rcases List.mem_append.mp (p.ids.subset hid) with ho | hf
    · have := hw.below id ho
      omega
    · exact (mem_fresh (Nat.le_of_lt h) hf).2

/-- The entity that has a number already given out is an old one. -/
theorem continues (p : Passage w w' n) (hw : Numbered w)
    (h : w.nextId.toNat + n < UInt64.size) {e e' : Entity} (he : e ∈ w.roster)
    (he' : e' ∈ w'.roster) (hid : e'.id = e.id) : e'.Continues e := by
  rcases p.origin e' he' with hf | ⟨e0, he0, hc⟩
  · have h1 := hw.below e.id (List.mem_map_of_mem he)
    have h2 := (mem_fresh (Nat.le_of_lt h) hf).1
    rw [hid] at h2
    omega
  · have := List.inj_on_of_nodup_map hw.nodup he0 he (hc.1.symm.trans hid)
    exact this ▸ hc

end Passage

/-! ### The operations -/

theorem passage_insert (w : World) (serverId : Option EntityId) (shot : Shot) :
    Passage w (w.insert serverId shot).2 1 where
  nextId := rfl
  ids := by
    rw [fresh_one]
    refine List.Perm.subperm ?_
    simp only [insert, roster, ids, List.map_append, List.map_cons, List.map_nil,
      List.append_assoc]
    exact List.Perm.append_left _ List.perm_append_comm
  origin e he := by
    simp only [insert, roster, List.append_assoc, List.mem_append, List.mem_singleton] at he
    rw [fresh_one]
    rcases he with he | rfl | he
    · exact Or.inr ⟨e, List.mem_append_left _ he, rfl, fun _ hs => hs⟩
    · exact Or.inl (List.mem_singleton.mpr rfl)
    · exact Or.inr ⟨e, List.mem_append_right _ he, rfl, fun _ hs => hs⟩
  flying id hid := by
    simp only [insert, ids, List.map_append, List.map_cons, List.map_nil, List.mem_append] at hid
    rw [fresh_one]
    exact hid.symm

theorem passage_fire (w : World) (l : Launch) : Passage w (w.fire l).2 1 := passage_insert ..

theorem passage_setTick (w : World) (t : Tick) : Passage w (w.setTick t) 0 :=
  .of_subperm rfl (List.Subperm.refl _) (List.Subset.refl _)

/-- The world after a tick, before anything is put away. -/
def moved (w : World) : World :=
  { w with
    tick := w.tick.next
    live := (advanceAll (w.contextAt w.tick.next) w.live).map Prod.fst
    effects := w.effects.pushImpacts
      (((advanceAll (w.contextAt w.tick.next) w.live).map Prod.snd).filterMap Outcome.impact?) }

theorem step_world (w : World) : w.step.2 = w.moved.sweep := rfl

/-- An entity after a tick. -/
def advanced (ctx : TickContext) (e : Entity) : Entity := { e with shot := (e.shot.advance ctx).1 }

theorem moved_live (w : World) :
    w.moved.live = w.live.map (advanced (w.contextAt w.tick.next)) := by
  simp only [moved, advanceAll, List.map_map]
  rfl

theorem ids_map_advanced (ctx : TickContext) (entities : List Entity) :
    ids (entities.map (advanced ctx)) = ids entities := by
  simp [ids, advanced, Function.comp_def]

theorem passage_moved (w : World) : Passage w w.moved 0 where
  nextId := by simp [moved]
  ids := by
    have hids : ids w.moved.roster = ids w.roster := by
      have := ids_map_advanced (w.contextAt w.tick.next) w.live
      simp only [roster, moved_live, ids, List.map_append] at this ⊢
      rw [this]
      rfl
    rw [hids]
    simpa [fresh] using List.Subperm.refl _
  origin e he := by
    rw [roster, moved_live, List.mem_append, List.mem_map] at he
    rcases he with ⟨e0, he0, rfl⟩ | he
    · exact Or.inr ⟨e0, List.mem_append_left _ he0, rfl, fun _ hs => hs⟩
    · exact Or.inr ⟨e, List.mem_append_right _ he, rfl, fun _ hs => hs⟩
  flying id hid := by
    rw [moved_live, ids_map_advanced] at hid
    exact Or.inr hid

theorem ids_sweep_live (w : World) : ids w.sweep.live ⊆ ids w.live :=
  List.map_subset _ List.filter_sublist.subset

theorem passage_step (w : World) : Passage w w.step.2 0 := by
  rw [step_world]
  have hsweep : Passage w.moved w.moved.sweep 0 :=
    .of_subperm rfl (sweep_subperm w.moved) (ids_sweep_live w.moved)
  exact (passage_moved w).trans hsweep

/-- The world after `n` steps. -/
def steps : Nat → World → World
  | 0, w => w
  | n + 1, w => steps n w.step.2

theorem passage_steps (n : Nat) (w : World) : Passage w (w.steps n) 0 := by
  induction n generalizing w with
  | zero => exact .refl w
  | succ n ih => exact (passage_step w).trans (ih w.step.2)

theorem tick_steps {w : World} {n : Nat} (room : w.tick.toInt + n ≤ Int32.maxValue.toInt) :
    (w.steps n).tick.toInt = w.tick.toInt + n := by
  induction n generalizing w with
  | zero => exact (Int.add_zero _).symm
  | succ n ih =>
    have hmax : w.tick < Int32.maxValue := by
      rw [Int32.lt_iff_toInt_lt]
      omega
    have hnext : w.step.2.tick.toInt = w.tick.toInt + 1 := Tick.toInt_next hmax
    have hrest := ih (w := w.step.2) (by omega)
    have hsteps : w.steps (n + 1) = w.step.2.steps n := rfl
    rw [hsteps, hrest, hnext]
    omega

/-- An entity changes in its place, continuing itself. -/
theorem Passage.of_place {w w' : World} {e e' : Entity} (before after : List Entity)
    (hnext : w'.nextId = w.nextId) (hw : w.roster = before ++ e :: after)
    (hw' : w'.roster = before ++ e' :: after) (hc : e'.Continues e)
    (hlive : World.ids w'.live = World.ids w.live) : Passage w w' 0 where
  nextId := by simp [hnext]
  ids := by
    have hids : World.ids w'.roster = World.ids w.roster := by
      simp [World.ids, hw, hw', hc.1]
    rw [hids]
    simpa [fresh] using List.Subperm.refl _
  origin x hx := by
    rw [hw', List.mem_append, List.mem_cons] at hx
    rw [hw]
    rcases hx with hx | rfl | hx
    · exact Or.inr ⟨x, List.mem_append_left _ hx, rfl, fun _ hs => hs⟩
    · exact Or.inr ⟨e, List.mem_append_right _ List.mem_cons_self, hc⟩
    · exact Or.inr ⟨x, List.mem_append_right _ (List.mem_cons_of_mem _ hx), rfl, fun _ hs => hs⟩
  flying _ hid := Or.inr (hlive ▸ hid)

/-- A record creates an entity exactly if its shot is added. -/
theorem Taken.passage {policy : MatchPolicy} {seen : Tick} {item : SnapshotItem} {w : World}
    {r : ReconcileReport} {out : World × ReconcileReport} (h : Taken policy seen item w r out) :
    ∃ n, out.2.spawned = r.spawned + n ∧ Passage w out.1 n := by
  cases h with
  | adopted before e after split carries =>
    refine ⟨0, rfl, .of_place before (after ++ w.retired) rfl
      (by rw [roster, split, List.append_assoc, List.cons_append]) ?_
      (e.continues_paired item.id (Or.inr carries) (w.settle policy seen item.record e.shot).1)
      (by simp [ids, split])⟩
    simp only [roster, List.append_assoc, List.cons_append]
  | suppressed flown carried => exact ⟨0, rfl, .refl w⟩
  | claimed before e after new partner =>
    refine ⟨0, rfl, .of_place before (after ++ w.retired) rfl
      (by rw [roster, partner.split, List.append_assoc, List.cons_append]) ?_
      (e.continues_paired item.id (Or.inl partner.unpaired)
        (w.settle policy seen item.record e.shot).1) (by simp [ids, partner.split])⟩
    simp only [roster, List.append_assoc, List.cons_append]
  | tagged before e after new unclaimed partner =>
    refine ⟨0, rfl, .of_place (w.live ++ before) after rfl
      (by rw [roster, partner.split, List.append_assoc]) ?_
      (e.continues_paired item.id (Or.inl partner.unpaired) e.shot) rfl⟩
    simp only [roster, List.append_assoc]
  | spawned new unclaimed untagged => exact ⟨1, rfl, passage_insert ..⟩

theorem passage_takeRecords (policy : MatchPolicy) (s : Snapshot)
    (start : World × ReconcileReport) :
    ∃ n, (takeRecords policy s start).2.spawned = start.2.spawned + n ∧
      Passage start.1 (takeRecords policy s start).1 n := by
  refine takeRecords_induction
    (P := fun out => ∃ n, out.2.spawned = start.2.spawned + n ∧ Passage start.1 out.1 n)
    (fun item _ w r out hw ht => ?_) ⟨0, rfl, .refl _⟩
  obtain ⟨n, hn, hp⟩ := hw
  obtain ⟨m, hm, hq⟩ := ht.passage
  simp only at hn
  exact ⟨n + m, by omega, hp.trans hq⟩

theorem ids_map_markGone (policy : MatchPolicy) (s : Snapshot) (entities : List Entity) :
    ids (entities.map (markGone policy s)) = ids entities := by
  rw [ids, List.map_map]
  refine List.map_congr_left fun e _ => ?_
  by_cases hg : gone policy s e <;> simp [markGone, hg]

/-- A snapshot creates the entities that its report counts. -/
theorem passage_reconcile (w : World) (s : Snapshot) (policy : MatchPolicy) :
    Passage w (w.reconcile s policy).2 (w.reconcile s policy).1.spawned := by
  obtain ⟨n, hn, hp⟩ := passage_takeRecords policy s
    (w, { tick := s.tick, confirmed := s.items.length })
  have hspawned : (w.reconcile s policy).1.spawned = n := by
    rw [← Nat.zero_add n]
    exact hn
  have hnext : (w.reconcile s policy).2.nextId = (w.withRecords s policy).nextId := by
    rw [reconcile_world]
    rfl
  have hlive : ids (w.reconcile s policy).2.live ⊆ ids (w.withRecords s policy).live := by
    rw [reconcile_live, ← ids_map_markGone policy s (w.withRecords s policy).live]
    exact ids_sweep_live (w.marked s policy)
  rw [hspawned]
  exact hp.trans (.of_subperm hnext ((reconcile_roster_subperm w s policy).trans
    List.filter_sublist.subperm) hlive)

/-- The shots of some records, numbered from `next`. -/
def mirrored (ctx : TickContext) : UInt64 → List SnapshotItem → List Entity
  | _, [] => []
  | next, item :: rest =>
    { id := ⟨next⟩, serverId := some item.id, shot := Shot.ofRecord ctx item.record } ::
      mirrored ctx (next + 1) rest

theorem ids_mirrored (ctx : TickContext) (next : UInt64) (items : List SnapshotItem) :
    ids (mirrored ctx next items) = fresh next items.length := by
  induction items generalizing next with
  | nil => rfl
  | cons item rest ih =>
    have hrest := ih (next + 1)
    rw [ids] at hrest
    rw [List.length_cons, Nat.add_comm, fresh_add, fresh_one, mirrored, ids, List.map_cons, hrest]
    rfl

theorem serverIds_mirrored (ctx : TickContext) (next : UInt64) (items : List SnapshotItem) :
    serverIds (mirrored ctx next items) = items.map (·.id) := by
  induction items generalizing next with
  | nil => rfl
  | cons item rest ih =>
    rw [List.map_cons, ← ih (next + 1)]
    rfl

/-- A world that replaces all its shots holds those of the snapshot, and nothing else. -/
theorem replaceAll_eq (w : World) (s : Snapshot) : Client.replaceAll w s =
    { w with
      tick := s.tick
      live := mirrored (w.contextAt s.tick) w.nextId s.items
      retired := []
      nextId := w.nextId + UInt64.ofNat s.items.length } := by
  have hadd : ∀ (items : List SnapshotItem) (v : World),
      items.foldl (fun w item => (w.addConfirmed item.id item.record s.tick).2) v =
        { v with
          live := v.live ++ mirrored (v.contextAt s.tick) v.nextId items
          nextId := v.nextId + UInt64.ofNat items.length } := by
    intro items
    induction items with
    | nil => intro v; simp [mirrored]
    | cons item rest ih =>
      intro v
      rw [List.foldl_cons, ih, List.length_cons, Nat.add_comm, UInt64.ofNat_add]
      simp only [addConfirmed, insert, mirrored, List.append_assoc, List.cons_append,
        List.nil_append, UInt64.add_assoc]
      rfl
  rw [Client.replaceAll, hadd]
  rfl

theorem passage_replaceAll (w : World) (s : Snapshot) :
    Passage w (Client.replaceAll w s) s.items.length := by
  have hids : ids (Client.replaceAll w s).live = fresh w.nextId s.items.length := by
    rw [replaceAll_eq]
    exact ids_mirrored ..
  have hroster : (Client.replaceAll w s).roster = (Client.replaceAll w s).live := by
    rw [replaceAll_eq]
    exact List.append_nil _
  constructor
  case nextId => rw [replaceAll_eq]
  case ids =>
    rw [hroster, hids]
    exact (List.sublist_append_right _ _).subperm
  case origin =>
    intro e he
    rw [hroster] at he
    rw [← hids]
    exact Or.inl (List.mem_map_of_mem he)
  case flying =>
    intro id hid
    rw [hids] at hid
    exact Or.inl hid

end World

end Volley
