/-
# A world stays in order

The numbers that a run gives out are collected where they are given out: to a shot that is
fired or added, to the shots that a snapshot adds, and to those of a mirrored one
(`World.given`). They are the numbers from 1 on, one after the other, whatever is dropped,
cleared or replaced meanwhile, and the live entities stand in the list of all of them in
their own order (`Issued`). As long as the numbers do not run out they ascend, so the live
ones do, and so do those of every snapshot (`play_orderly`).

The world of a client, whatever is done with the client, goes through such a run and gives
out as many numbers (`Client.world_play`).

Key definitions: `World.given`, `World.givenBy`, `World.Issues`, `World.Issued`,
`World.Ascending`.
Key theorems: `World.act_issues`, `World.Issued.play`, `World.play_orderly`,
`Client.world_play`.
-/
import Volley.Proofs.Client.Run
import Volley.Proofs.World.Accounts
import Volley.Proofs.World.Run

namespace Volley

namespace World

/-- The numbers that an operation gives out, in order. -/
def given (w : World) : Action → List EntityId
  | .fire l => [(w.fire l).1]
  | .addConfirmed serverId r seen => [(w.addConfirmed serverId r seen).1]
  | .reconcile s policy => (ids (w.withRecords s policy).live).drop w.live.length
  | .mirror s => ids (Client.replaceAll w s).live
  | _ => []

/-- The numbers that a run gives out, in order. -/
def givenBy : World → List Action → List EntityId := gather given

theorem length_fresh (next : UInt64) (n : Nat) : (fresh next n).length = n := by simp [fresh]

/-! ### One operation -/

/-- From `w` to `w'` the numbers `added` are given out, the next ones of `w`. Live entities keep
their order, with new ones behind the old ones. -/
structure Issues (w w' : World) (added : List EntityId) : Prop where
  passage : Passage w w' added.length
  next : added = fresh w.nextId added.length
  order : (ids w'.live).Sublist (ids w.live ++ added)

variable {w w' : World} {added : List EntityId}

/-- An operation that gives out no number. -/
theorem Issues.of_none (p : Passage w w' 0) (order : (ids w'.live).Sublist (ids w.live)) :
    Issues w w' [] where
  passage := p
  next := rfl
  order := by
    rw [List.append_nil]
    exact order

theorem issues_insert (w : World) (serverId : Option EntityId) (shot : Shot) :
    Issues w (w.insert serverId shot).2 [(w.insert serverId shot).1] where
  passage := passage_insert w serverId shot
  next := (fresh_one w.nextId).symm
  order := by
    have hlive : ids (w.insert serverId shot).2.live =
        ids w.live ++ [(w.insert serverId shot).1] := by
      simp [insert, ids]
    rw [hlive]

theorem issues_step (w : World) : Issues w w.step.2 [] := by
  refine .of_none (passage_step w) ?_
  have hswept : w.step.2.live.Sublist w.moved.live := List.filter_sublist
  have hids := hswept.map (·.id)
  rw [moved_live] at hids
  exact ids_map_advanced (w.contextAt w.tick.next) w.live ▸ hids

/-- A snapshot gives numbers to what its report counts as added. -/
theorem issues_reconcile (w : World) (s : Snapshot) (policy : MatchPolicy) :
    Issues w (w.reconcile s policy).2 (w.given (.reconcile s policy)) ∧
      (w.given (.reconcile s policy)).length = (w.reconcile s policy).1.spawned := by
  have framed := w.framed_withRecords s policy
  have hnew : w.given (.reconcile s policy) =
      fresh w.nextId (w.reconcile s policy).1.spawned := by
    show (ids (w.withRecords s policy).live).drop w.live.length = _
    rw [framed.ids]
    exact List.drop_left' (by rw [ids, List.length_map])
  have hcount : (w.given (.reconcile s policy)).length = (w.reconcile s policy).1.spawned := by
    rw [hnew, length_fresh]
  refine ⟨⟨?_, ?_, ?_⟩, hcount⟩
  · rw [hcount]
    exact passage_reconcile w s policy
  · rw [hcount]
    exact hnew
  · rw [hnew, ← framed.ids, reconcile_filter]
    exact List.filter_sublist.map _

theorem ids_replaceAll (w : World) (s : Snapshot) :
    ids (Client.replaceAll w s).live = fresh w.nextId s.items.length := by
  rw [replaceAll_eq]
  exact ids_mirrored ..

theorem issues_replaceAll (w : World) (s : Snapshot) :
    Issues w (Client.replaceAll w s) (ids (Client.replaceAll w s).live) := by
  have hcount : (ids (Client.replaceAll w s).live).length = s.items.length := by
    rw [ids_replaceAll, length_fresh]
  constructor
  case passage =>
    rw [hcount]
    exact passage_replaceAll w s
  case next =>
    rw [hcount]
    exact ids_replaceAll w s
  case order => exact List.sublist_append_right _ _

/-- Every operation gives out the next numbers. -/
theorem act_issues (w : World) (a : Action) : Issues w (w.act a) (w.given a) := by
  cases a with
  | fire l => exact issues_insert w none _
  | addConfirmed serverId r seen => exact issues_insert w (some serverId) _
  | step => exact issues_step w
  | setTick t => exact .of_none (passage_setTick w t) (List.Sublist.refl _)
  | reconcile s policy => exact (issues_reconcile w s policy).1
  | mirror s => exact issues_replaceAll w s
  | drain =>
    have hsame : Passage w w.drainImpacts.2 0 :=
      .of_subperm rfl (List.Subperm.refl _) (List.Subset.refl _)
    exact .of_none hsame (List.Sublist.refl _)
  | clear =>
    have hnone : Passage w w.clear 0 :=
      .of_subperm rfl (List.nil_subperm) (List.nil_subset _)
    exact .of_none hnone (List.nil_sublist _)

/-! ### A run -/

/-- The numbers `all` are the first ones that a new world gives out, and the entities of `w`
carry some of them, live ones in their order. -/
structure Issued (all : List EntityId) (w : World) : Prop where
  counted : all = fresh 1 all.length
  nextId : w.nextId = 1 + UInt64.ofNat all.length
  live : (ids w.live).Sublist all
  roster : (ids w.roster).Subperm all

theorem issued_new (cfg : Config) (terrain : Terrain) : Issued [] (new cfg terrain) where
  counted := rfl
  nextId := rfl
  live := List.Sublist.refl _
  roster := List.Subperm.refl _

theorem Issued.issues {all : List EntityId} (h : Issued all w) (i : Issues w w' added) :
    Issued (all ++ added) w' where
  counted := by
    have hnew := i.next
    rw [h.nextId] at hnew
    rw [List.length_append, fresh_add, ← hnew, ← h.counted]
  nextId := by
    rw [i.passage.nextId, h.nextId, List.length_append, UInt64.ofNat_add, UInt64.add_assoc]
  live := i.order.trans (h.live.append_right added)
  roster := by
    have hids := i.passage.ids
    rw [← i.next] at hids
    exact hids.trans ((List.subperm_append_right added).mpr h.roster)

theorem Issued.play {all : List EntityId} (h : Issued all w) (as : List Action) :
    Issued (all ++ w.givenBy as) (w.play as) := by
  induction as generalizing w all with
  | nil =>
    rw [givenBy, gather, List.append_nil]
    exact h
  | cons a as ih =>
    rw [givenBy, gather, ← List.append_assoc]
    exact ih (h.issues (act_issues w a))

/-- In whatever order, the operations give out the numbers from 1 on. -/
theorem issued_play (cfg : Config) (terrain : Terrain) (as : List Action) :
    Issued ((new cfg terrain).givenBy as) ((new cfg terrain).play as) :=
  (issued_new cfg terrain).play as

/-! ### The order of the numbers -/

/-- Every number is less than those behind it. -/
def Ascending (numbers : List EntityId) : Prop := numbers.Pairwise fun a b => a.val < b.val

instance (numbers : List EntityId) : Decidable (Ascending numbers) :=
  inferInstanceAs (Decidable (numbers.Pairwise _))

theorem Ascending.nodup {numbers : List EntityId} (h : Ascending numbers) : numbers.Nodup := by
  apply List.Pairwise.imp ?_ h
  intro a b hlt heq
  rw [heq] at hlt
  exact UInt64.lt_irrefl b.val hlt

theorem Ascending.sublist {numbers some : List EntityId} (h : Ascending numbers)
    (sub : some.Sublist numbers) : Ascending some :=
  List.Pairwise.sublist sub h

theorem ascending_fresh {next : UInt64} {n : Nat} (h : next.toNat + n ≤ UInt64.size) :
    Ascending (fresh next n) := by
  refine List.pairwise_map.mpr (List.pairwise_lt_range.imp_of_mem fun {j k} hj hk hjk => ?_)
  have hj' := toNat_add_ofNat (List.mem_range.mp hj) h
  have hk' := toNat_add_ofNat (List.mem_range.mp hk) h
  rw [UInt64.lt_iff_toNat_lt, hj', hk']
  omega

namespace Issued

variable {all : List EntityId}

theorem ascending (h : Issued all w) (room : (1 : UInt64).toNat + all.length < UInt64.size) :
    Ascending all := by
  rw [h.counted]
  exact ascending_fresh (Nat.le_of_lt room)

theorem nodup_roster (h : Issued all w)
    (room : (1 : UInt64).toNat + all.length < UInt64.size) : (ids w.roster).Nodup := by
  obtain ⟨l, hperm, hsub⟩ := h.roster
  exact hperm.nodup_iff.mp ((h.ascending room).nodup.sublist hsub)

/-- As long as the numbers do not run out, the next one is above all that were given out. -/
theorem below (h : Issued all w) (room : (1 : UInt64).toNat + all.length < UInt64.size)
    {id : EntityId} (hid : id ∈ all) : id.val < w.nextId := by
  rw [h.counted] at hid
  rw [UInt64.lt_iff_toNat_lt, h.nextId, toNat_add_ofNat (Nat.lt_succ_self _) room]
  exact (mem_fresh (Nat.le_of_lt room) hid).2

end Issued

theorem ids_snapshot (w : World) : w.snapshot.items.map (·.id) = ids w.live := by
  simp [snapshot, ids]

/-- **A world stays in order.** Whatever is done with a world, with fewer than 2⁶⁴ - 1 shots in
all: live entities ascend in their numbers, no two entities have the same number, and the next
one is above all of them. A number is given out once, also if the shots are cleared or replaced
by those of a snapshot. What is live is in flight, what is retired is not, and at most 256 are
retired. So a snapshot lists different numbers, in ascending order. -/
theorem play_orderly (cfg : Config) (terrain : Terrain) {as : List Action}
    (few : ((new cfg terrain).givenBy as).length < 2 ^ 64 - 1) :
    let w := (new cfg terrain).play as
    let all := (new cfg terrain).givenBy as
    Ascending (ids w.live) ∧
      (ids w.roster).Nodup ∧
      (∀ id ∈ ids w.roster, id.val < w.nextId) ∧
      (Ascending all ∧ all.Nodup ∧ ids w.roster ⊆ all) ∧
      (∀ e ∈ w.live, e.shot.removed = false) ∧
      (∀ e ∈ w.retired, e.shot.removed = true) ∧
      w.retired.length ≤ 256 ∧
      Ascending (w.snapshot.items.map (·.id)) ∧
      (w.snapshot.items.map (·.id)).Nodup := by
  intro w all
  have issued : Issued all w := issued_play cfg terrain as
  have tidy : Tidy w := tidy_play cfg terrain as
  have room : (1 : UInt64).toNat + all.length < UInt64.size := by
    have hone : (1 : UInt64).toNat = 1 := rfl
    have hsize : UInt64.size = 2 ^ 64 := rfl
    have hfew : all.length < 2 ^ 64 - 1 := few
    omega
  have hall : Ascending all := issued.ascending room
  have hlive : Ascending (ids w.live) := hall.sublist issued.live
  refine ⟨hlive, issued.nodup_roster room, fun id hid => ?_,
    ⟨hall, hall.nodup, issued.roster.subset⟩, tidy.flying, tidy.ended, tidy.kept, ?_, ?_⟩
  · exact issued.below room (issued.roster.subset hid)
  · rw [ids_snapshot]
    exact hlive
  · rw [ids_snapshot]
    exact hlive.nodup

/-- A shot that ends and one that goes on, a snapshot that adds another, a clearing, the same
snapshot in place of everything, and a shot after that. -/
def busy : List Action :=
  [.fire (dropBy 3), .fire { dropBy 4 with lifespan := some 1 }, .step,
    .reconcile mixedSnapshot {}, .clear, .mirror mixedSnapshot, .fire (dropBy 5), .step]

/-- Eight numbers are given out. After the last step two shots are retired, and of the numbers
up to 3, whose shots were cleared away, none is carried again. -/
theorem play_orderly_busy :
    let w := (new .standard .openSpace).play busy
    let all := (new .standard .openSpace).givenBy busy
    all.length < 2 ^ 64 - 1 ∧ all.length = 8 ∧ Ascending all ∧
      ids w.live = [⟨4⟩, ⟨5⟩, ⟨8⟩] ∧ w.retired.length = 2 ∧ (ids w.roster).Nodup ∧
      (∀ id ∈ ids w.roster, id.val < w.nextId) ∧
      (∀ e ∈ w.retired, e.shot.removed = true) ∧ (w.snapshot.items.map (·.id)).Nodup := by
  intro w all
  have count : all.length = 8 := by decide +kernel
  have few : all.length < 2 ^ 64 - 1 := by
    rw [count]
    decide
  have numbers : ids w.live = [⟨4⟩, ⟨5⟩, ⟨8⟩] := by decide +kernel
  have retired : w.retired.length = 2 := by decide +kernel
  obtain ⟨-, hroster, hbelow, ⟨hall, -, -⟩, -, hended, -, -, hlisted⟩ :=
    play_orderly .standard .openSpace few
  exact ⟨few, count, hall, numbers, retired, hroster, hbelow, hended, hlisted⟩

/-! ### The world of a client -/

theorem givenBy_append (w : World) (as bs : List Action) :
    w.givenBy (as ++ bs) = w.givenBy as ++ (w.play as).givenBy bs :=
  gather_append given w as bs

theorem givenBy_steps (w : World) (n : Nat) : w.givenBy (List.replicate n .step) = [] := by
  induction n generalizing w with
  | zero => rfl
  | succ n ih => exact ih w.step.2

end World

namespace Client

/-- What an action does to the world of a client is a run of that world, and gives out a number
for each entity that the action creates. -/
theorem Becomes.run {c : Client} {a : Action} {w : World} (h : Becomes c a w) :
    ∃ as : List World.Action,
      w = c.world.play as ∧ (c.world.givenBy as).length = c.created a := by
  cases h with
  | same created => exact ⟨[], rfl, created.symm⟩
  | fired l is predicting =>
    have hone : c.created a = 1 := by simp [is, created, predicting]
    exact ⟨[.fire l], rfl, hone.symm⟩
  | ticked is =>
    rw [is]
    exact ⟨[.step], rfl, rfl⟩
  | waited is =>
    rw [is]
    exact ⟨[.setTick c.world.tick.next], rfl, rfl⟩
  | drained is =>
    rw [is]
    exact ⟨[.drain], rfl, rfl⟩
  | reconciled s accepted predicting created =>
    refine ⟨List.replicate (c.world.tick.stepsUpTo s.tick) .step ++ [.reconcile s c.policy], ?_, ?_⟩
    · rw [World.play_append, World.play_steps]
      rfl
    · rw [World.givenBy_append, World.givenBy_steps, World.play_steps, created,
        ← (World.issues_reconcile (c.world.steps (c.world.tick.stepsUpTo s.tick)) s c.policy).2]
      simp [World.givenBy, World.gather]
  | mirrored s t accepted predicting created =>
    refine ⟨[.setTick t, .mirror s], rfl, ?_⟩
    have hcount := congrArg List.length (World.ids_replaceAll (c.world.setTick t) s)
    rw [World.length_fresh] at hcount
    rw [created, ← hcount]
    simp [World.givenBy, World.gather, World.given, World.act]

/-- Whatever is done with a client, its world goes through a run, and gives out as many numbers
as the client creates entities. -/
theorem world_play (c : Client) (as : List Action) :
    ∃ bs : List World.Action, (c.play as).world = c.world.play bs ∧
      (c.world.givenBy bs).length = c.createdBy as := by
  induction as generalizing c with
  | nil => exact ⟨[], rfl, rfl⟩
  | cons a as ih =>
    obtain ⟨first, hworld, hfirst⟩ := (act_becomes c a).run
    obtain ⟨rest, hplay, hrest⟩ := ih (c.act a)
    refine ⟨first ++ rest, ?_, ?_⟩
    · rw [World.play_append, ← hworld]
      exact hplay
    · rw [World.givenBy_append, List.length_append, hfirst, ← hworld, hrest]
      rfl

end Client

end Volley
