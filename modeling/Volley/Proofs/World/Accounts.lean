/-
# What a snapshot adds up to

Every record of a snapshot is counted once (`Tallied`), and what it does to the world is one
of three things: it changes the live entity that it is paired with, in its place; it tags a
retired entity; or it adds an entity behind the live ones (`Framed`). So when all records
have been taken, the live entities stand in their old places under their old numbers, the
added ones follow, and a place that no record is paired with holds what it held before. What
leaves the list then is what is over or gone (`reconcile_filter`), and both are counted: what
a record has brought up to date carries a listed number, so it is not gone as well.

Key definitions: `World.Tallied`, `World.livePlace`, `World.Placed`, `World.pairedPlaces`,
`World.surroundings`, `World.Framed`.
Key theorems: `World.tallied_takeRecords`, `World.framed_takeRecords`,
`World.reconcile_filter`, `World.reconcile_accounts`.
-/
import Volley.Proofs.World.Settled

namespace Volley

namespace World

variable {policy : MatchPolicy} {seen : Tick} {item : SnapshotItem} {w w' w'' : World}
  {s : Snapshot}

/-! ### The report -/

/-- Between two reports, `n` records were taken. Each was counted once, and a shot was
replaced only by a record that was paired with it. -/
structure Tallied (r r' : ReconcileReport) (n : Nat) : Prop where
  confirmed : r'.confirmed = r.confirmed
  taken : r'.adopted + r'.claimed + r'.suppressed + r'.spawned =
    r.adopted + r.claimed + r.suppressed + r.spawned + n
  replaced : r'.replaced + r.adopted + r.claimed ≤ r.replaced + r'.adopted + r'.claimed
  dropped : r'.dropped = r.dropped
  discarded : r'.discarded = r.discarded

theorem Tallied.refl (r : ReconcileReport) : Tallied r r 0 :=
  ⟨rfl, rfl, Nat.le_refl _, rfl, rfl⟩

theorem Tallied.trans {r r' r'' : ReconcileReport} {n m : Nat} (h : Tallied r r' n)
    (h' : Tallied r' r'' m) : Tallied r r'' (n + m) where
  confirmed := h'.confirmed.trans h.confirmed
  taken := by
    have h1 := h.taken
    have h2 := h'.taken
    omega
  replaced := by
    have h1 := h.replaced
    have h2 := h'.replaced
    omega
  dropped := h'.dropped.trans h.dropped
  discarded := h'.discarded.trans h.discarded

/-- A record is counted once. -/
theorem Taken.tallied {r : ReconcileReport} {out : World × ReconcileReport}
    (h : Taken policy seen item w r out) : Tallied r out.2 1 := by
  cases h with
  | adopted before e after =>
    have hone := Bool.toNat_le (w.settle policy seen item.record e.shot).2
    constructor <;> dsimp only <;> omega
  | suppressed => constructor <;> dsimp only <;> omega
  | claimed before e after =>
    have hone := Bool.toNat_le (w.settle policy seen item.record e.shot).2
    constructor <;> dsimp only <;> omega
  | tagged => constructor <;> dsimp only <;> omega
  | spawned => constructor <;> dsimp only <;> omega

theorem tallied_takeRecords (policy : MatchPolicy) (s : Snapshot)
    (start : World × ReconcileReport) :
    Tallied start.2 (takeRecords policy s start).2 s.items.length := by
  unfold takeRecords
  generalize s.items = items
  induction items generalizing start with
  | nil => exact .refl _
  | cons item rest ih =>
    have hfirst := (taken policy s.tick item start.1 start.2).tallied
    rw [List.foldl_cons, List.length_cons, Nat.add_comm]
    exact hfirst.trans (ih _)

/-! ### The live entities -/

/-- The live entity that a record is paired with, and its place. -/
def livePlace (policy : MatchPolicy) (seen : Tick) (item : SnapshotItem) (w : World) :
    Option (Entity × Nat) :=
  match findTracked w.live item.id with
  | some place => some place
  | none =>
    if w.retired.any (·.serverId = some item.id) then none
    else bestMatch w.live (w.confirmed item.record seen none) seen policy

/-- The ways in which a record is taken, by the live place that it is paired with. -/
inductive Placed (policy : MatchPolicy) (seen : Tick) (item : SnapshotItem) (w : World)
    (r : ReconcileReport) : Option (Entity × Nat) → World × ReconcileReport → Prop where
  /-- The entity there carries the number. -/
  | adopted (place : Entity × Nat) (stands : place ∈ w.live.zipIdx)
      (carries : place.1.serverId = some item.id) :
      Placed policy seen item w r (some place)
        ((w.pairLive policy seen item place).1,
          { r with
            adopted := r.adopted + 1
            replaced := r.replaced + (w.pairLive policy seen item place).2.toNat })
  /-- The entity there is claimed. -/
  | claimed (place : Entity × Nat) (stands : place ∈ w.live.zipIdx)
      (free : place.1.serverId = none) :
      Placed policy seen item w r (some place)
        ((w.pairLive policy seen item place).1,
          { r with
            claimed := r.claimed + 1
            replaced := r.replaced + (w.pairLive policy seen item place).2.toNat })
  /-- A retired entity carries the number. -/
  | suppressed : Placed policy seen item w r none (w, { r with suppressed := r.suppressed + 1 })
  /-- A retired entity is tagged. -/
  | tagged (place : Entity × Nat) :
      Placed policy seen item w r none
        (w.pairRetired item place, { r with suppressed := r.suppressed + 1 })
  /-- The confirmed shot is added. -/
  | spawned :
      Placed policy seen item w r none
        (w.spawn seen item (w.confirmed item.record seen none),
          { r with spawned := r.spawned + 1 })

theorem placed (policy : MatchPolicy) (seen : Tick) (item : SnapshotItem) (w : World)
    (r : ReconcileReport) :
    Placed policy seen item w r (livePlace policy seen item w)
      (takeRecord policy seen item (w, r)) := by
  unfold takeRecord livePlace
  simp only
  cases htracked : findTracked w.live item.id with
  | some place =>
    have hplace : place ∈ w.live.zipIdx := List.mem_of_find?_eq_some htracked
    exact .adopted place hplace (split_of_findTracked htracked).1
  | none =>
    by_cases hretired : w.retired.any (·.serverId = some item.id)
    · simp only [if_pos hretired]
      exact .suppressed
    simp only [if_neg hretired]
    cases hlive : bestMatch w.live (w.confirmed item.record seen none) seen policy with
    | some place =>
      obtain ⟨hplace, hpart⟩ := List.mem_filter.mp (mem_of_firstLeast hlive)
      rw [Bool.and_eq_true, Option.isNone_iff_eq_none] at hpart
      exact .claimed place hplace hpart.1
    | none =>
      cases bestMatch w.retired (w.confirmed item.record seen none) seen policy with
      | some place => exact .tagged place
      | none => exact .spawned

/-- The places of the live entities that records are paired with, one record after the
other. -/
def pairedPlaces (policy : MatchPolicy) (seen : Tick) :
    World × ReconcileReport → List SnapshotItem → List Nat
  | _, [] => []
  | state, item :: rest =>
    (livePlace policy seen item state.1).toList.map Prod.snd ++
      pairedPlaces policy seen (takeRecord policy seen item state) rest

/-- The world without its entities and their numbers. -/
def surroundings (w : World) : World := { w with live := [], retired := [], nextId := 0 }

/-- From `w` to `w'`, live entities changed only in the given places, and `n` entities were
added behind them. -/
structure Framed (places : List Nat) (w w' : World) (n : Nat) : Prop where
  surroundings : w'.surroundings = w.surroundings
  nextId : w'.nextId = w.nextId + UInt64.ofNat n
  ids : ids w'.live = ids w.live ++ fresh w.nextId n
  same : ∀ i < w.live.length, i ∉ places → w'.live[i]? = w.live[i]?

namespace Framed

variable {places places' : List Nat} {n m : Nat}

theorem refl (w : World) : Framed [] w w 0 where
  surroundings := rfl
  nextId := by simp
  ids := by simp [fresh]
  same _ _ _ := rfl

theorem length (h : Framed places w w' n) : w'.live.length = w.live.length + n := by
  have hids := congrArg List.length h.ids
  simpa [World.ids, fresh] using hids

theorem trans (h : Framed places w w' n) (h' : Framed places' w' w'' m) :
    Framed (places ++ places') w w'' (n + m) where
  surroundings := h'.surroundings.trans h.surroundings
  nextId := by rw [h'.nextId, h.nextId, UInt64.ofNat_add, UInt64.add_assoc]
  ids := by rw [h'.ids, h.ids, h.nextId, fresh_add, List.append_assoc]
  same i hi hout := by
    rw [List.mem_append, not_or] at hout
    have hlength := h.length
    exact (h'.same i (by omega) hout.2).trans (h.same i hi hout.1)

end Framed

theorem framed_pairLive (policy : MatchPolicy) (seen : Tick) (item : SnapshotItem)
    {place : Entity × Nat} (h : place ∈ w.live.zipIdx) :
    Framed [place.2] w (w.pairLive policy seen item place).1 0 where
  surroundings := rfl
  nextId := by simp [pairLive]
  ids := by
    obtain ⟨before, after, hsplit, hset⟩ := split_of_place h
    simp only [pairLive, hset]
    simp [hsplit, World.ids, fresh]
  same i hi hout := by
    have hne : place.2 ≠ i := fun heq => hout (List.mem_singleton.mpr heq.symm)
    simp only [pairLive, List.getElem?_set_ne hne]

theorem framed_pairRetired (w : World) (item : SnapshotItem) (place : Entity × Nat) :
    Framed [] w (w.pairRetired item place) 0 where
  surroundings := rfl
  nextId := (Framed.refl w).nextId
  ids := (Framed.refl w).ids
  same _ _ _ := rfl

theorem framed_spawn (w : World) (seen : Tick) (item : SnapshotItem) (server : Shot) :
    Framed [] w (w.spawn seen item server) 1 where
  surroundings := rfl
  nextId := rfl
  ids := by simp [spawn, insert, World.ids, fresh_one]
  same i hi _ := by simp [spawn, insert, List.getElem?_append_left hi]

/-- A record changes the place that it is paired with, or the live entities stay and one is
added at most. -/
theorem framed_takeRecord (policy : MatchPolicy) (seen : Tick) (item : SnapshotItem) (w : World)
    (r : ReconcileReport) :
    ∃ n, (takeRecord policy seen item (w, r)).2.spawned = r.spawned + n ∧
      Framed ((livePlace policy seen item w).toList.map Prod.snd) w
        (takeRecord policy seen item (w, r)).1 n := by
  have h := placed policy seen item w r
  generalize livePlace policy seen item w = found, takeRecord policy seen item (w, r) = out at h
  cases h with
  | adopted place stands => exact ⟨0, rfl, framed_pairLive policy seen item stands⟩
  | claimed place stands => exact ⟨0, rfl, framed_pairLive policy seen item stands⟩
  | suppressed => exact ⟨0, rfl, .refl w⟩
  | tagged place => exact ⟨0, rfl, framed_pairRetired w item place⟩
  | spawned => exact ⟨1, rfl, framed_spawn w seen item _⟩

/-- All records change the places that they are paired with, and add what they count. -/
theorem framed_takeRecords (policy : MatchPolicy) (s : Snapshot)
    (start : World × ReconcileReport) :
    ∃ n, (takeRecords policy s start).2.spawned = start.2.spawned + n ∧
      Framed (pairedPlaces policy s.tick start s.items) start.1
        (takeRecords policy s start).1 n := by
  unfold takeRecords
  generalize s.items = items
  induction items generalizing start with
  | nil => exact ⟨0, rfl, .refl _⟩
  | cons item rest ih =>
    obtain ⟨n, hn, hfirst⟩ := framed_takeRecord policy s.tick item start.1 start.2
    obtain ⟨m, hm, hrest⟩ := ih (takeRecord policy s.tick item start)
    exact ⟨n + m, by rw [List.foldl_cons, hm, hn, Nat.add_assoc], hfirst.trans hrest⟩

/-! ### What leaves the list -/

/-- What is left of the live entities is as the records have left it. -/
theorem reconcile_filter (w : World) (s : Snapshot) (policy : MatchPolicy) :
    (w.reconcile s policy).2.live =
      (w.withRecords s policy).live.filter fun e => !e.shot.removed && !gone policy s e := by
  rw [reconcile_live]
  show ((w.withRecords s policy).live.map (markGone policy s)).filter (!·.shot.removed) = _
  induction (w.withRecords s policy).live with
  | nil => rfl
  | cons e rest ih =>
    rw [List.map_cons, List.filter_cons, List.filter_cons, ih]
    by_cases hgone : gone policy s e <;> simp [markGone, hgone, Shot.remove]

/-- What a record has brought to its end carries the number of a record. -/
theorem not_gone_of_removed (flying : ∀ e ∈ w.live, e.shot.removed = false) {e : Entity}
    (he : e ∈ (w.withRecords s policy).live) (ended : e.shot.removed = true) :
    gone policy s e = false := by
  rcases mem_live_upTo w s policy s.items e he with hold | ⟨item, hitem, hcarries⟩
  · rw [flying e hold] at ended
    cases ended
  · have hlists : s.lists item.id = true := List.any_eq_true.mpr ⟨item, hitem, decide_eq_true rfl⟩
    rw [gone_of_serverId hcarries, hlists]
    rfl

/-- Of some entities, each stays, or is over, dropped or discarded, if none of those that are
over is gone. -/
theorem length_parts {entities : List Entity}
    (stays : ∀ e ∈ entities, e.shot.removed = true → gone policy s e = false) :
    (entities.filter fun e => !e.shot.removed && !gone policy s e).length +
        entities.countP (isDropped s) + entities.countP (isDiscarded policy s) +
        entities.countP (·.shot.removed) = entities.length := by
  induction entities with
  | nil => rfl
  | cons e rest ih =>
    have hrest := ih fun x hx => stays x (List.mem_cons_of_mem _ hx)
    have hended := stays e List.mem_cons_self
    -- what is dropped carries a number, and what is discarded carries none
    have honce : ¬ (isDropped s e = true ∧ isDiscarded policy s e = true) := by
      rintro ⟨hdropped, hdiscarded⟩
      cases hs : e.serverId <;> simp [isDropped, isDiscarded, hs] at hdropped hdiscarded
    simp only [List.filter_cons, List.countP_cons, List.length_cons]
    unfold gone at hended hrest ⊢
    cases hr : e.shot.removed <;> cases hd : isDropped s e <;>
      cases hc : isDiscarded policy s e <;> simp_all <;> omega

/-! ### A whole snapshot -/

/-- The places of the live entities that the records of a snapshot are paired with. -/
def pairedIn (w : World) (s : Snapshot) (policy : MatchPolicy) : List Nat :=
  pairedPlaces policy s.tick (w, { tick := s.tick, confirmed := s.items.length }) s.items

/-- The report counts every record once, and what is gone when all of them have been taken. -/
theorem tallied_reconcile (w : World) (s : Snapshot) (policy : MatchPolicy) :
    let r := (w.reconcile s policy).1
    r.confirmed = s.items.length ∧
      r.adopted + r.claimed + r.suppressed + r.spawned = s.items.length ∧
      r.replaced ≤ r.adopted + r.claimed ∧
      r.dropped = (w.withRecords s policy).live.countP (isDropped s) ∧
      r.discarded = (w.withRecords s policy).live.countP (isDiscarded policy s) := by
  intro r
  have tallied := tallied_takeRecords policy s (w, { tick := s.tick, confirmed := s.items.length })
  refine ⟨tallied.confirmed, tallied.taken.trans (Nat.zero_add _), ?_, ?_, ?_⟩
  · have hle := tallied.replaced
    simp only [Nat.add_zero, Nat.zero_add] at hle
    exact hle
  · show (takeRecords policy s _).2.dropped + _ = _
    rw [tallied.dropped]
    exact Nat.zero_add _
  · show (takeRecords policy s _).2.discarded + _ = _
    rw [tallied.discarded]
    exact Nat.zero_add _

/-- What all records do to the live entities. -/
theorem framed_withRecords (w : World) (s : Snapshot) (policy : MatchPolicy) :
    Framed (w.pairedIn s policy) w (w.withRecords s policy) (w.reconcile s policy).1.spawned := by
  obtain ⟨n, hn, framed⟩ := framed_takeRecords policy s
    (w, { tick := s.tick, confirmed := s.items.length })
  have hspawned : (w.reconcile s policy).1.spawned = n := hn.trans (Nat.zero_add n)
  rw [hspawned]
  exact framed

/-- **What a snapshot adds up to.** Every record is counted once, and what is added, dropped,
discarded or brought to its end accounts for every live entity. A snapshot moves no clock and
pushes no effect. The live entities that are left are as the records have left them, in their
order and under their numbers, and one that no record was paired with is as it was before. -/
theorem reconcile_accounts (flying : ∀ e ∈ w.live, e.shot.removed = false) :
    let r := (w.reconcile s policy).1
    let w' := (w.reconcile s policy).2
    let all := (w.withRecords s policy).live
    r.confirmed = s.items.length ∧
      r.adopted + r.claimed + r.suppressed + r.spawned = r.confirmed ∧
      r.replaced ≤ r.adopted + r.claimed ∧
      w'.live.length + r.dropped + r.discarded + all.countP (·.shot.removed) =
        w.live.length + r.spawned ∧
      w'.nextId = w.nextId + UInt64.ofNat r.spawned ∧
      (w.nextId.toNat + r.spawned < UInt64.size →
        w'.nextId.toNat = w.nextId.toNat + r.spawned) ∧
      w'.tick = w.tick ∧ w'.hz = w.hz ∧ w'.tuning = w.tuning ∧ w'.terrain = w.terrain ∧
      w'.effects = w.effects ∧
      w'.live = all.filter (fun e => !e.shot.removed && !gone policy s e) ∧
      ids all = ids w.live ++ fresh w.nextId r.spawned ∧
      ∀ i < w.live.length, i ∉ w.pairedIn s policy → all[i]? = w.live[i]? := by
  intro r w' all
  obtain ⟨hconfirmed, htaken, hreplaced, hdropped, hdiscarded⟩ := w.tallied_reconcile s policy
  have framed := w.framed_withRecords s policy
  have hlive : w'.live = _ := reconcile_filter w s policy
  have hlength : w'.live.length + r.dropped + r.discarded + all.countP (·.shot.removed) =
      w.live.length + r.spawned := by
    rw [← framed.length, hlive, hdropped, hdiscarded]
    exact length_parts fun e he => not_gone_of_removed flying he
  have hnext : w'.nextId = w.nextId + UInt64.ofNat r.spawned :=
    (congrArg World.nextId (reconcile_world w s policy)).trans framed.nextId
  have haround : w'.surroundings = w.surroundings :=
    (congrArg surroundings (reconcile_world w s policy)).trans framed.surroundings
  refine ⟨hconfirmed, htaken.trans hconfirmed.symm, hreplaced, hlength, hnext, fun room => ?_,
    (congrArg World.tick haround :), (congrArg World.hz haround :),
    (congrArg World.tuning haround :), (congrArg World.terrain haround :),
    (congrArg World.effects haround :), hlive, framed.ids, framed.same⟩
  rw [hnext]
  exact toNat_add_ofNat (Nat.lt_succ_self _) room

/-- A shot of a player that stays where it is, but for gravity. -/
def dropBy (owner : UInt32) : Launch :=
  { weapon := .gun, owner := some ⟨owner⟩, origin := Vec2.zero, direction := Vec2.zero }

/-- What a server says of such a shot. -/
def dropRecord (owner lifespan : Int32) : Record :=
  { (default : Record) with weapon := 1, owner, lifespan }

/-- The world at the tick 6 with a shot of the player 3, one of the player 4 that has ended, an
old one of the player 5, one that the server has confirmed, and a new one of the player 7. -/
def mixed : World :=
  let w := ((World.new .standard .openSpace).fire (dropBy 3)).2
  let w := (w.fire { dropBy 4 with lifespan := some 1 }).2
  let w := (w.fire (dropBy 5)).2
  let w := (w.addConfirmed ⟨9⟩ (dropRecord 8 (-1)) 0).2
  ((w.steps 6).fire (dropBy 7)).2

/-- A snapshot of the tick 4 that lists the first shot twice, the second one, and one that ends
on the way up. -/
def mixedSnapshot : Snapshot where
  tick := 4
  items := [⟨⟨1⟩, dropRecord 3 (-1)⟩, ⟨⟨1⟩, dropRecord 3 (-1)⟩, ⟨⟨2⟩, dropRecord 4 1⟩,
    ⟨⟨8⟩, dropRecord 6 5⟩]

/-- The snapshot claims a shot and adopts it again, suppresses a record, adds a shot that ends
at once, drops one and discards one. The new shot of the player 7 is a bystander. -/
theorem reconcile_accounts_mixed :
    let r := (mixed.reconcile mixedSnapshot {}).1
    let w' := (mixed.reconcile mixedSnapshot {}).2
    let all := (mixed.withRecords mixedSnapshot {}).live
    (∀ e ∈ mixed.live, e.shot.removed = false) ∧ mixed.live.length = 4 ∧
      (r.adopted = 1 ∧ r.claimed = 1 ∧ r.suppressed = 1 ∧ r.spawned = 1) ∧
      (r.dropped = 1 ∧ r.discarded = 1 ∧ all.countP (·.shot.removed) = 1) ∧
      w'.live.length = 2 ∧ w'.nextId = mixed.nextId + 1 ∧ w'.tick = 6 ∧
      mixed.pairedIn mixedSnapshot {} = [0, 0] ∧ all[3]? = mixed.live[3]? := by
  intro r w' all
  have flying : ∀ e ∈ mixed.live, e.shot.removed = false := by decide +kernel
  have length : mixed.live.length = 4 := by decide +kernel
  have clock : mixed.tick = 6 := by decide +kernel
  have counted : r.adopted = 1 ∧ r.claimed = 1 ∧ r.suppressed = 1 ∧ r.spawned = 1 := by
    decide +kernel
  have ended : r.dropped = 1 ∧ r.discarded = 1 ∧ all.countP (·.shot.removed) = 1 := by
    decide +kernel
  have paired : mixed.pairedIn mixedSnapshot {} = [0, 0] := by decide +kernel
  obtain ⟨-, -, -, hlength, hnext, -, htick, -, -, -, -, -, -, hsame⟩ :=
    @reconcile_accounts {} mixed mixedSnapshot flying
  change w'.live.length + r.dropped + r.discarded + all.countP (·.shot.removed) =
    mixed.live.length + r.spawned at hlength
  have hspawned := counted.2.2.2
  refine ⟨flying, length, counted, ended, ?_, ?_, htick.trans clock, paired, ?_⟩
  · omega
  · rw [hnext, hspawned]
    rfl
  · exact hsame 3 (by omega) (by rw [paired]; decide)

end World

end Volley
