/-
# A snapshot says nothing new a second time

When a record has been taken, its number is carried, and if it is carried in flight, the
record leaves the shot that carries it as it is (`Heeded`): an adopted shot adopts the same
again, and one that was replaced or added is replaced by the same shot, if at all. No other
record touches that shot. So a snapshot that comes again changes nothing: every record is
adopted or suppressed (`Echo`), and nobody is left to be dropped or discarded.

The records have to be as a server publishes them. One without an extension block, or of a
shot that was launched after its snapshot, may change what it finds each time it comes.

Key definitions: `World.Heeded`, `World.Echo`.
Key theorems: `World.settle_settle`, `World.Taken.heeded`, `World.heeded_reconcile`,
`World.takeRecords_of_heeded`, `World.reconcile_idempotent`.
-/
import Volley.Proofs.World.Bounces
import Volley.Proofs.World.Confirm

namespace Volley

open Shot (Past)

/-- The record tells of its shot what a server publishes at a tick. -/
def Record.PublishedBy (r : Record) (seen : Tick) : Prop :=
  ∃ extra, r.extra = some extra ∧ r.startTick.plus extra.launchOffset ≤ seen

namespace World

variable {w : World} {s : Snapshot} {policy : MatchPolicy} {seen : Tick} {item : SnapshotItem}

/-! ### One shot -/

/-- The shot of a record, brought up to date, is left as it is by the record: it adopts
nothing, and if it is replaced, then by the same shot. -/
theorem settle_runTo {r : Record} (published : r.PublishedBy seen) :
    (w.settle policy seen r
        ((Shot.ofRecord (w.contextAt seen) r).runTo (w.contextAt seen) w.tick)).1 =
      (Shot.ofRecord (w.contextAt seen) r).runTo (w.contextAt seen) w.tick := by
  obtain ⟨extra, carries, launched⟩ := published
  have hserver := fun paired => confirmed_of_extra (w := w) carries seen paired
  have hpast := (past_confirmed (w := w) carries launched none).1
  rw [hserver] at hpast
  generalize Shot.ofRecord (w.contextAt seen) r = server at *
  have known : seen ≤ (w.contextAt seen).tick := Int32.le_refl seen
  have hrun := hpast.runTo known w.tick
  rw [settle_shot, hserver, hrun.adopt]
  split <;> rfl

/-- **A record settles a shot once and for all.** -/
theorem settle_settle {r : Record} (published : r.PublishedBy seen) (shot : Shot) :
    (w.settle policy seen r (w.settle policy seen r shot).1).1 =
      (w.settle policy seen r shot).1 := by
  have hserver : ∀ paired, w.confirmed r seen paired = Shot.ofRecord (w.contextAt seen) r := by
    obtain ⟨extra, carries, -⟩ := published
    exact confirmed_of_extra carries seen
  by_cases replaced : (w.settle policy seen r shot).2 = true
  · have hshot : (w.settle policy seen r shot).1 =
        (Shot.ofRecord (w.contextAt seen) r).runTo (w.contextAt seen) w.tick := by
      rw [settle_shot, if_pos replaced, hserver]
    rw [hshot]
    exact settle_runTo published
  · -- what was close enough before is the same, and close enough again
    generalize Shot.ofRecord (w.contextAt seen) r = server at hserver
    have hshot : (w.settle policy seen r shot).1 = shot.adopt server := by
      rw [settle_shot, if_neg replaced, hserver]
    have hagain : (w.settle policy seen r (shot.adopt server)).2 =
        (w.settle policy seen r shot).2 := by
      simp only [settle, hserver, Shot.adopt_adopt]
    rw [hshot, settle_shot, hagain, if_neg replaced, hserver, Shot.adopt_adopt]

/-! ### What a record has left behind -/

/-- The record of an item has nothing more to say: its number is carried, and if in flight,
then by an entity that the record leaves as it is. -/
structure Heeded (policy : MatchPolicy) (seen : Tick) (item : SnapshotItem) (w : World) :
    Prop where
  carried : item.id ∈ w.tracked
  settled : ∀ e ∈ w.live, e.serverId = some item.id → World.settled policy seen item w e = e

theorem settled_settled (published : item.record.PublishedBy seen) (e : Entity) :
    settled policy seen item w (settled policy seen item w e) = settled policy seen item w e := by
  simp only [settled, settle_settle published]

/-- After a record, whoever carries its number in flight is settled by it. -/
theorem Taken.settled {r : ReconcileReport} {out : World × ReconcileReport}
    (h : Taken policy seen item w r out) (distinct : w.tracked.Nodup)
    (published : item.record.PublishedBy seen) {e : Entity} (he : e ∈ out.1.live)
    (carries : e.serverId = some item.id) : World.settled policy seen item w e = e := by
  -- the entity that the record has touched is the only one to carry the number
  have hdistinct := h.nodup_tracked distinct
  have honly : ∀ x ∈ out.1.live, x.serverId = some item.id → e = x := fun x hx hs =>
    eq_of_carries hdistinct (mem_roster_of_live he) (mem_roster_of_live hx) carries hs
  have hcarried : ∀ x ∈ w.live, x.serverId = some item.id → item.id ∈ w.tracked :=
    fun x hx hs => World.mem_tracked.mpr ⟨x, mem_roster_of_live hx, hs⟩
  cases h with
  | adopted before x after split carried =>
    have hx := honly _ (List.mem_append_right _ List.mem_cons_self) rfl
    rw [hx]
    exact settled_settled published x
  | claimed before x after new partner =>
    have hx := honly _ (List.mem_append_right _ List.mem_cons_self) rfl
    rw [hx]
    exact settled_settled published x
  | suppressed flown carried => exact absurd (mem_serverIds.mpr ⟨e, he, carries⟩) flown
  | tagged before x after new => exact absurd (hcarried e he carries) new
  | spawned new unclaimed untagged =>
    have hx := honly _ (List.mem_append_right _ (List.mem_singleton.mpr rfl)) rfl
    obtain ⟨extra, hextra, -⟩ := id published
    rw [hx, World.settled]
    congr 1
    rw [confirmed_of_extra hextra]
    exact settle_runTo published

/-- A record that comes for the first time is heeded. -/
theorem Taken.heeded {r : ReconcileReport} {out : World × ReconcileReport}
    (h : Taken policy seen item w r out) (distinct : w.tracked.Nodup)
    (published : item.record.PublishedBy seen) : Heeded policy seen item out.1 where
  carried := (h.mem_tracked item.id).mpr (Or.inl rfl)
  settled e he carries := by
    rw [settled_congr h.contextAt.1 h.contextAt.2]
    exact h.settled distinct published he carries

/-- A record of another number does not touch what the first one has left behind. -/
theorem Heeded.taken {other : SnapshotItem} {r : ReconcileReport} {out : World × ReconcileReport}
    (heeded : Heeded policy seen item w) (h : Taken policy seen other w r out)
    (different : other.id ≠ item.id) : Heeded policy seen item out.1 where
  carried := (h.mem_tracked item.id).mpr (Or.inr heeded.carried)
  settled e he carries := by
    rw [settled_congr h.contextAt.1 h.contextAt.2]
    rcases h.mem_live he with hold | hnew
    · exact heeded.settled e hold carries
    · exact absurd (Option.some.inj (hnew.symm.trans carries)) different

/-- After all records of a snapshot with different items, each of them is heeded. -/
theorem heeded_withRecords (distinct : w.tracked.Nodup) (different : (s.items.map (·.id)).Nodup)
    (published : ∀ item ∈ s.items, item.record.PublishedBy s.tick) :
    ∀ item ∈ s.items, Heeded policy s.tick item (w.withRecords s policy) := by
  intro item hitem
  obtain ⟨before, after, hitems⟩ := List.append_of_mem hitem
  have hbefore : (w.upTo s policy before).1.tracked.Nodup := nodup_tracked_takeRecords distinct
  have htaken := taken policy s.tick item (w.upTo s policy before).1 (w.upTo s policy before).2
  have hfirst := htaken.heeded hbefore (published item hitem)
  have hothers := (ids_around (hitems ▸ different)).2
  rw [withRecords_split hitems]
  exact takeRecords_induction (s := { s with items := after })
    (P := fun out => Heeded policy s.tick item out.1)
    (fun i hi _ _ _ hw ht => hw.taken ht (hothers i hi)) hfirst

/-- A snapshot with room for what it puts away is heeded when it has been taken. -/
theorem heeded_reconcile (fits : w.ReconcileFits s policy) (distinct : w.tracked.Nodup)
    (different : (s.items.map (·.id)).Nodup)
    (published : ∀ item ∈ s.items, item.record.PublishedBy s.tick) :
    ∀ item ∈ s.items, Heeded policy s.tick item (w.reconcile s policy).2 := by
  intro item hitem
  have hheeded : Heeded policy s.tick item (w.withRecords s policy) :=
    heeded_withRecords distinct different published item hitem
  constructor
  · apply (mem_tracked_reconcile fits item.id).mpr
    exact List.any_eq_true.mpr ⟨item, hitem, decide_eq_true rfl⟩
  · intro e he carries
    obtain ⟨htick, hcontext⟩ := contextAt_reconcile w s policy
    obtain ⟨htick', hcontext'⟩ : (w.withRecords s policy).tick = w.tick ∧
        (w.withRecords s policy).contextAt = w.contextAt := contextAt_upTo w s policy s.items
    have hsettled := hheeded.settled e (mem_live_withRecords he) carries
    rw [settled_congr htick' hcontext'] at hsettled
    rw [settled_congr htick hcontext]
    exact hsettled

/-! ### The second time -/

/-- Between the two reports, `n` records have found what they are about, and nothing else has
happened but that shots may have been replaced. -/
structure Echo (r r' : ReconcileReport) (n : Nat) : Prop where
  confirmed : r'.confirmed = r.confirmed
  found : r'.adopted + r'.suppressed = r.adopted + r.suppressed + n
  claimed : r'.claimed = r.claimed
  spawned : r'.spawned = r.spawned
  dropped : r'.dropped = r.dropped
  discarded : r'.discarded = r.discarded

theorem Echo.trans {r r' r'' : ReconcileReport} {n m : Nat} (h : Echo r r' n)
    (h' : Echo r' r'' m) : Echo r r'' (n + m) where
  confirmed := h'.confirmed.trans h.confirmed
  found := by
    have h1 := h.found
    have h2 := h'.found
    omega
  claimed := h'.claimed.trans h.claimed
  spawned := h'.spawned.trans h.spawned
  dropped := h'.dropped.trans h.dropped
  discarded := h'.discarded.trans h.discarded

/-- A record that is heeded changes nothing. -/
theorem takeRecord_of_heeded (heeded : Heeded policy seen item w) (r : ReconcileReport) :
    (takeRecord policy seen item (w, r)).1 = w ∧
      Echo r (takeRecord policy seen item (w, r)).2 1 := by
  have htaken := taken policy seen item w r
  generalize takeRecord policy seen item (w, r) = out at htaken
  cases htaken with
  | adopted before e after split carries =>
    have he : e ∈ w.live := split ▸ List.mem_append_right _ List.mem_cons_self
    have hsame := heeded.settled e he carries
    rw [settled] at hsame
    rw [hsame, ← split]
    refine ⟨rfl, rfl, ?_, rfl, rfl, rfl, rfl⟩
    show r.adopted + 1 + r.suppressed = r.adopted + r.suppressed + 1
    omega
  | suppressed => exact ⟨rfl, rfl, rfl, rfl, rfl, rfl, rfl⟩
  | claimed before e after new => exact absurd heeded.carried new
  | tagged before e after new => exact absurd heeded.carried new
  | spawned new => exact absurd heeded.carried new

/-- Nor do any number of them. -/
theorem takeRecords_of_heeded (heeded : ∀ item ∈ s.items, Heeded policy s.tick item w)
    (r : ReconcileReport) :
    (takeRecords policy s (w, r)).1 = w ∧
      Echo r (takeRecords policy s (w, r)).2 s.items.length := by
  unfold takeRecords
  generalize s.items = items at heeded
  induction items generalizing r with
  | nil => exact ⟨rfl, rfl, rfl, rfl, rfl, rfl, rfl⟩
  | cons item rest ih =>
    obtain ⟨hworld, hecho⟩ := takeRecord_of_heeded (heeded item List.mem_cons_self) r
    have hrest := ih (takeRecord policy s.tick item (w, r)).2
      fun i hi => heeded i (List.mem_cons_of_mem _ hi)
    have hpair : takeRecord policy s.tick item (w, r) =
        (w, (takeRecord policy s.tick item (w, r)).2) := Prod.ext hworld rfl
    rw [List.foldl_cons, hpair, List.length_cons, Nat.add_comm]
    exact ⟨hrest.1, hecho.trans hrest.2⟩

theorem length_retired_reconcile (w : World) (s : Snapshot) (policy : MatchPolicy) :
    (w.reconcile s policy).2.retired.length ≤ retiredCapacity := by
  have hkept : (w.marked s policy).sweep.retired.length ≤ retiredCapacity := by
    simp only [sweep, keepLatest, List.length_drop]
    omega
  rw [reconcile_world]
  simp only [prune]
  exact Nat.le_trans (List.length_filter_le _ _) hkept

/-- A snapshot that is heeded, in a world in which nobody is left to go, changes nothing. -/
theorem reconcile_of_heeded (heeded : ∀ item ∈ s.items, Heeded policy s.tick item w)
    (needed : ∀ e ∈ w.roster, gone policy s e = false)
    (flying : ∀ e ∈ w.live, e.shot.removed = false)
    (room : w.retired.length ≤ retiredCapacity) :
    (w.reconcile s policy).2 = w ∧
      Echo { tick := s.tick, confirmed := s.items.length } (w.reconcile s policy).1
        s.items.length := by
  obtain ⟨hworld, hecho⟩ := takeRecords_of_heeded heeded
    { tick := s.tick, confirmed := s.items.length }
  have hrecords : w.withRecords s policy = w := hworld
  have hkept := @reconcile_of_kept policy w s
  rw [hrecords] at hkept
  have hreconcile := hkept (fun e he => by
    simpa [gone] using needed e (mem_roster_of_live he)) flying room
  have hretired : w.retired.filter (!gone policy s ·) = w.retired :=
    List.filter_eq_self.mpr fun e he => by simp [needed e (mem_roster_of_retired he)]
  rw [hreconcile]
  refine ⟨?_, hecho⟩
  show ({ w with retired := w.retired.filter (!gone policy s ·) } : World) = w
  rw [hretired]

/-- **Reconciliation is idempotent.** A snapshot that comes again right after it has been
taken leaves the whole world as it is, whatever shots it replaced or brought up to date the
first time; every record is adopted or suppressed, and nothing is claimed, added, dropped or
discarded. -/
theorem reconcile_idempotent (distinct : w.tracked.Nodup)
    (different : (s.items.map (·.id)).Nodup)
    (published : ∀ item ∈ s.items, item.record.PublishedBy s.tick)
    (room : w.live.length + w.retired.length + s.items.length ≤ retiredCapacity) :
    let once := w.reconcile s policy
    let twice := once.2.reconcile s policy
    twice.2 = once.2 ∧ twice.1.claimed = 0 ∧ twice.1.spawned = 0 ∧ twice.1.dropped = 0 ∧
      twice.1.discarded = 0 ∧ twice.1.confirmed = s.items.length ∧
      twice.1.adopted + twice.1.suppressed = twice.1.confirmed := by
  intro once twice
  have hheeded := heeded_reconcile (reconcileFits_of_room policy room) distinct different published
  have hneeded : ∀ e ∈ once.2.roster, gone policy s e = false :=
    fun e he => (not_gone_of_mem_reconcile he).2
  have hflying : ∀ e ∈ once.2.live, e.shot.removed = false := by
    intro e he
    rw [reconcile_live] at he
    exact not_removed_of_mem_sweep he
  obtain ⟨hworld, hecho⟩ := reconcile_of_heeded hheeded hneeded hflying
    (length_retired_reconcile w s policy)
  have hfound := hecho.found
  rw [Nat.add_zero, Nat.zero_add] at hfound
  exact ⟨hworld, hecho.claimed, hecho.spawned, hecho.dropped, hecho.discarded, hecho.confirmed,
    hfound.trans hecho.confirmed.symm⟩

/-- A policy that replaces every shot, and a snapshot that first claims a prediction and adds a
shot that has died since, and then adopts the one, replaced again, and suppresses the other. -/
theorem reconcile_idempotent_replaced :
    let w := (lobbed 1 1).steps 3
    let s : Snapshot := { lobSnapshot with items := [lobItem,
      { id := ⟨2⟩, record := { lobItem.record with owner := 5, lifespan := 4 } }] }
    let policy : MatchPolicy := { correctionDistance := -1.0 }
    let once := w.reconcile s policy
    let twice := once.2.reconcile s policy
    w.tracked.Nodup ∧ (s.items.map (·.id)).Nodup ∧
      (∀ item ∈ s.items, item.record.PublishedBy s.tick) ∧
      w.live.length + w.retired.length + s.items.length ≤ retiredCapacity ∧
      once.1.claimed = 1 ∧ once.1.spawned = 1 ∧ once.2.retired.length = 1 ∧
      twice.1.replaced = 1 ∧ twice.2 = once.2 ∧ twice.1.claimed = 0 ∧ twice.1.spawned = 0 ∧
      twice.1.adopted + twice.1.suppressed = 2 := by
  intro w s policy once twice
  have distinct : w.tracked.Nodup := by decide +kernel
  have different : (s.items.map (·.id)).Nodup := by decide
  have published : ∀ item ∈ s.items, item.record.PublishedBy s.tick := by
    intro item hitem
    have hextra : item.record.extra = some { bounces := 3 } ∧ item.record.startTick = 0 := by
      rcases List.mem_cons.mp hitem with rfl | hitem
      · exact ⟨rfl, rfl⟩
      · rw [List.mem_singleton.mp hitem]
        exact ⟨rfl, rfl⟩
    refine ⟨_, hextra.1, ?_⟩
    rw [hextra.2]
    decide
  have room : w.live.length + w.retired.length + s.items.length ≤ retiredCapacity := by
    decide +kernel
  have first : once.1.claimed = 1 ∧ once.1.spawned = 1 ∧ once.2.retired.length = 1 ∧
      twice.1.replaced = 1 := by
    decide +kernel
  have count : s.items.length = 2 := rfl
  -- from here on only these facts count, and nothing is evaluated again
  clear_value w s policy
  obtain ⟨same, claimed, spawned, -, -, confirmed, found⟩ :=
    @reconcile_idempotent w s policy distinct different published room
  rw [confirmed, count] at found
  exact ⟨distinct, different, published, room, first.1, first.2.1, first.2.2.1, first.2.2.2, same,
    claimed, spawned, found⟩

end World

end Volley
