/-
# What a paired shot becomes

A record that is paired with a live entity leaves it with one of two shots. The first is the
entity's own shot with what the server decides; it stays if it was launched after the
snapshot, or was near enough to where the record has it. In all other cases, also when the
distance is not a number, it gives way to the shot of the record, ticked through every tick
from the snapshot to that of the world.

Which entities are paired is written down record by record (`pairings`), as the world is when
the turn of the record comes. If the items are different, no other record touches the place of
a paired entity (`places_of_pairings`), so both the entity and what it becomes can be read off
the world before the snapshot.

Key definitions: `World.wayUp`, `World.Pairing`, `World.Pairing.near`,
`World.Pairing.corrected`, `World.Handled`, `World.pairingsIn`.
Key theorems: `World.runTo_eq_after`, `World.handled`, `World.counted_takeRecords`,
`World.places_of_pairings`, `World.replaced_unless_near`.
-/
import Volley.Proofs.Scalar.Value
import Volley.Proofs.Shot.Lifespan
import Volley.Proofs.World.Accounts
import Volley.Proofs.World.Bounces
import Volley.Proofs.World.Retired

namespace Volley

namespace World

variable {policy : MatchPolicy} {seen : Tick} {item : SnapshotItem} {w : World} {s : Snapshot}

/-! ### The way up -/

/-- What shots see at each tick after `seen`, up to that of the world. -/
def wayUp (w : World) (seen : Tick) : List TickContext :=
  (List.range (seen.stepsUpTo w.tick)).map fun (k : Nat) =>
    w.contextAt (Int32.ofInt (seen.toInt + (k + 1)))

/-- A shot that is brought up to date goes through each of these ticks. -/
theorem runTo_eq_after (w : World) (seen : Tick) (shot : Shot) :
    shot.runTo (w.contextAt seen) w.tick = shot.after (w.wayUp seen) := by
  have hway : (w.contextAt seen).upcoming (seen.stepsUpTo w.tick) = w.wayUp seen := by
    rw [TickContext.upcoming_eq_map, wayUp]
    refine List.map_congr_left fun k hk => ?_
    have hk := List.mem_range.mp hk
    have hsteps : seen.stepsUpTo w.tick = (w.tick.toInt - seen.toInt).toNat := rfl
    have hlow := seen.minValue_le_toInt
    have hhigh := w.tick.toInt_le
    have hmin : Int32.minValue.toInt = -2 ^ 31 := rfl
    have hmax : Int32.maxValue.toInt = 2 ^ 31 - 1 := rfl
    have htick : ((w.contextAt seen).later k).tick.next =
        Int32.ofInt (seen.toInt + (k + 1)) := by
      apply Int32.toInt_inj.mp
      have hlater := (w.contextAt seen).toInt_later (k + 1)
      have hseen : (w.contextAt seen).tick = seen := rfl
      rw [hseen] at hlater
      rw [Int32.toInt_ofInt_of_le (by omega) (by omega)]
      show ((w.contextAt seen).later (k + 1)).tick.toInt = _
      omega
    rw [TickContext.later, htick]
    rfl
  rw [← hway]
  exact Shot.advanceSilently_eq_ticked _ _ _

/-! ### A pairing -/

/-- A record, the live entity that it is paired with, and the place of that entity. -/
structure Pairing where
  item : SnapshotItem
  partner : Entity
  place : Nat

namespace Pairing

/-- The shot of the record, as of the context. The block that may be missing is that of the
partner, before it takes anything over. -/
def server (ctx : TickContext) (p : Pairing) : Shot :=
  Shot.ofRecord ctx { p.item.record with
    extra := p.item.record.extra.or (some (p.partner.shot.extraAt ctx.tick)) }

/-- The shot of the partner, after it has taken over what the server decides. -/
def adopted (ctx : TickContext) (p : Pairing) : Shot := p.partner.shot.adopt (p.server ctx)

/-- How far that shot was from where the record has it. -/
def distance (ctx : TickContext) (p : Pairing) : Scalar :=
  ((p.adopted ctx).positionIn ctx).distance p.item.record.position

/-- It was launched later, or was near enough. -/
def near (ctx : TickContext) (policy : MatchPolicy) (p : Pairing) : Prop :=
  ctx.tick < (p.adopted ctx).launchTick ∨ p.distance ctx ≤ policy.correctionDistance

instance (ctx : TickContext) (policy : MatchPolicy) (p : Pairing) :
    Decidable (p.near ctx policy) := inferInstanceAs (Decidable (_ ∨ _))

/-- The partner as its record leaves it. -/
def corrected (w : World) (seen : Tick) (policy : MatchPolicy) (p : Pairing) : Entity :=
  { p.partner with
    serverId := some p.item.id
    shot :=
      if p.near (w.contextAt seen) policy then p.adopted (w.contextAt seen)
      else (p.server (w.contextAt seen)).after (w.wayUp seen) }

/-- What is no number is not near. -/
theorem not_near_of_isNaN {ctx : TickContext} {p : Pairing}
    (launched : (p.adopted ctx).launchTick ≤ ctx.tick) (nan : (p.distance ctx).isNaN = true) :
    ¬p.near ctx policy := by
  rintro (hlater | hdistance)
  · exact Int32.not_lt.mpr launched hlater
  · have hnumber := (Scalar.le_iff_value.mp hdistance).1
    rw [nan] at hnumber
    cases hnumber

/-- A record settles its partner in this way. -/
theorem settle_eq (w : World) (seen : Tick) (policy : MatchPolicy) (p : Pairing) :
    settled policy seen p.item w p.partner = p.corrected w seen policy ∧
      (w.settle policy seen p.item.record p.partner.shot).2 =
        decide (¬p.near (w.contextAt seen) policy) := by
  have hserver : w.confirmed p.item.record seen (some p.partner.shot) =
      p.server (w.contextAt seen) := rfl
  have hnear : (decide (seen < (p.adopted (w.contextAt seen)).launchTick) ||
      decide (w.deviation (p.adopted (w.contextAt seen)) p.item.record seen ≤
        policy.correctionDistance)) = decide (p.near (w.contextAt seen) policy) :=
    (Bool.decide_or _ _).symm
  have hadopted : p.partner.shot.adopt (p.server (w.contextAt seen)) =
      p.adopted (w.contextAt seen) := rfl
  unfold settled corrected settle
  simp only [hserver, hadopted, hnear, runTo_eq_after, decide_eq_true_eq]
  split <;> simp [*]

end Pairing

/-! ### One record -/

/-- A record is paired with this live entity. -/
def pairing (policy : MatchPolicy) (seen : Tick) (item : SnapshotItem) (w : World) :
    List Pairing :=
  (livePlace policy seen item w).toList.map fun place => ⟨item, place.1, place.2⟩

/-- The report `r'` counts the pairings besides what `r` has counted. -/
structure Counted (policy : MatchPolicy) (ctx : TickContext) (r r' : ReconcileReport)
    (ps : List Pairing) : Prop where
  claimed : r'.claimed = r.claimed + ps.countP (·.partner.serverId.isNone)
  adopted : r'.adopted = r.adopted + ps.countP (·.partner.serverId.isSome)
  replaced : r'.replaced = r.replaced + ps.countP (¬·.near ctx policy)

theorem Counted.nil {ctx : TickContext} {r r' : ReconcileReport} (claimed : r'.claimed = r.claimed)
    (adopted : r'.adopted = r.adopted) (replaced : r'.replaced = r.replaced) :
    Counted policy ctx r r' [] where
  claimed := by rw [claimed, List.countP_nil, Nat.add_zero]
  adopted := by rw [adopted, List.countP_nil, Nat.add_zero]
  replaced := by rw [replaced, List.countP_nil, Nat.add_zero]

theorem Counted.trans {ctx : TickContext} {r r' r'' : ReconcileReport} {ps ps' : List Pairing}
    (h : Counted policy ctx r r' ps) (h' : Counted policy ctx r' r'' ps') :
    Counted policy ctx r r'' (ps ++ ps') where
  claimed := by rw [h'.claimed, h.claimed, List.countP_append, Nat.add_assoc]
  adopted := by rw [h'.adopted, h.adopted, List.countP_append, Nat.add_assoc]
  replaced := by rw [h'.replaced, h.replaced, List.countP_append, Nat.add_assoc]

/-- A record puts what becomes of its partner in the place of the partner, or touches no live
entity at all. What it adds then carries its number. -/
inductive Handled (policy : MatchPolicy) (seen : Tick) (item : SnapshotItem) (w : World)
    (r : ReconcileReport) : List Pairing → World × ReconcileReport → Prop where
  | paired (p : Pairing) (out : World × ReconcileReport) (same : p.item = item)
      (stood : w.live[p.place]? = some p.partner)
      (free : p.partner.serverId = none ∨ p.partner.serverId = some item.id)
      (live : out.1.live = w.live.set p.place (p.corrected w seen policy))
      (counted : Counted policy (w.contextAt seen) r out.2 [p]) :
      Handled policy seen item w r [p] out
  | unpaired (out : World × ReconcileReport) (added : List Entity)
      (live : out.1.live = w.live ++ added) (carry : ∀ e ∈ added, e.serverId = some item.id)
      (counted : Counted policy (w.contextAt seen) r out.2 []) :
      Handled policy seen item w r [] out

theorem live_pairLive (w : World) (seen : Tick) (policy : MatchPolicy) (p : Pairing) :
    (w.pairLive policy seen p.item (p.partner, p.place)).1.live =
      w.live.set p.place (p.corrected w seen policy) :=
  congrArg (w.live.set p.place) (p.settle_eq w seen policy).1

theorem replaced_pairLive (w : World) (seen : Tick) (policy : MatchPolicy) (p : Pairing) :
    (w.pairLive policy seen p.item (p.partner, p.place)).2.toNat =
      [p].countP (¬·.near (w.contextAt seen) policy) := by
  show (w.settle policy seen p.item.record p.partner.shot).2.toNat = _
  rw [(p.settle_eq w seen policy).2, List.countP_singleton]
  by_cases hnear : p.near (w.contextAt seen) policy <;> simp [hnear]

theorem handled (policy : MatchPolicy) (seen : Tick) (item : SnapshotItem) (w : World)
    (r : ReconcileReport) :
    Handled policy seen item w r (pairing policy seen item w)
      (takeRecord policy seen item (w, r)) := by
  have h := placed policy seen item w r
  unfold pairing
  generalize livePlace policy seen item w = found, takeRecord policy seen item (w, r) = out at h
  cases h with
  | adopted place stands carries =>
    let p : Pairing := ⟨item, place.1, place.2⟩
    refine .paired p _ rfl (List.mem_zipIdx_iff_getElem?.mp stands) (Or.inr carries)
      (live_pairLive w seen policy p) ?_
    exact {
      claimed := by simp [p, carries]
      adopted := by simp [p, carries]
      replaced := congrArg (r.replaced + ·) (replaced_pairLive w seen policy p) }
  | claimed place stands free =>
    let p : Pairing := ⟨item, place.1, place.2⟩
    refine .paired p _ rfl (List.mem_zipIdx_iff_getElem?.mp stands) (Or.inl free)
      (live_pairLive w seen policy p) ?_
    exact {
      claimed := by simp [p, free]
      adopted := by simp [p, free]
      replaced := congrArg (r.replaced + ·) (replaced_pairLive w seen policy p) }
  | suppressed =>
    exact .unpaired _ [] (List.append_nil _).symm (List.forall_mem_nil _) (.nil rfl rfl rfl)
  | tagged place =>
    exact .unpaired _ [] (List.append_nil _).symm (List.forall_mem_nil _) (.nil rfl rfl rfl)
  | spawned => exact .unpaired _ _ rfl (by simp) (.nil rfl rfl rfl)

variable {r : ReconcileReport} {ps : List Pairing} {out : World × ReconcileReport}

/-- An entity with another number stays where it stands. -/
theorem Handled.place_kept (h : Handled policy seen item w r ps out) {i : Nat} {e : Entity}
    (stands : w.live[i]? = some e) {id : EntityId} (carries : e.serverId = some id)
    (other : item.id ≠ id) : out.1.live[i]? = some e := by
  cases h with
  | paired p out same stood free live =>
    have helse : p.place ≠ i := by
      rintro rfl
      obtain rfl := Option.some.inj (stands.symm.trans stood)
      rcases free with hfree | hcarried
      · rw [hfree] at carries
        cases carries
      · exact other (Option.some.inj (hcarried.symm.trans carries))
    rw [live, List.getElem?_set_ne helse]
    exact stands
  | unpaired out added live =>
    obtain ⟨hlt, -⟩ := List.getElem?_eq_some_iff.mp stands
    rw [live, List.getElem?_append_left hlt]
    exact stands

/-- An entity that does not have the number of the record stood there before. -/
theorem Handled.stood_before (h : Handled policy seen item w r ps out) {i : Nat} {e : Entity}
    (stands : out.1.live[i]? = some e) (other : e.serverId ≠ some item.id) :
    w.live[i]? = some e := by
  cases h with
  | paired p out same stood free live =>
    obtain ⟨hlt, -⟩ := List.getElem?_eq_some_iff.mp stood
    rw [live] at stands
    by_cases hplace : p.place = i
    · subst hplace same
      rw [List.getElem?_set_self hlt] at stands
      obtain rfl := Option.some.inj stands
      exact absurd rfl other
    · rwa [List.getElem?_set_ne hplace] at stands
  | unpaired out added live carry =>
    rw [live] at stands
    rcases Nat.lt_or_ge i w.live.length with hlt | hge
    · rwa [List.getElem?_append_left hlt] at stands
    · rw [List.getElem?_append_right hge] at stands
      exact absurd (carry e (List.mem_of_getElem? stands)) other

theorem Handled.counted (h : Handled policy seen item w r ps out) :
    Counted policy (w.contextAt seen) r out.2 ps := by
  cases h <;> assumption

theorem Handled.items (h : Handled policy seen item w r ps out) :
    (ps.map (·.item)).Sublist [item] := by
  cases h with
  | paired p out same =>
    rw [List.map_singleton, same]
  | unpaired => exact List.nil_sublist _

/-- The partner stood in its place, and what it has become stands there now. -/
theorem Handled.places (h : Handled policy seen item w r ps out) {p : Pairing} (hp : p ∈ ps) :
    p.item = item ∧ w.live[p.place]? = some p.partner ∧
      (p.partner.serverId = none ∨ p.partner.serverId = some p.item.id) ∧
      out.1.live[p.place]? = some (p.corrected w seen policy) := by
  cases h with
  | paired q out same stood free live =>
    obtain rfl := List.mem_singleton.mp hp
    subst same
    obtain ⟨hlt, -⟩ := List.getElem?_eq_some_iff.mp stood
    refine ⟨rfl, stood, free, ?_⟩
    rw [live, List.getElem?_set_self hlt]
  | unpaired => cases hp

/-! ### All records -/

/-- The pairings of some records, each as the world is when its turn comes. -/
def pairings (policy : MatchPolicy) (seen : Tick) :
    World × ReconcileReport → List SnapshotItem → List Pairing
  | _, [] => []
  | state, item :: rest =>
    pairing policy seen item state.1 ++
      pairings policy seen (takeRecord policy seen item state) rest

/-- The pairings of a snapshot. -/
def pairingsIn (w : World) (s : Snapshot) (policy : MatchPolicy) : List Pairing :=
  pairings policy s.tick (w, { tick := s.tick, confirmed := s.items.length }) s.items

theorem items_pairings (policy : MatchPolicy) (seen : Tick) (state : World × ReconcileReport)
    (items : List SnapshotItem) :
    ((pairings policy seen state items).map (·.item)).Sublist items := by
  induction items generalizing state with
  | nil => exact List.Sublist.slnil
  | cons item rest ih =>
    rw [pairings, List.map_append]
    exact (handled policy seen item state.1 state.2).items.append (ih _)

/-- The report of all records counts their pairings. -/
theorem counted_takeRecords (policy : MatchPolicy) (seen : Tick) (items : List SnapshotItem)
    (state : World × ReconcileReport) :
    Counted policy (state.1.contextAt seen) state.2
      (items.foldl (fun state item => takeRecord policy seen item state) state).2
      (pairings policy seen state items) := by
  induction items generalizing state with
  | nil => exact .nil rfl rfl rfl
  | cons item rest ih =>
    have hcontext := (taken policy seen item state.1 state.2).contextAt.2
    have hrest := ih (takeRecord policy seen item state)
    rw [hcontext] at hrest
    exact (handled policy seen item state.1 state.2).counted.trans hrest

/-- An entity with a number that no record has stays where it stands. -/
theorem place_kept {i : Nat} {e : Entity} {id : EntityId} (carries : e.serverId = some id)
    {items : List SnapshotItem} (other : ∀ item ∈ items, item.id ≠ id)
    {state : World × ReconcileReport} (stands : state.1.live[i]? = some e) :
    (items.foldl (fun state item => takeRecord policy seen item state) state).1.live[i]? =
      some e := by
  induction items generalizing state with
  | nil => exact stands
  | cons item rest ih =>
    have hfirst := (handled policy seen item state.1 state.2).place_kept stands carries
      (other item List.mem_cons_self)
    exact ih (fun i hi => other i (List.mem_cons_of_mem _ hi)) hfirst

/-- **Different records touch different places.** A paired entity stands in its place until its
record comes, and what the record makes of it stays there. -/
theorem places_of_pairings {items : List SnapshotItem} (distinct : (items.map (·.id)).Nodup)
    (state : World × ReconcileReport) : ∀ p ∈ pairings policy seen state items,
      state.1.live[p.place]? = some p.partner ∧
        (p.partner.serverId = none ∨ p.partner.serverId = some p.item.id) ∧
        (items.foldl (fun state item => takeRecord policy seen item state) state).1.live[p.place]? =
          some (p.corrected state.1 seen policy) := by
  induction items generalizing state with
  | nil => exact fun _ hp => nomatch hp
  | cons item rest ih =>
    have hrest : (rest.map (·.id)).Nodup := (List.nodup_cons.mp distinct).2
    have hother : ∀ i ∈ rest, i.id ≠ item.id := (@ids_around item [] rest distinct).2
    have hrecord := handled policy seen item state.1 state.2
    intro p hp
    rcases List.mem_append.mp hp with hfirst | hlater
    · obtain ⟨rfl, hstood, hfree, hstands⟩ := hrecord.places hfirst
      exact ⟨hstood, hfree, place_kept rfl hother hstands⟩
    · obtain ⟨hstands, hfree, hafter⟩ := ih hrest (takeRecord policy seen item state) p hlater
      have hitem : p.item ∈ rest :=
        (items_pairings policy seen _ rest).subset (List.mem_map_of_mem hlater)
      have hcarries : p.partner.serverId ≠ some item.id := by
        rcases hfree with hfree | hcarried
        · simp [hfree]
        · rw [hcarried]
          exact fun heq => hother p.item hitem (Option.some.inj heq)
      have hcontext := (taken policy seen item state.1 state.2).contextAt
      have hcorrected : p.corrected (takeRecord policy seen item state).1 seen policy =
          p.corrected state.1 seen policy := by
        rw [← (p.settle_eq _ seen policy).1, ← (p.settle_eq _ seen policy).1,
          settled_congr hcontext.1 hcontext.2]
      rw [hcorrected] at hafter
      exact ⟨hrecord.stood_before hstands hcarries, hfree, hafter⟩

/-! ### A whole snapshot -/

/-- What a listed entity has become is in flight after the snapshot, or retired, unless the
retired ones are too many. -/
theorem mem_reconcile_of_listed {e : Entity} (he : e ∈ (w.withRecords s policy).live)
    (carries : e.serverId = some item.id) (listed : item ∈ s.items) :
    if e.shot.removed then
      e ∈ (w.reconcile s policy).2.retired ∨ e ∈ w.crowdedOut s policy
    else e ∈ (w.reconcile s policy).2.live := by
  have hlists : s.lists item.id = true :=
    List.any_eq_true.mpr ⟨item, listed, decide_eq_true rfl⟩
  have hstays : gone policy s e = false := by
    rw [gone_of_serverId carries, hlists]
    rfl
  split
  · rename_i ended
    have hmarked : e ∈ (w.marked s policy).live := by
      have hsame : markGone policy s e = e := by simp [markGone, hstays]
      exact hsame ▸ List.mem_map_of_mem he
    have hput : e ∈ w.putAway s policy :=
      List.mem_append_right _ (List.mem_filter.mpr ⟨hmarked, ended⟩)
    rw [← crowdedOut_append_keepLatest, List.mem_append] at hput
    refine hput.symm.imp_left fun hkept => ?_
    rw [reconcile_retired, List.mem_filter]
    exact ⟨hkept, by rw [← not_gone, hstays]; rfl⟩
  · rename_i flying
    rw [reconcile_filter, List.mem_filter]
    exact ⟨he, by simp [flying, hstays]⟩

/-- **What a paired shot becomes.** Let the items of a snapshot be different. The pairings
are of different records, and the report counts as claimed those of unpaired entities, as
adopted all others, and as replaced those whose shot was not near to where the record has it.
Every paired entity is as it was before the snapshot when its record comes. It keeps its place
and its number and carries that of the record. Its shot is its own one with what the server
decides, if that was near, and else the shot of the record after every tick since. What is no
number is not near, and what the server decides is not the trajectory. -/
theorem replaced_unless_near (w : World) (s : Snapshot) (policy : MatchPolicy)
    (distinct : (s.items.map (·.id)).Nodup) :
    let r := (w.reconcile s policy).1
    let w' := (w.reconcile s policy).2
    let ctx := w.contextAt s.tick
    let ps := w.pairingsIn s policy
    (ps.map (·.item)).Sublist s.items ∧
      r.claimed = ps.countP (·.partner.serverId.isNone) ∧
      r.adopted = ps.countP (·.partner.serverId.isSome) ∧
      r.replaced = ps.countP (¬·.near ctx policy) ∧
      ∀ p ∈ ps, let e := p.corrected w s.tick policy
        w.live[p.place]? = some p.partner ∧
        (w.withRecords s policy).live[p.place]? = some e ∧
        (if e.shot.removed then e ∈ w'.retired ∨ e ∈ w.crowdedOut s policy else e ∈ w'.live) ∧
        (Numbered w → w.nextId.toNat + r.spawned < UInt64.size →
          ∀ e' ∈ w'.roster, e'.id = p.partner.id → e' = e) ∧
        ((p.adopted ctx).launchTick ≤ s.tick → (p.distance ctx).isNaN = true →
          ¬p.near ctx policy) ∧
        p.adopted ctx = { p.partner.shot with
          bounces := (p.adopted ctx).bounces
          lifespan := (p.server ctx).lifespan
          explosive := (p.server ctx).explosive
          freeze := (p.server ctx).freeze
          force := (p.server ctx).force
          impactSound := (p.server ctx).impactSound
          tuneZone := (p.server ctx).tuneZone
          layer := (p.server ctx).layer
          number := (p.server ctx).number } := by
  intro r w' ctx ps
  have hitems : (ps.map (·.item)).Sublist s.items := items_pairings ..
  have counted : Counted policy ctx _ (takeRecords policy s (w, _)).2 ps :=
    counted_takeRecords policy s.tick s.items (w, { tick := s.tick, confirmed := s.items.length })
  refine ⟨hitems, ?_, ?_, ?_, fun p hp => ?_⟩
  · exact counted.claimed.trans (Nat.zero_add _)
  · exact counted.adopted.trans (Nat.zero_add _)
  · exact counted.replaced.trans (Nat.zero_add _)
  intro e
  obtain ⟨hstood, -, hstands⟩ := places_of_pairings distinct _ p hp
  have hlive : (w.withRecords s policy).live[p.place]? = some e := hstands
  have hmem := List.mem_of_getElem? hlive
  refine ⟨hstood, hlive, ?_, fun numbered room e' stays same => ?_,
    Pairing.not_near_of_isNaN, rfl⟩
  · exact mem_reconcile_of_listed hmem rfl (hitems.subset (List.mem_map_of_mem hp))
  · have hnumbered := numbered.withRecords room
    exact List.inj_on_of_nodup_map hnumbered.nodup (not_gone_of_mem_reconcile stays).1
      (mem_roster_of_live hmem) same

/-- The world at the tick 4 in which the grenade was fired a tick later than on the server. -/
def tardy : World := (lobbed 1 1).steps 2

/-- With a small tolerance, the grenade is claimed and replaced by that of the server, which
takes the two ticks since. -/
theorem tardy_replaced :
    let policy : MatchPolicy := { correctionDistance := 1.0 }
    let r := (tardy.reconcile lobSnapshot policy).1
    let ctx := tardy.contextAt lobSnapshot.tick
    (lobSnapshot.items.map (·.id)).Nodup ∧ r.claimed = 1 ∧ r.adopted = 0 ∧ r.replaced = 1 ∧
      (tardy.wayUp lobSnapshot.tick).length = 2 ∧
      ∃ p ∈ tardy.pairingsIn lobSnapshot policy, ¬p.near ctx policy ∧
        tardy.live[p.place]? = some p.partner ∧ p.partner.serverId = none ∧
        ∃ e ∈ (tardy.reconcile lobSnapshot policy).2.live, e.id = p.partner.id ∧
          e.serverId = some ⟨1⟩ ∧ e.shot = (p.server ctx).after (tardy.wayUp lobSnapshot.tick) := by
  intro policy r ctx
  have counts : r.claimed = 1 ∧ r.adopted = 0 ∧ r.replaced = 1 := by decide +kernel
  have ticks : (tardy.wayUp lobSnapshot.tick).length = 2 := by decide +kernel
  have none_retired : (tardy.reconcile lobSnapshot policy).2.retired.length = 0 ∧
      (tardy.crowdedOut lobSnapshot policy).length = 0 := by decide +kernel
  have distinct : (lobSnapshot.items.map (·.id)).Nodup := by decide
  obtain ⟨hitems, hclaimed, hadopted, hreplaced, hpairs⟩ :=
    replaced_unless_near tardy lobSnapshot policy distinct
  obtain ⟨p, hp, hfar⟩ := List.countP_pos_iff.mp (show 0 < _ by
    rw [← hreplaced, counts.2.2]
    exact Nat.one_pos)
  have hfar : ¬p.near ctx policy := of_decide_eq_true hfar
  obtain ⟨hstood, -, hstays, -⟩ := hpairs p hp
  have hitem : p.item = lobItem := by
    have hmem := hitems.subset (List.mem_map_of_mem hp)
    exact List.mem_singleton.mp hmem
  have hfree : p.partner.serverId = none := by
    have hnone : (tardy.pairingsIn lobSnapshot policy).countP (·.partner.serverId.isSome) = 0 :=
      hadopted.symm.trans counts.2.1
    simpa using List.countP_eq_zero.mp hnone p hp
  refine ⟨distinct, counts.1, counts.2.1, counts.2.2, ticks, p, hp, hfar, hstood, hfree,
    p.corrected tardy lobSnapshot.tick policy, ?_, rfl, ?_, ?_⟩
  · split at hstays
    · rcases hstays with hmem | hmem
      · rw [List.length_eq_zero_iff.mp none_retired.1] at hmem
        cases hmem
      · rw [List.length_eq_zero_iff.mp none_retired.2] at hmem
        cases hmem
    · exact hstays
  · show some p.item.id = _
    rw [hitem]
    rfl
  · exact if_neg hfar

end World

end Volley
