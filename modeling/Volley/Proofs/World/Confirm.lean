/-
# A snapshot of a world's own past

If the shots of a snapshot are all in the world that takes it, each further on in its
flight, then the snapshot only tells the world under which numbers the server knows them.
Every record finds the entity with its own number, by the number it carries or because no
other shot can be meant; nothing is added, replaced, dropped or discarded
(`reconcile_confirms`).

Key definitions: `World.confirm`, `World.confirmBy`, `World.Own`, `World.Publishes`,
`World.Follows`.
Key theorems: `World.takeRecord_confirms`, `World.reconcile_of_kept`,
`World.reconcile_confirms`.
-/
import Volley.Proofs.Shot.Published
import Volley.Proofs.World.Numbering

namespace Volley

/-- An entity that is listed carries its own number as that of the server. -/
def Entity.confirm (listed : EntityId → Bool) (e : Entity) : Entity :=
  if listed e.id then { e with serverId := some e.id } else e

@[simp] theorem Entity.confirm_id (listed : EntityId → Bool) (e : Entity) :
    (e.confirm listed).id = e.id := by
  unfold confirm
  split <;> rfl

@[simp] theorem Entity.confirm_shot (listed : EntityId → Bool) (e : Entity) :
    (e.confirm listed).shot = e.shot := by
  unfold confirm
  split <;> rfl

theorem Entity.confirm_of_carries {listed : EntityId → Bool} {e : Entity}
    (h : listed e.id = true → e.serverId = some e.id) : e.confirm listed = e := by
  unfold confirm
  split
  · rename_i hl
    rw [← h hl]
  · rfl

theorem Entity.confirm_confirm (p q : EntityId → Bool) (e : Entity) :
    (e.confirm p).confirm q = e.confirm fun id => p id || q id := by
  unfold confirm
  cases hp : p e.id <;> cases hq : q e.id <;> simp [hp, hq]

namespace World

/-- The world in which the listed entities carry their own numbers. -/
def confirm (listed : EntityId → Bool) (w : World) : World :=
  { w with
    live := w.live.map (·.confirm listed)
    retired := w.retired.map (·.confirm listed) }

theorem confirm_roster (listed : EntityId → Bool) (w : World) :
    (w.confirm listed).roster = w.roster.map (·.confirm listed) := by
  rw [roster, roster, List.map_append]
  rfl

theorem ids_confirm (listed : EntityId → Bool) (w : World) :
    ids (w.confirm listed).roster = ids w.roster := by
  rw [confirm_roster, ids, List.map_map]
  exact List.map_congr_left fun e _ => e.confirm_id listed

theorem confirm_confirm (p q : EntityId → Bool) (w : World) :
    (w.confirm p).confirm q = w.confirm fun id => p id || q id := by
  simp only [confirm, List.map_map]
  congr 1 <;> exact List.map_congr_left fun e _ => e.confirm_confirm p q

/-- Who is in the world: entities under different numbers, which carry no other number than
their own, and of which no two can be taken for each other. -/
structure Own (policy : MatchPolicy) (w : World) : Prop where
  distinct : (ids w.roster).Nodup
  carries : ∀ e ∈ w.roster, e.serverId = none ∨ e.serverId = some e.id
  apart : ∀ e ∈ w.roster, ∀ e' ∈ w.roster, e.id ≠ e'.id → Shot.Apart policy e.shot e'.shot

/-- The snapshot of `g` says of every shot what it should. -/
structure Publishes (policy : MatchPolicy) (g : World) : Prop where
  timed : ∀ a ∈ g.live, Shot.Timed g.tick a.shot
  started : ∀ a ∈ g.live, a.shot.startTick < g.tick
  encodable : ∀ a ∈ g.live, Shot.Encodable a.shot
  faithful : ∀ a ∈ g.live, a.shot.Faithful policy (g.contextAt g.tick)

/-- The shots of `g` are all in `w`, further on in their flight, and everything that was in
flight then and still is comes from `g`. -/
structure Follows (w g : World) : Prop where
  context : ∀ t, g.contextAt t = w.contextAt t
  seen : ∀ a ∈ g.live, ∃ e ∈ w.roster, e.id = a.id ∧ Shot.Past e.shot a.shot g.tick
  listed : ∀ e ∈ w.live, e.shot.startTick < g.tick → ∃ a ∈ g.live, a.id = e.id
  paired : ∀ e ∈ w.roster, e.serverId ≠ none → e.shot.startTick < g.tick

section

variable {policy : MatchPolicy} {w g : World} {version : UInt32}

theorem Own.eq_of_id (h : Own policy w) {e e' : Entity} (he : e ∈ w.roster)
    (he' : e' ∈ w.roster) (hid : e.id = e'.id) : e = e' :=
  List.inj_on_of_nodup_map h.distinct he he' hid

theorem Own.confirm (h : Own policy w) (listed : EntityId → Bool) :
    Own policy (w.confirm listed) where
  distinct := by
    rw [ids_confirm]
    exact h.distinct
  carries e he := by
    rw [confirm_roster] at he
    obtain ⟨e0, he0, rfl⟩ := List.mem_map.mp he
    unfold Entity.confirm
    split
    · exact Or.inr rfl
    · exact h.carries e0 he0
  apart e he e' he' hne := by
    rw [confirm_roster] at he he'
    obtain ⟨e0, he0, rfl⟩ := List.mem_map.mp he
    obtain ⟨e0', he0', rfl⟩ := List.mem_map.mp he'
    rw [Entity.confirm_id, Entity.confirm_id] at hne
    rw [Entity.confirm_shot, Entity.confirm_shot]
    exact h.apart e0 he0 e0' he0' hne

theorem map_confirm_other {entities : List Entity} {id : EntityId}
    (h : ∀ x ∈ entities, x.id ≠ id) : entities.map (·.confirm (· = id)) = entities := by
  refine (List.map_congr_left fun x hx => ?_).trans (List.map_id entities)
  exact Entity.confirm_of_carries fun hid => absurd (of_decide_eq_true hid) (h x hx)

/-- A list in which one entity is confirmed in its place. -/
theorem map_confirm_place {before after : List Entity} {e : Entity}
    (hb : ∀ x ∈ before, x.id ≠ e.id) (ha : ∀ x ∈ after, x.id ≠ e.id) :
    (before ++ e :: after).map (·.confirm (· = e.id)) =
      before ++ { e with serverId := some e.id } :: after := by
  rw [List.map_append, List.map_cons, map_confirm_other hb, map_confirm_other ha]
  simp [Entity.confirm]

/-- The entities around one of the live ones. -/
theorem Own.around_live (h : Own policy w) {before after : List Entity} {e : Entity}
    (split : w.live = before ++ e :: after) :
    (∀ x ∈ before, x.id ≠ e.id) ∧ (∀ x ∈ after, x.id ≠ e.id) ∧ ∀ x ∈ w.retired, x.id ≠ e.id := by
  have hn := h.distinct
  simp only [roster, split, ids, List.map_append, List.map_cons, List.append_assoc,
    List.cons_append] at hn
  rw [List.nodup_middle, List.nodup_cons] at hn
  have hnot := hn.1
  simp only [List.mem_append, List.mem_map, not_or, not_exists, not_and] at hnot
  exact ⟨hnot.1, hnot.2.1, hnot.2.2⟩

/-- The entities around one of the retired ones. -/
theorem Own.around_retired (h : Own policy w) {before after : List Entity} {e : Entity}
    (split : w.retired = before ++ e :: after) :
    (∀ x ∈ before, x.id ≠ e.id) ∧ (∀ x ∈ after, x.id ≠ e.id) ∧ ∀ x ∈ w.live, x.id ≠ e.id := by
  have hn := h.distinct
  simp only [roster, split, ids, List.map_append, List.map_cons] at hn
  rw [← List.append_assoc, List.nodup_middle, List.nodup_cons] at hn
  have hnot := hn.1
  simp only [List.mem_append, List.mem_map, not_or, not_exists, not_and] at hnot
  exact ⟨hnot.1.2, hnot.2, hnot.1.1⟩

/-- What carries the number of an entity is that entity. -/
theorem Own.eq_of_carries (h : Own policy w) {e e' : Entity} (he : e ∈ w.roster)
    (he' : e' ∈ w.roster) (carries : e.serverId = some e'.id) : e = e' := by
  rcases h.carries e he with hn | hs
  · rw [hn] at carries
    cases carries
  · exact h.eq_of_id he he' (Option.some.inj (hs.symm.trans carries))

/-- Nothing but the entity has its number, so it alone is confirmed. -/
theorem Own.confirm_live (h : Own policy w) {before after : List Entity} {e : Entity}
    (split : w.live = before ++ e :: after) :
    ({ w with live := before ++ { e with serverId := some e.id } :: after } : World) =
      w.confirm (· = e.id) := by
  obtain ⟨hb, ha, hretired⟩ := h.around_live split
  rw [World.confirm, map_confirm_other hretired, split, map_confirm_place hb ha]

theorem Own.confirm_retired (h : Own policy w) {before after : List Entity} {e : Entity}
    (split : w.retired = before ++ e :: after) :
    ({ w with retired := before ++ { e with serverId := some e.id } :: after } : World) =
      w.confirm (· = e.id) := by
  obtain ⟨hb, ha, hlive⟩ := h.around_retired split
  rw [World.confirm, map_confirm_other hlive, split, map_confirm_place hb ha]

/-- An entity that carries its number already is confirmed. -/
theorem Own.confirm_carried (h : Own policy w) {e : Entity} (he : e ∈ w.roster)
    (carries : e.serverId = some e.id) : w.confirm (· = e.id) = w := by
  have hsame : ∀ x ∈ w.roster, x.confirm (· = e.id) = x := by
    refine fun x hx => Entity.confirm_of_carries fun hid => ?_
    rw [h.eq_of_id hx he (of_decide_eq_true hid)]
    exact carries
  rw [World.confirm,
    (List.map_congr_left fun x hx => hsame x (mem_roster_of_live hx)).trans (List.map_id _),
    (List.map_congr_left fun x hx => hsame x (mem_roster_of_retired hx)).trans (List.map_id _)]

/-- Two reports say the same but for what was claimed, adopted or suppressed. -/
structure Calm (r r' : ReconcileReport) : Prop where
  replaced : r'.replaced = r.replaced
  spawned : r'.spawned = r.spawned
  dropped : r'.dropped = r.dropped
  discarded : r'.discarded = r.discarded

theorem Calm.refl (r : ReconcileReport) : Calm r r := ⟨rfl, rfl, rfl, rfl⟩

theorem Calm.trans {r r' r'' : ReconcileReport} (h : Calm r r') (h' : Calm r' r'') :
    Calm r r'' :=
  ⟨h'.replaced.trans h.replaced, h'.spawned.trans h.spawned, h'.dropped.trans h.dropped,
    h'.discarded.trans h.discarded⟩

/-- The item of the snapshot of `g` for one of its shots, as it comes off the wire. -/
def itemOf (g : World) (version : UInt32) (a : Entity) : SnapshotItem :=
  { id := a.id, record := (a.shot.toRecord g.context).onWire version }

theorem onWire_snapshot (g : World) (version : UInt32) :
    g.snapshot.onWire version = { tick := g.tick, items := g.live.map (g.itemOf version) } := by
  simp only [Snapshot.onWire, snapshot, List.map_map]
  rfl

/-- **A record of an own shot.** It confirms the entity with its number. -/
theorem takeRecord_confirms (version : UInt32) (own : Own policy w) (publishes : Publishes policy g)
    (follows : Follows w g) {a : Entity} (ha : a ∈ g.live) (r : ReconcileReport) :
    (takeRecord policy g.tick (g.itemOf version a) (w, r)).1 = w.confirm (· = a.id) ∧
      Calm r (takeRecord policy g.tick (g.itemOf version a) (w, r)).2 := by
  obtain ⟨e, he, hid, hpast⟩ := follows.seen a ha
  have hcontext : g.context = w.contextAt g.tick := follows.context g.tick
  have hfaithful : a.shot.Faithful policy (w.contextAt g.tick) :=
    hcontext ▸ publishes.faithful a ha
  have hencodable := publishes.encodable a ha
  have hrecord : (g.itemOf version a).record =
      (a.shot.toRecord (w.contextAt g.tick)).onWire version := by rw [itemOf, hcontext]
  have hsettle : w.settle policy g.tick (g.itemOf version a).record e.shot = (e.shot, false) := by
    rw [hrecord]
    exact settle_of_past hpast (publishes.timed a ha) hencodable hfaithful
  have hagrees : e.shot.agreesAt (w.confirmed (g.itemOf version a).record g.tick none) g.tick
      policy = true := by
    rw [hrecord]
    exact agreesAt_of_past hpast hencodable hfaithful
  -- only the entity with the number of the record can agree with it
  have honly : ∀ x ∈ w.roster, x.shot.agreesAt
      (w.confirmed (g.itemOf version a).record g.tick none) g.tick policy = true → x = e := by
    intro x hx hagree
    by_contra hne
    have hapart := own.apart x hx e he fun h => hne (own.eq_of_id hx he h)
    rw [hrecord, not_agreesAt_of_apart (hapart.congr rfl hpast.fixed.symm) hencodable] at hagree
    cases hagree
  have hnumber : (g.itemOf version a).id = e.id := hid.symm
  have htaken := taken policy g.tick (g.itemOf version a) w r
  generalize takeRecord policy g.tick (g.itemOf version a) (w, r) = out at htaken
  cases htaken with
  | adopted before x after split carries =>
    have hx : x ∈ w.live := split ▸ List.mem_append_right _ List.mem_cons_self
    rw [hnumber] at carries
    obtain rfl := own.eq_of_carries (mem_roster_of_live hx) he carries
    simp only [hsettle, hnumber, ← hid]
    exact ⟨own.confirm_live split, rfl, rfl, rfl, rfl⟩
  | suppressed flown carried =>
    obtain ⟨x, hx, hs⟩ := mem_serverIds.mp carried
    rw [hnumber] at hs
    obtain rfl := own.eq_of_carries (mem_roster_of_retired hx) he hs
    rw [← hid]
    exact ⟨(own.confirm_carried he hs).symm, rfl, rfl, rfl, rfl⟩
  | claimed before x after new partner =>
    have hx : x ∈ w.live := partner.split ▸ List.mem_append_right _ List.mem_cons_self
    obtain rfl := honly x (mem_roster_of_live hx) partner.agrees
    simp only [hsettle, hnumber, ← hid]
    exact ⟨own.confirm_live partner.split, rfl, rfl, rfl, rfl⟩
  | tagged before x after new unclaimed partner =>
    have hx : x ∈ w.retired := partner.split ▸ List.mem_append_right _ List.mem_cons_self
    obtain rfl := honly x (mem_roster_of_retired hx) partner.agrees
    simp only [hnumber, ← hid]
    exact ⟨own.confirm_retired partner.split, rfl, rfl, rfl, rfl⟩
  | spawned new unclaimed untagged =>
    have hunpaired : e.serverId = none := by
      rcases own.carries e he with h | h
      · exact h
      · exact absurd (mem_tracked.mpr ⟨e, he, h.trans (congrArg some hid)⟩) new
    rcases List.mem_append.mp he with he | he
    · rw [unclaimed e he hunpaired] at hagrees
      cases hagrees
    · rw [untagged e he hunpaired] at hagrees
      cases hagrees

/-- Confirming keeps what `Follows` says, as long as what is confirmed started before. -/
theorem Follows.confirm (follows : Follows w g) (listed : EntityId → Bool)
    (started : ∀ e ∈ w.roster, listed e.id = true → e.shot.startTick < g.tick) :
    Follows (w.confirm listed) g where
  context := follows.context
  seen a ha := by
    obtain ⟨e, he, hid, hpast⟩ := follows.seen a ha
    refine ⟨e.confirm listed, ?_, (e.confirm_id listed).trans hid, ?_⟩
    · rw [confirm_roster]
      exact List.mem_map_of_mem he
    · rw [Entity.confirm_shot]
      exact hpast
  listed e he hstart := by
    obtain ⟨e0, he0, rfl⟩ := List.mem_map.mp he
    rw [Entity.confirm_shot] at hstart
    rw [Entity.confirm_id]
    exact follows.listed e0 he0 hstart
  paired e he hs := by
    rw [confirm_roster] at he
    obtain ⟨e0, he0, rfl⟩ := List.mem_map.mp he
    rw [Entity.confirm_shot]
    by_cases hl : listed e0.id = true
    · exact started e0 he0 hl
    · rw [Entity.confirm, if_neg hl] at hs
      exact follows.paired e0 he0 hs

/-- What has the number of a published shot started when that one did. -/
theorem Follows.startTick_lt (follows : Follows w g) (own : Own policy w)
    (publishes : Publishes policy g) {e a : Entity} (he : e ∈ w.roster) (ha : a ∈ g.live)
    (hid : e.id = a.id) : e.shot.startTick < g.tick := by
  obtain ⟨e', he', hid', hpast⟩ := follows.seen a ha
  obtain rfl := own.eq_of_id he he' (hid.trans hid'.symm)
  have hstart : e.shot.startTick = a.shot.startTick := (congrArg Shot.startTick hpast.fixed :)
  rw [hstart]
  exact publishes.started a ha

/-- The records of own shots confirm the entities with their numbers. -/
theorem foldl_takeRecord_confirms (version : UInt32) (publishes : Publishes policy g)
    {some : List Entity} (hsome : some ⊆ g.live) (own : Own policy w) (follows : Follows w g)
    (r : ReconcileReport) :
    let out := (some.map (g.itemOf version)).foldl
      (fun state item => takeRecord policy g.tick item state) (w, r)
    out.1 = w.confirm (fun id => some.any (·.id = id)) ∧ Calm r out.2 := by
  induction some generalizing w r with
  | nil =>
    refine ⟨?_, Calm.refl r⟩
    have hsame : ∀ e : Entity, e.confirm (fun _ => false) = e := fun e => rfl
    simp only [List.map_nil, List.foldl_nil, List.any_nil, World.confirm, hsame, List.map_id']
  | cons a rest ih =>
    have ha : a ∈ g.live := hsome List.mem_cons_self
    have hrest : rest ⊆ g.live := fun x hx => hsome (List.mem_cons_of_mem _ hx)
    obtain ⟨hworld, hcalm⟩ := takeRecord_confirms version own publishes follows ha r
    have hstarted : ∀ e ∈ w.roster, decide (e.id = a.id) = true → e.shot.startTick < g.tick :=
      fun e he h => follows.startTick_lt own publishes he ha (of_decide_eq_true h)
    have hnext := ih hrest (own.confirm (· = a.id)) (follows.confirm (· = a.id) hstarted)
      (takeRecord policy g.tick (g.itemOf version a) (w, r)).2
    simp only [List.map_cons, List.foldl_cons, List.any_cons]
    rw [← hworld] at hnext
    refine ⟨hnext.1.trans ?_, hcalm.trans hnext.2⟩
    rw [hworld, confirm_confirm]
    congr 1
    funext id
    simp [eq_comm]

theorem sweep_of_flying (flying : ∀ e ∈ w.live, e.shot.removed = false)
    (room : w.retired.length ≤ retiredCapacity) : w.sweep = w := by
  have hlive : w.live.filter (!·.shot.removed) = w.live :=
    List.filter_eq_self.mpr fun e he => by simp [flying e he]
  have hover : w.live.filter (·.shot.removed) = [] :=
    List.filter_eq_nil_iff.mpr fun e he => by simp [flying e he]
  rw [sweep, hlive, hover, List.append_nil, keepLatest_of_le room]

theorem lists_onWire (g : World) (version : UInt32) :
    (g.snapshot.onWire version).lists = fun id => g.live.any (·.id = id) := by
  funext id
  rw [onWire_snapshot, Snapshot.lists, List.any_map]
  rfl

theorem lists_onWire_iff {id : EntityId} :
    (g.snapshot.onWire version).lists id = true ↔ ∃ a ∈ g.live, a.id = id := by
  rw [lists_onWire, List.any_eq_true]
  simp only [decide_eq_true_eq]

/-- The records of a snapshot of the world's own past confirm what it lists. -/
theorem takeRecords_confirms (version : UInt32) (own : Own policy w)
    (publishes : Publishes policy g) (follows : Follows w g) :
    let s := g.snapshot.onWire version
    let start : ReconcileReport := { tick := s.tick, confirmed := s.items.length }
    w.withRecords s policy = w.confirm s.lists ∧
      Calm start (takeRecords policy s (w, start)).2 := by
  intro s start
  have hall := foldl_takeRecord_confirms version publishes (List.Subset.refl g.live) own follows
    start
  have hrecords : takeRecords policy s (w, start) =
      (g.live.map (g.itemOf version)).foldl
        (fun state item => takeRecord policy g.tick item state) (w, start) := by
    simp only [takeRecords, s, onWire_snapshot]
  have hlists : s.lists = _ := g.lists_onWire version
  rw [withRecords, hlists, hrecords]
  exact hall

/-- If everything in flight stays there, then a reconciliation only takes the records and
forgets retired entities. -/
theorem reconcile_of_kept {s : Snapshot}
    (kept : ∀ e ∈ (w.withRecords s policy).live,
      isDropped s e = false ∧ isDiscarded policy s e = false)
    (flying : ∀ e ∈ (w.withRecords s policy).live, e.shot.removed = false)
    (room : (w.withRecords s policy).retired.length ≤ retiredCapacity) :
    w.reconcile s policy =
      ((takeRecords policy s (w, { tick := s.tick, confirmed := s.items.length })).2,
        prune policy s (w.withRecords s policy)) := by
  have hmark : (w.withRecords s policy).live.map (markGone policy s) =
      (w.withRecords s policy).live := by
    refine (List.map_congr_left fun e he => ?_).trans (List.map_id _)
    obtain ⟨hdropped, hdiscarded⟩ := kept e he
    simp [markGone, gone, hdropped, hdiscarded]
  have hdrop : (w.withRecords s policy).live.countP (isDropped s) = 0 :=
    List.countP_eq_zero.mpr fun e he => by simp [(kept e he).1]
  have hdiscard : (w.withRecords s policy).live.countP (isDiscarded policy s) = 0 :=
    List.countP_eq_zero.mpr fun e he => by simp [(kept e he).2]
  have hreport : (w.reconcile s policy).1 =
      (let r := (takeRecords policy s (w, { tick := s.tick, confirmed := s.items.length })).2
      { r with
        dropped := r.dropped + (w.withRecords s policy).live.countP (isDropped s)
        discarded := r.discarded + (w.withRecords s policy).live.countP (isDiscarded policy s) }) :=
    rfl
  refine Prod.ext ?_ ?_
  · rw [hreport, hdrop, hdiscard]
    rfl
  · rw [reconcile_world, marked, hmark]
    exact congrArg _ (sweep_of_flying flying room)

theorem horizon_le (policy : MatchPolicy) (s : Snapshot) : horizon policy s ≤ s.tick :=
  Tick.minus_le (Tick.atLeastZero_nonneg policy.tickWindow)

/-- An entity that is listed, or that started too late to be, is still needed. -/
theorem Follows.stays (follows : Follows w g) (policy : MatchPolicy) (version : UInt32)
    {e : Entity} (he : e ∈ w.roster)
    (listed : e.shot.startTick < g.tick → ∃ a ∈ g.live, a.id = e.id) :
    isDropped (g.snapshot.onWire version) (e.confirm (g.snapshot.onWire version).lists) = false ∧
      isDiscarded policy (g.snapshot.onWire version)
        (e.confirm (g.snapshot.onWire version).lists) = false := by
  by_cases hl : (g.snapshot.onWire version).lists e.id = true
  · have hcarries : (e.confirm (g.snapshot.onWire version).lists).serverId = some e.id := by
      rw [Entity.confirm, if_pos hl]
    simp [isDropped, isDiscarded, hcarries, hl]
  · have hlate : ¬e.shot.startTick < g.tick := by
      intro hstart
      exact hl (lists_onWire_iff.mpr (listed hstart))
    have hunpaired : e.serverId = none := by
      by_contra hs
      exact hlate (follows.paired e he hs)
    have hhorizon : ¬e.shot.startTick < horizon policy (g.snapshot.onWire version) :=
      fun h => hlate (Int32.lt_of_lt_of_le h (horizon_le policy _))
    rw [Entity.confirm, if_neg hl]
    simp [isDropped, isDiscarded, hunpaired, hhorizon]

/-- The world in which a snapshot has confirmed what it lists and nothing else has happened. -/
def confirmBy (policy : MatchPolicy) (s : Snapshot) (w : World) : World :=
  prune policy s (w.confirm s.lists)

/-- **A snapshot of the world's own past.** It confirms what it lists, forgets retired
entities that are no longer needed, and reports no surprise. -/
theorem reconcile_confirms (version : UInt32) (own : Own policy w) (publishes : Publishes policy g)
    (follows : Follows w g) (flying : ∀ e ∈ w.live, e.shot.removed = false)
    (room : w.retired.length ≤ retiredCapacity) :
    (w.reconcile (g.snapshot.onWire version) policy).2 =
        w.confirmBy policy (g.snapshot.onWire version) ∧
      (w.reconcile (g.snapshot.onWire version) policy).1.replaced = 0 ∧
      (w.reconcile (g.snapshot.onWire version) policy).1.spawned = 0 ∧
      (w.reconcile (g.snapshot.onWire version) policy).1.dropped = 0 ∧
      (w.reconcile (g.snapshot.onWire version) policy).1.discarded = 0 := by
  obtain ⟨hrecords, hcalm⟩ := takeRecords_confirms version own publishes follows
  have hkept := @reconcile_of_kept policy w (g.snapshot.onWire version)
  rw [hrecords] at hkept
  rw [hkept]
  · exact ⟨rfl, hcalm.replaced, hcalm.spawned, hcalm.dropped, hcalm.discarded⟩
  · intro e he
    obtain ⟨e0, he0, rfl⟩ := List.mem_map.mp he
    exact follows.stays policy version (mem_roster_of_live he0) (follows.listed e0 he0)
  · intro e he
    obtain ⟨e0, he0, rfl⟩ := List.mem_map.mp he
    rw [Entity.confirm_shot]
    exact flying e0 he0
  · simpa [World.confirm] using room

end

end World

end Volley
