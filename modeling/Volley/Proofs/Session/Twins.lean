/-
# Two worlds in lockstep

The world of a client and the world of its server are twins if the same flights are in the
air in both, under the same numbers. Firing and stepping keep them twins, and so does a
snapshot that the server posted earlier, however much has happened since (`Mail`).

The client's world is the larger one: it keeps what has ended as long as a snapshot under
way may still list it.

Key definitions: `World.Twins`, `World.Precedes`, `World.Mail`.
Key theorems: `World.Twins.fire`, `World.Twins.step`, `World.Twins.take`, `World.Mail.step`,
`World.Mail.post`, `World.Mail.take`.
-/
import Volley.Proofs.World.Confirm

namespace Volley

/-- An entity without its pairing. -/
def Entity.flight (e : Entity) : EntityId × Shot := (e.id, e.shot)

/-- The same entity with the same pairing, whose shot may be further on. -/
structure Entity.Same (e' e : Entity) : Prop where
  id : e'.id = e.id
  serverId : e'.serverId = e.serverId
  fixed : e'.shot.fixed = e.shot.fixed

theorem Entity.Same.refl (e : Entity) : Entity.Same e e := ⟨rfl, rfl, rfl⟩

theorem Entity.Same.startTick {e' e : Entity} (h : e'.Same e) :
    e'.shot.startTick = e.shot.startTick :=
  (congrArg Shot.startTick h.fixed :)

namespace World

/-! ### One world -/

theorem sweepFits_of_room {w : World} (room : w.sweep.retired.length < retiredCapacity) :
    w.SweepFits := by
  simp only [sweep, keepLatest, List.length_drop, List.length_append] at room
  rw [SweepFits, removedCount, List.countP_eq_length_filter]
  unfold retiredCapacity at *
  omega

/-- What is in the world after a shot is what was in it before, and the shot. -/
theorem mem_roster_fire {w : World} {l : Launch} {e : Entity} :
    e ∈ (w.fire l).2.roster ↔ e ∈ w.roster ∨
      e = { id := ⟨w.nextId⟩, serverId := none, shot := Shot.fire w.context l } := by
  simp only [fire, insert, roster, List.append_assoc, List.mem_append, List.mem_singleton]
  tauto

theorem mem_live_fire {w : World} {l : Launch} {e : Entity} :
    e ∈ (w.fire l).2.live ↔ e ∈ w.live ∨
      e = { id := ⟨w.nextId⟩, serverId := none, shot := Shot.fire w.context l } := by
  simp only [fire, insert, List.mem_append, List.mem_singleton]

theorem advanced_same (ctx : TickContext) (e : Entity) : (advanced ctx e).Same e :=
  ⟨rfl, rfl, e.shot.fixed_advance ctx⟩

/-- What is in the world after a step was in it before. -/
theorem same_of_mem_step {w : World} {e' : Entity} (h : e' ∈ w.step.2.roster) :
    ∃ e ∈ w.roster, e'.Same e := by
  rw [step_world] at h
  have hm := (sweep_subperm w.moved).subset h
  rw [roster, moved_live] at hm
  rcases List.mem_append.mp hm with hm | hm
  · obtain ⟨e, he, rfl⟩ := List.mem_map.mp hm
    exact ⟨e, mem_roster_of_live he, advanced_same _ e⟩
  · exact ⟨e', mem_roster_of_retired hm, .refl e'⟩

/-- What is in flight after a step was in flight before. -/
theorem advanced_of_mem_step {w : World} {e' : Entity} (h : e' ∈ w.step.2.live) :
    ∃ e ∈ w.live, e' = advanced (w.contextAt w.tick.next) e := by
  rw [step_world] at h
  have hm : e' ∈ w.moved.live := (List.mem_filter.mp h).1
  rw [moved_live] at hm
  obtain ⟨e, he, rfl⟩ := List.mem_map.mp hm
  exact ⟨e, he, rfl⟩

/-- The flights after a step depend on the flights before it. -/
theorem flights_step (w : World) :
    w.step.2.live.map Entity.flight =
      ((w.live.map Entity.flight).map fun flight =>
        (flight.1, (flight.2.advance (w.contextAt w.tick.next)).1)).filter (!·.2.removed) := by
  have hlive : w.step.2.live = w.moved.live.filter (!·.shot.removed) := by
    rw [step_world]
    rfl
  rw [hlive, moved_live, List.map_map, List.filter_map, List.filter_map, List.map_map]
  rfl

theorem Own.of_same {policy : MatchPolicy} {w w' : World} (own : Own policy w)
    (distinct : (ids w'.roster).Nodup) (same : ∀ e' ∈ w'.roster, ∃ e ∈ w.roster, e'.Same e) :
    Own policy w' where
  distinct := distinct
  carries e' he' := by
    obtain ⟨e, he, hsame⟩ := same e' he'
    rw [hsame.id, hsame.serverId]
    exact own.carries e he
  apart e₁ h₁ e₂ h₂ hne := by
    obtain ⟨e, he, hsame⟩ := same e₁ h₁
    obtain ⟨e', he', hsame'⟩ := same e₂ h₂
    rw [hsame.id, hsame'.id] at hne
    exact (own.apart e he e' he' hne).congr hsame.fixed hsame'.fixed

/-- What follows a world still does after another step. -/
theorem Follows.step {w g : World} (follows : Follows w g) (fits : w.moved.SweepFits)
    (later : g.tick < w.tick.next) : Follows w.step.2 g where
  context := follows.context
  seen a ha := by
    obtain ⟨e, he, hid, hpast⟩ := follows.seen a ha
    have hmem : ∀ x ∈ w.moved.roster, x ∈ w.step.2.roster := fun x hx => by
      rw [step_world]
      exact (sweep_perm fits).mem_iff.mpr hx
    rcases List.mem_append.mp he with he | he
    · refine ⟨advanced (w.contextAt w.tick.next) e, hmem _ (mem_roster_of_live ?_), hid,
        hpast.advance later⟩
      rw [moved_live]
      exact List.mem_map_of_mem he
    · exact ⟨e, hmem e (mem_roster_of_retired he), hid, hpast⟩
  listed e' he' hstart := by
    obtain ⟨e, he, rfl⟩ := advanced_of_mem_step he'
    rw [(advanced_same _ e).startTick] at hstart
    exact follows.listed e he hstart
  paired e' he' hs := by
    obtain ⟨e, he, hsame⟩ := same_of_mem_step he'
    rw [hsame.serverId] at hs
    rw [hsame.startTick]
    exact follows.paired e he hs

/-- What is in the world after a snapshot of its own past was in it before. -/
theorem confirmed_of_mem_confirmBy {policy : MatchPolicy} {s : Snapshot} {w : World} {e' : Entity}
    (h : e' ∈ (w.confirmBy policy s).roster) : ∃ e ∈ w.roster, e' = e.confirm s.lists := by
  have hm : e' ∈ (w.confirm s.lists).roster := by
    rcases List.mem_append.mp h with h | h
    · exact mem_roster_of_live h
    · simp only [confirmBy, prune, List.mem_filter] at h
      exact mem_roster_of_retired h.1
  rw [confirm_roster] at hm
  obtain ⟨e, he, rfl⟩ := List.mem_map.mp hm
  exact ⟨e, he, rfl⟩

theorem confirmBy_live (policy : MatchPolicy) (s : Snapshot) (w : World) :
    (w.confirmBy policy s).live = w.live.map (·.confirm s.lists) := rfl

theorem confirmBy_sublist (policy : MatchPolicy) (s : Snapshot) (w : World) :
    (ids (w.confirmBy policy s).roster).Sublist (ids w.roster) := by
  rw [← ids_confirm s.lists w]
  simp only [roster, confirmBy, prune, ids]
  exact (List.filter_sublist.append_left _).map _

/-! ### Two worlds -/

/-- The world `w` of a client and the world `server` are in lockstep, after the given shots
have been fired. -/
structure Twins (policy : MatchPolicy) (fired : List Shot) (w server : World) : Prop where
  clock : w.tick = server.tick
  begun : 0 ≤ server.tick
  context : ∀ t, server.contextAt t = w.contextAt t
  numbers : w.nextId = server.nextId
  flights : w.live.map Entity.flight = server.live.map Entity.flight
  own : Own policy w
  numbered : Numbered w
  counted : w.nextId.toNat = fired.length + 1
  known : ∀ e ∈ w.roster, ∃ f ∈ fired, e.shot.fixed = f.fixed
  timed : ∀ e ∈ w.live, e.shot.Timed server.tick
  flying : ∀ e ∈ w.live, e.shot.removed = false
  paired : ∀ e ∈ w.roster, e.serverId ≠ none → e.shot.startTick < server.tick
  room : w.retired.length ≤ retiredCapacity

namespace Twins

variable {policy : MatchPolicy} {fired : List Shot} {w server : World}

/-- Every flight of the server is in the air in the world of the client. -/
theorem live_of_server (twins : Twins policy fired w server) {a : Entity}
    (ha : a ∈ server.live) : ∃ e ∈ w.live, e.id = a.id ∧ e.shot = a.shot := by
  have hm : a.flight ∈ w.live.map Entity.flight := by
    rw [twins.flights]
    exact List.mem_map_of_mem ha
  obtain ⟨e, he, hflight⟩ := List.mem_map.mp hm
  exact ⟨e, he, congrArg Prod.fst hflight, congrArg Prod.snd hflight⟩

/-- Every flight in the world of the client is in the air on the server. -/
theorem server_of_live (twins : Twins policy fired w server) {e : Entity} (he : e ∈ w.live) :
    ∃ a ∈ server.live, a.id = e.id ∧ a.shot = e.shot := by
  have hm : e.flight ∈ server.live.map Entity.flight := by
    rw [← twins.flights]
    exact List.mem_map_of_mem he
  obtain ⟨a, ha, hflight⟩ := List.mem_map.mp hm
  exact ⟨a, ha, congrArg Prod.fst hflight, congrArg Prod.snd hflight⟩

theorem same_context (twins : Twins policy fired w server) : w.context = server.context := by
  rw [World.context, World.context, twins.clock, twins.context]

/-- A shot is fired on both sides. -/
theorem fire (twins : Twins policy fired w server) (l : Launch)
    (apart : ∀ f ∈ fired, Shot.Apart policy f (Shot.fire server.context l))
    (room : fired.length + 2 < UInt64.size) :
    Twins policy (fired ++ [Shot.fire server.context l]) (w.fire l).2 (server.fire l).2 := by
  have hnumbered : Numbered (w.fire l).2 :=
    (passage_fire w l).numbered twins.numbered (by rw [twins.counted]; omega)
  -- the new shot is apart from every shot that is still known
  have hapart : ∀ e ∈ w.roster, Shot.Apart policy e.shot (Shot.fire w.context l) := by
    intro e he
    obtain ⟨f, hf, hfixed⟩ := twins.known e he
    rw [twins.same_context]
    exact (apart f hf).congr hfixed rfl
  refine
    { clock := twins.clock
      begun := twins.begun
      context := twins.context
      numbers := ?numbers
      flights := ?flights
      own := { distinct := hnumbered.nodup, carries := ?carries, apart := ?apart }
      numbered := hnumbered
      counted := ?counted
      known := ?known
      timed := ?timed
      flying := ?flying
      paired := ?paired
      room := twins.room }
  case numbers => simp only [World.fire, insert, twins.numbers]
  case flights =>
    simp only [World.fire, insert, List.map_append, twins.flights, List.map_cons, List.map_nil,
      Entity.flight, twins.numbers, twins.same_context]
  case carries =>
    intro e he
    rcases mem_roster_fire.mp he with he | rfl
    · exact twins.own.carries e he
    · exact Or.inl rfl
  case apart =>
    intro e he e' he' hne
    rcases mem_roster_fire.mp he with he | rfl
    · rcases mem_roster_fire.mp he' with he' | rfl
      · exact twins.own.apart e he e' he' hne
      · exact hapart e he
    · rcases mem_roster_fire.mp he' with he' | rfl
      · exact (hapart e' he').symm
      · exact absurd rfl hne
  case counted =>
    rw [(passage_fire w l).toNat_nextId (by rw [twins.counted]; omega), twins.counted,
      List.length_append, List.length_singleton]
  case known =>
    intro e he
    rcases mem_roster_fire.mp he with he | rfl
    · obtain ⟨f, hf, hfixed⟩ := twins.known e he
      exact ⟨f, List.mem_append_left _ hf, hfixed⟩
    · rw [twins.same_context]
      exact ⟨_, List.mem_append_right _ (List.mem_singleton.mpr rfl), rfl⟩
  case timed =>
    intro e he
    rcases mem_live_fire.mp he with he | rfl
    · exact twins.timed e he
    · rw [twins.same_context]
      refine ⟨twins.begun, fun leg hleg => ?_⟩
      rcases List.mem_cons.mp hleg with rfl | hleg
      · exact ⟨Int32.le_refl _, Int32.le_refl _⟩
      · cases hleg
  case flying =>
    intro e he
    rcases mem_live_fire.mp he with he | rfl
    · exact twins.flying e he
    · rfl
  case paired =>
    intro e he hs
    rcases mem_roster_fire.mp he with he | rfl
    · exact twins.paired e he hs
    · exact absurd rfl hs

/-- Both sides are stepped. -/
theorem step (twins : Twins policy fired w server) (clock : server.tick < Int32.maxValue)
    (room : w.step.2.retired.length < retiredCapacity) :
    Twins policy fired w.step.2 server.step.2 := by
  have hnext := Tick.lt_next clock
  have hnumbered : Numbered w.step.2 :=
    (passage_step w).numbered twins.numbered w.nextId.toNat_lt
  have hcontext : w.contextAt w.tick.next = server.contextAt server.tick.next := by
    rw [twins.clock, twins.context]
  refine
    { clock := congrArg Tick.next twins.clock
      begun := Int32.le_of_lt (Int32.lt_of_le_of_lt twins.begun hnext)
      context := twins.context
      numbers := twins.numbers
      flights := ?flights
      own := twins.own.of_same hnumbered.nodup fun e he => same_of_mem_step he
      numbered := hnumbered
      counted := twins.counted
      known := ?known
      timed := ?timed
      flying := ?flying
      paired := ?paired
      room := Nat.le_of_lt room }
  case flights => rw [flights_step, flights_step, twins.flights, hcontext]
  case known =>
    intro e' he'
    obtain ⟨e, he, hsame⟩ := same_of_mem_step he'
    obtain ⟨f, hf, hfixed⟩ := twins.known e he
    exact ⟨f, hf, hsame.fixed.trans hfixed⟩
  case timed =>
    intro e' he'
    obtain ⟨e, he, rfl⟩ := advanced_of_mem_step he'
    have hlater : server.tick ≤ (w.contextAt w.tick.next).tick := by
      rw [hcontext]
      exact Int32.le_of_lt hnext
    have htimed := (twins.timed e he).advance hlater
    rw [hcontext] at htimed ⊢
    exact htimed
  case flying =>
    intro e' he'
    rw [step_world] at he'
    exact not_removed_of_mem_sweep he'
  case paired =>
    intro e' he' hs
    obtain ⟨e, he, hsame⟩ := same_of_mem_step he'
    rw [hsame.serverId] at hs
    rw [hsame.startTick]
    exact Int32.lt_trans (twins.paired e he hs) hnext

/-- The client takes a snapshot of its own past. -/
theorem take (twins : Twins policy fired w server) {g : World} (version : UInt32)
    (publishes : Publishes policy g) (follows : Follows w g) (sent : g.tick ≤ server.tick) :
    Twins policy fired (w.confirmBy policy (g.snapshot.onWire version)) server := by
  have hnumbered : Numbered (w.confirmBy policy (g.snapshot.onWire version)) := by
    have hids := confirmBy_sublist policy (g.snapshot.onWire version) w
    exact ⟨twins.numbered.nodup.sublist hids, fun id hid =>
      twins.numbered.below id (hids.subset hid)⟩
  refine
    { clock := twins.clock
      begun := twins.begun
      context := twins.context
      numbers := twins.numbers
      flights := ?flights
      own := ?own
      numbered := hnumbered
      counted := twins.counted
      known := ?known
      timed := ?timed
      flying := ?flying
      paired := ?paired
      room := ?room }
  case flights =>
    have hsame : (Entity.flight ∘ fun e => e.confirm (g.snapshot.onWire version).lists) =
        Entity.flight := by
      funext e
      simp [Entity.flight]
    rw [confirmBy_live, List.map_map, hsame]
    exact twins.flights
  case own =>
    have hown := twins.own.confirm (g.snapshot.onWire version).lists
    refine hown.of_same hnumbered.nodup fun e' he' => ?_
    obtain ⟨e, he, rfl⟩ := confirmed_of_mem_confirmBy he'
    refine ⟨_, ?_, .refl _⟩
    rw [confirm_roster]
    exact List.mem_map_of_mem he
  case known =>
    intro e' he'
    obtain ⟨e, he, rfl⟩ := confirmed_of_mem_confirmBy he'
    rw [Entity.confirm_shot]
    exact twins.known e he
  case timed =>
    intro e' he'
    obtain ⟨e, he, rfl⟩ := List.mem_map.mp he'
    rw [Entity.confirm_shot]
    exact twins.timed e he
  case flying =>
    intro e' he'
    obtain ⟨e, he, rfl⟩ := List.mem_map.mp he'
    rw [Entity.confirm_shot]
    exact twins.flying e he
  case paired =>
    intro e' he' hs
    obtain ⟨e, he, rfl⟩ := confirmed_of_mem_confirmBy he'
    rw [Entity.confirm_shot]
    by_cases hl : (g.snapshot.onWire version).lists e.id = true
    · obtain ⟨a, ha, hid⟩ := lists_onWire_iff.mp hl
      exact Int32.lt_of_lt_of_le (follows.startTick_lt twins.own publishes he ha hid.symm) sent
    · rw [Entity.confirm, if_neg hl] at hs
      exact twins.paired e he hs
  case room =>
    simp only [confirmBy, prune, World.confirm]
    exact Nat.le_trans (List.length_filter_le _ _) (by rw [List.length_map]; exact twins.room)

/-- After a step everything in flight started before. -/
theorem started_step (twins : Twins policy fired w server) (clock : server.tick < Int32.maxValue) :
    ∀ e ∈ w.step.2.live, e.shot.startTick < server.step.2.tick := by
  intro e' he'
  obtain ⟨e, he, rfl⟩ := advanced_of_mem_step he'
  have hleg := (twins.timed e he).legs e.shot.leg List.mem_cons_self
  rw [(advanced_same _ e).startTick]
  exact Int32.lt_of_le_of_lt (Int32.le_trans hleg.1 hleg.2) (Tick.lt_next clock)

end Twins

/-! ### Snapshots under way -/

/-- `g` was before `g'`: what was in flight at `g'` and had started by then was in flight. -/
structure Precedes (g g' : World) : Prop where
  tick : g.tick < g'.tick
  listed : ∀ a' ∈ g'.live, a'.shot.startTick < g.tick → ∃ a ∈ g.live, a.id = a'.id

/-- The worlds whose snapshots are on their way from the server to the client, oldest first. -/
structure Mail (policy : MatchPolicy) (w server : World) (posts : List World) : Prop where
  publishes : ∀ g ∈ posts, Publishes policy g
  follows : ∀ g ∈ posts, Follows w g
  sent : ∀ g ∈ posts, g.tick ≤ server.tick
  ordered : posts.Pairwise Precedes

namespace Mail

variable {policy : MatchPolicy} {fired : List Shot} {w server g : World} {posts : List World}

theorem fire (mail : Mail policy w server posts) (twins : Twins policy fired w server)
    (l : Launch) : Mail policy (w.fire l).2 (server.fire l).2 posts := by
  refine ⟨mail.publishes, fun g hg => ?_, mail.sent, mail.ordered⟩
  have hfollows := mail.follows g hg
  refine ⟨hfollows.context, fun a ha => ?_, fun e he hstart => ?_, fun e he hs => ?_⟩
  · obtain ⟨e, he, hid, hpast⟩ := hfollows.seen a ha
    exact ⟨e, mem_roster_fire.mpr (Or.inl he), hid, hpast⟩
  · rcases mem_live_fire.mp he with he | rfl
    · exact hfollows.listed e he hstart
    · -- the new shot starts now, and every snapshot under way is from before
      have hnow : w.tick < g.tick := hstart
      rw [twins.clock] at hnow
      exact absurd (mail.sent g hg) (Int32.not_le.mpr hnow)
  · rcases mem_roster_fire.mp he with he | rfl
    · exact hfollows.paired e he hs
    · exact absurd rfl hs

theorem sent_lt (mail : Mail policy w server posts) (clock : server.tick < Int32.maxValue) :
    ∀ g ∈ posts, g.tick < server.step.2.tick :=
  fun g hg => Int32.lt_of_le_of_lt (mail.sent g hg) (Tick.lt_next clock)

theorem step (mail : Mail policy w server posts) (twins : Twins policy fired w server)
    (clock : server.tick < Int32.maxValue)
    (room : w.step.2.retired.length < retiredCapacity) :
    Mail policy w.step.2 server.step.2 posts := by
  have hfits : w.moved.SweepFits := by
    rw [step_world] at room
    exact sweepFits_of_room room
  refine ⟨mail.publishes, fun g hg => (mail.follows g hg).step hfits ?_,
    fun g hg => Int32.le_of_lt (mail.sent_lt clock g hg), mail.ordered⟩
  rw [twins.clock]
  exact mail.sent_lt clock g hg

/-- The server posts a snapshot of the world as it is. -/
theorem post (mail : Mail policy w server posts) (twins : Twins policy fired w server)
    (before : ∀ g ∈ posts, g.tick < server.tick)
    (started : ∀ e ∈ w.live, e.shot.startTick < server.tick)
    (encodable : ∀ f ∈ fired, f.Encodable)
    (faithful : ∀ a ∈ server.live, a.shot.Faithful policy server.context) :
    Mail policy w server (posts ++ [server]) := by
  have hpublishes : Publishes policy server := by
    refine ⟨fun a ha => ?_, fun a ha => ?_, fun a ha => ?_, faithful⟩
    · obtain ⟨e, he, -, hshot⟩ := twins.live_of_server ha
      exact hshot ▸ twins.timed e he
    · obtain ⟨e, he, -, hshot⟩ := twins.live_of_server ha
      exact hshot ▸ started e he
    · obtain ⟨e, he, -, hshot⟩ := twins.live_of_server ha
      obtain ⟨f, hf, hfixed⟩ := twins.known e (mem_roster_of_live he)
      exact hshot ▸ (encodable f hf).congr hfixed
  have hfollows : Follows w server := by
    refine ⟨twins.context, fun a ha => ?_, fun e he _ => ?_, twins.paired⟩
    · obtain ⟨e, he, hid, hshot⟩ := twins.live_of_server ha
      refine ⟨e, mem_roster_of_live he, hid, ?_⟩
      rw [hshot]
      exact Shot.Past.refl (hpublishes.timed a ha).launched
    · obtain ⟨a, ha, hid, -⟩ := twins.server_of_live he
      exact ⟨a, ha, hid⟩
  have hprecedes : ∀ g ∈ posts, Precedes g server := by
    refine fun g hg => ⟨before g hg, fun a' ha' hstart => ?_⟩
    obtain ⟨e, he, hid, hshot⟩ := twins.live_of_server ha'
    rw [← hshot] at hstart
    obtain ⟨a, ha, hid'⟩ := (mail.follows g hg).listed e he hstart
    exact ⟨a, ha, hid'.trans hid⟩
  have hall : ∀ {P : World → Prop}, (∀ g ∈ posts, P g) → P server →
      ∀ g ∈ posts ++ [server], P g := by
    intro P hposts hserver g hg
    rcases List.mem_append.mp hg with hg | hg
    · exact hposts g hg
    · exact List.mem_singleton.mp hg ▸ hserver
  refine ⟨hall mail.publishes hpublishes, hall mail.follows hfollows,
    hall mail.sent (Int32.le_refl _), ?_⟩
  refine List.pairwise_append.mpr ⟨mail.ordered, List.pairwise_singleton _ _, ?_⟩
  intro g hg g' hg'
  exact List.mem_singleton.mp hg' ▸ hprecedes g hg

/-- A snapshot of the world's own past leaves what a later one needs. -/
theorem follows_confirmBy (publishes : Publishes policy g) (own : Own policy w)
    (follows : Follows w g) {g' : World} (follows' : Follows w g') (precedes : Precedes g g')
    (version : UInt32) : Follows (w.confirmBy policy (g.snapshot.onWire version)) g' := by
  have hconfirmed : Follows (w.confirm (g.snapshot.onWire version).lists) g' := by
    refine follows'.confirm _ fun e he hl => ?_
    obtain ⟨a, ha, hid⟩ := lists_onWire_iff.mp hl
    exact Int32.lt_trans (follows.startTick_lt own publishes he ha hid.symm) precedes.tick
  have hsub : ∀ e ∈ (w.confirmBy policy (g.snapshot.onWire version)).roster,
      e ∈ (w.confirm (g.snapshot.onWire version).lists).roster := by
    intro e he
    obtain ⟨e0, he0, rfl⟩ := confirmed_of_mem_confirmBy he
    rw [confirm_roster]
    exact List.mem_map_of_mem he0
  refine ⟨hconfirmed.context, fun a' ha' => ?_, hconfirmed.listed,
    fun e he hs => hconfirmed.paired e (hsub e he) hs⟩
  obtain ⟨e, he, hid, hpast⟩ := follows'.seen a' ha'
  refine ⟨e.confirm (g.snapshot.onWire version).lists, ?_, (e.confirm_id _).trans hid,
    by rw [Entity.confirm_shot]; exact hpast⟩
  have hmem := List.mem_map_of_mem (f := (·.confirm (g.snapshot.onWire version).lists)) he
  rw [← confirm_roster] at hmem
  rcases List.mem_append.mp hmem with hlive | hretired
  · exact mem_roster_of_live hlive
  -- a retired entity is listed, or started too late to be forgotten
  refine mem_roster_of_retired ?_
  simp only [confirmBy, prune, List.mem_filter]
  refine ⟨hretired, ?_⟩
  have hstays := follows.stays policy version he fun hstart => by
    have hsame : e.shot.startTick = a'.shot.startTick :=
      (congrArg Shot.startTick hpast.fixed :)
    rw [hsame] at hstart
    obtain ⟨a, ha, hid'⟩ := precedes.listed a' ha' hstart
    exact ⟨a, ha, hid'.trans hid.symm⟩
  simp [hstays.1, hstays.2]

/-- The oldest snapshot under way arrives and is taken. -/
theorem take (mail : Mail policy w server (g :: posts)) (own : Own policy w)
    (version : UInt32) :
    Mail policy (w.confirmBy policy (g.snapshot.onWire version)) server posts where
  publishes g' hg' := mail.publishes g' (List.mem_cons_of_mem _ hg')
  follows g' hg' :=
    follows_confirmBy (mail.publishes g List.mem_cons_self) own
      (mail.follows g List.mem_cons_self) (mail.follows g' (List.mem_cons_of_mem _ hg'))
      ((List.pairwise_cons.mp mail.ordered).1 g' hg') version
  sent g' hg' := mail.sent g' (List.mem_cons_of_mem _ hg')
  ordered := (List.pairwise_cons.mp mail.ordered).2

/-- The oldest snapshot under way is lost or refused. -/
theorem tail (mail : Mail policy w server (g :: posts)) : Mail policy w server posts where
  publishes g' hg' := mail.publishes g' (List.mem_cons_of_mem _ hg')
  follows g' hg' := mail.follows g' (List.mem_cons_of_mem _ hg')
  sent g' hg' := mail.sent g' (List.mem_cons_of_mem _ hg')
  ordered := (List.pairwise_cons.mp mail.ordered).2

end Mail

end World

end Volley
