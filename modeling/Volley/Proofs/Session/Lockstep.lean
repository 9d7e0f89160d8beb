/-
# Lockstep

A server and a predicting client are built from the same configuration and the same map, and
the same shots are fired on both sides. Snapshots come late, and in the legacy protocol
without extension blocks. Under the conditions of `Fair`, and if no shot can be taken for
another, none of this shows: every snapshot only confirms what the client has predicted, and
the client goes on flying exactly what the server flies.

A step in which the clock overflows ends the program, so a run goes on without it: what is
proved holds in every state that is reached.

The invariant (`InStep`) keeps, beside the two worlds, the worlds whose snapshots are on
their way. Local numbers do not run out: shots that are told apart by owner, weapon and start
are fewer than the numbers (`Salvo.length_lt`).

Key definitions: `Session.Event`, `Session.play`, `Session.shots`, `Session.Fair`,
`Session.InStep`.
Key theorems: `Session.InStep.fire`, `Session.InStep.step`, `Session.lockstep`.
-/
import Volley.Proofs.Along
import Volley.Proofs.Client.Run
import Volley.Proofs.Session.Twins
import Volley.Session

namespace Volley

/-! ### Shots that are told apart -/

/-- The shots of a run: each fits into a record, and none can be taken for another. -/
structure Salvo (policy : MatchPolicy) (fired : List Shot) : Prop where
  apart : fired.Pairwise (Shot.Apart policy)
  encodable : ∀ f ∈ fired, f.Encodable
  begun : ∀ f ∈ fired, 0 ≤ f.startTick

namespace Salvo

/-- A number for the owner of a shot. -/
def ownerKey : Option ClientId → Nat
  | none => 0
  | some c => c.val.toNat + 1

theorem ownerKey_inj {a b : Option ClientId} (h : ownerKey a = ownerKey b) : a = b := by
  cases a with
  | none =>
    cases b with
    | none => rfl
    | some c => cases h
  | some c =>
    cases b with
    | none => cases h
    | some d => exact congrArg some (congrArg ClientId.mk (UInt32.toNat_inj.mp (Nat.succ.inj h)))

/-- A number for the weapon of a shot. -/
def weaponKey : Weapon → Nat
  | .gun => 0
  | .shotgun => 1
  | .grenade => 2

theorem weaponKey_inj {a b : Weapon} (h : weaponKey a = weaponKey b) : a = b := by
  cases a <;> cases b <;> first | rfl | cases h

theorem weaponKey_lt (weapon : Weapon) : weaponKey weapon < 3 := by
  cases weapon <;> decide

/-- A number for the owner, the weapon and the start of a shot. -/
def key (f : Shot) : Nat :=
  (ownerKey f.owner * 3 + weaponKey f.weapon) * 0x80000000 + f.startTick.toInt.toNat

/-- A start that is not before zero. -/
theorem start_bounds {f : Shot} (begun : 0 ≤ f.startTick) :
    0 ≤ f.startTick.toInt ∧ f.startTick.toInt < 0x80000000 := by
  have hzero := Int32.le_iff_toInt_le.mp begun
  rw [Int32.toInt_zero] at hzero
  exact ⟨hzero, f.startTick.toInt_lt⟩

theorem key_lt {f : Shot} (encodable : f.Encodable) (begun : 0 ≤ f.startTick) :
    key f < (0x80000000 + 1) * 3 * 0x80000000 := by
  have hstart := start_bounds begun
  have hweapon := weaponKey_lt f.weapon
  have howner : ownerKey f.owner ≤ 0x80000000 := by
    cases ho : f.owner with
    | none => exact Nat.zero_le _
    | some c => exact encodable.owner c ho
  unfold key
  omega

/-- Shots that can be told apart have different keys. -/
theorem key_ne {policy : MatchPolicy} {a b : Shot} (apart : Shot.Apart policy a b)
    (ha : 0 ≤ a.startTick) (hb : 0 ≤ b.startTick) : key a ≠ key b := by
  intro h
  have hstart := start_bounds ha
  have hstart' := start_bounds hb
  have hweapon := weaponKey_lt a.weapon
  have hweapon' := weaponKey_lt b.weapon
  unfold key at h
  rcases apart with hne | hne | hgap
  · exact hne (ownerKey_inj (by omega))
  · exact hne (weaponKey_inj (by omega))
  · unfold Tick.gap at hgap
    omega

/-- There are fewer shots that can be told apart than numbers for them. -/
theorem length_lt {policy : MatchPolicy} {fired : List Shot} (salvo : Salvo policy fired) :
    fired.length + 1 < UInt64.size := by
  have hnodup : (fired.map key).Nodup := by
    rw [List.Nodup, List.pairwise_map]
    exact salvo.apart.imp_of_mem fun ha hb h =>
      key_ne h (salvo.begun _ ha) (salvo.begun _ hb)
  have hrange : fired.map key ⊆ List.range ((0x80000000 + 1) * 3 * 0x80000000) := by
    intro k hk
    obtain ⟨f, hf, rfl⟩ := List.mem_map.mp hk
    exact List.mem_range.mpr (key_lt (salvo.encodable f hf) (salvo.begun f hf))
  have hlength := (hnodup.subperm hrange).length_le
  have hsize : UInt64.size = 2 ^ 64 := rfl
  rw [List.length_map, List.length_range] at hlength
  omega

end Salvo

namespace Session

/-- What can be done with a session. -/
inductive Event where
  | fire (l : Launch)
  | step

/-- The session after an event. A step that is ended by an overflow is left out. -/
def act (s : Session) : Event → Session
  | .fire l => s.fire l
  | .step => s.step.stateAfter s

/-- The session after a run. -/
def play (s : Session) (events : List Event) : Session := events.foldl act s

/-- The shots that are fired in a run. -/
def shots : Session → List Event → List Shot
  | _, [] => []
  | s, .fire l :: events => Shot.fire s.server.context l :: shots (s.act (.fire l)) events
  | s, .step :: events => shots (s.act .step) events

/-- What lockstep asks of an event: a shot that is fired fits into a record; the clock has
room for a step, so have the retired shots of the client, and if the server sends its
snapshot, all its records are faithful. -/
def Fair (s : Session) : Event → Prop
  | .fire l => (Shot.fire s.server.context l).Encodable
  | .step => s.server.tick < Int32.maxValue ∧
      s.advance.client.world.retired.length < World.retiredCapacity ∧
      ((s.advance.server.snapshot.encode s.version).isOk = true →
        ∀ a ∈ s.advance.server.live,
          a.shot.Faithful s.client.policy s.advance.server.context)

instance (s : Session) : (event : Event) → Decidable (s.Fair event)
  | .fire _ => inferInstanceAs (Decidable (Shot.Encodable _))
  | .step => inferInstanceAs (Decidable (_ ∧ _ ∧ (_ → ∀ a ∈ s.advance.server.live, _)))

/-- No reconciliation has brought a surprise. -/
structure Quiet (t : Totals) : Prop where
  spawned : t.spawned = 0
  replaced : t.replaced = 0
  dropped : t.dropped = 0
  discarded : t.discarded = 0

/-- A session in lockstep after the given shots have been fired. The messages `due` and those
in flight encode the snapshots of the worlds `posts`. -/
structure InStep (policy : MatchPolicy) (fired : List Shot) (due : List (List UInt8))
    (posts : List World) (s : Session) : Prop where
  matching : s.client.policy = policy
  predicting : s.client.predicting = true
  salvo : Salvo policy fired
  twins : World.Twins policy fired s.client.world s.server
  mail : World.Mail policy s.client.world s.server posts
  coded : List.Forall₂ (fun message g => g.snapshot.encode s.version = .ok message)
    (due ++ s.line.inFlight.map Prod.snd) posts
  quiet : Quiet s.totals

namespace InStep

variable {policy : MatchPolicy} {fired : List Shot} {posts : List World} {s : Session}

theorem fire_client {l : Launch} (h : s.client.predicting = true) :
    s.fire l =
      { s with
        server := (s.server.fire l).2
        client := { s.client with world := (s.client.world.fire l).2 } } := by
  simp [Session.fire, Client.fire, h]

/-- The same shot is fired on both sides. -/
theorem fire (h : InStep policy fired [] posts s) (l : Launch)
    (salvo : Salvo policy (fired ++ [Shot.fire s.server.context l])) :
    InStep policy (fired ++ [Shot.fire s.server.context l]) [] posts (s.fire l) := by
  have hapart : ∀ f ∈ fired, Shot.Apart policy f (Shot.fire s.server.context l) :=
    fun f hf => (List.pairwise_append.mp salvo.apart).2.2 f hf _ (List.mem_singleton.mpr rfl)
  have hroom : fired.length + 2 < UInt64.size := by
    have := salvo.length_lt
    rw [List.length_append, List.length_singleton] at this
    omega
  rw [fire_client h.predicting]
  exact ⟨h.matching, h.predicting, salvo, h.twins.fire l hapart hroom,
    h.mail.fire h.twins l, h.coded, h.quiet⟩

theorem advance_client (h : s.client.predicting = true) :
    s.advance =
      { s with
        server := s.server.step.2
        client := { s.client with world := s.client.world.step.2 } } := by
  simp [Session.advance, Client.tick, h]

theorem advance (h : InStep policy fired [] posts s) (clock : s.server.tick < Int32.maxValue)
    (room : s.advance.client.world.retired.length < World.retiredCapacity) :
    InStep policy fired [] posts s.advance := by
  rw [advance_client h.predicting] at room ⊢
  exact ⟨h.matching, h.predicting, h.salvo, h.twins.step clock room,
    h.mail.step h.twins clock room, h.coded, h.quiet⟩

/-- A message is delivered. The client takes it or refuses it. -/
theorem deliver {message : List UInt8} {due : List (List UInt8)} {g : World}
    (h : InStep policy fired (message :: due) (g :: posts) s) :
    ∃ s', s.deliver message = (.ok (), s') ∧ InStep policy fired due posts s' := by
  obtain ⟨hcode, hcoded⟩ := List.forall₂_cons.mp h.coded
  have hsent := h.mail.sent g List.mem_cons_self
  have hbytes : s.client.receiveBytes message =
      s.client.receive (g.snapshot.onWire s.version) :=
    Client.receiveBytes_ok (Snapshot.decode_encode hcode)
  have hpast : (g.snapshot.onWire s.version).tick ≤ s.client.world.tick := by
    rw [h.twins.clock]
    exact hsent
  cases haccepts : s.client.history.accepts (g.snapshot.onWire s.version) with
  | false =>
    have hdeliver : s.deliver message = (.ok (), s) := by
      rw [Session.deliver, hbytes, Client.receive_refused haccepts]
    exact ⟨s, hdeliver, h.matching, h.predicting, h.salvo, h.twins, h.mail.tail, hcoded, h.quiet⟩
  | true =>
    have htakes : s.client.takes (g.snapshot.onWire s.version) = true :=
      Client.takes_iff.mpr ⟨haccepts, fun ahead => absurd ahead (Int32.not_lt.mpr hpast)⟩
    have hsteps : s.client.world.tick.stepsUpTo (g.snapshot.onWire s.version).tick = 0 := by
      have hle := Int32.le_iff_toInt_le.mp hpast
      unfold Tick.stepsUpTo
      omega
    obtain ⟨hworld, hreplaced, hspawned, hdropped, hdiscarded⟩ :=
      World.reconcile_confirms s.version h.twins.own
        (h.mail.publishes g List.mem_cons_self) (h.mail.follows g List.mem_cons_self)
        h.twins.flying h.twins.room
    have hdeliver : s.deliver message =
        (.ok (), { s with
          client :=
            { world := s.client.world.confirmBy policy (g.snapshot.onWire s.version)
              history := (s.client.history.push (g.snapshot.onWire s.version)).2
              policy
              predicting := s.client.predicting }
          totals := s.totals.add
            (s.client.world.reconcile (g.snapshot.onWire s.version) policy).1 }) := by
      rw [Session.deliver, hbytes, Client.receive_predicting htakes h.predicting, hsteps,
        h.matching, ← hworld]
      rfl
    refine ⟨_, hdeliver, rfl, h.predicting, h.salvo,
      h.twins.take s.version (h.mail.publishes g List.mem_cons_self)
        (h.mail.follows g List.mem_cons_self) hsent,
      h.mail.take h.twins.own s.version, hcoded, ?_, ?_, ?_, ?_⟩
    · exact (congrArg₂ (· + ·) h.quiet.spawned hspawned :)
    · exact (congrArg₂ (· + ·) h.quiet.replaced hreplaced :)
    · exact (congrArg₂ (· + ·) h.quiet.dropped hdropped :)
    · exact (congrArg₂ (· + ·) h.quiet.discarded hdiscarded :)

/-- All messages that are due are delivered. -/
theorem deliver_all {due : List (List UInt8)} (h : InStep policy fired due posts s) :
    ∃ s' posts', deliverAll due s = (.ok (), s') ∧ InStep policy fired [] posts' s' := by
  induction due generalizing posts s with
  | nil => exact ⟨s, posts, rfl, h⟩
  | cons message due ih =>
    cases posts with
    | nil => cases h.coded
    | cons g posts =>
      obtain ⟨s', hdeliver, hnext⟩ := h.deliver
      rw [deliverAll, hdeliver]
      exact ih hnext

/-- The server posts its snapshot, and what is due is delivered, unless the tick at which the
snapshot is due overflows. -/
theorem exchange (h : InStep policy fired [] posts s) {message : List UInt8}
    (code : s.server.snapshot.encode s.version = .ok message)
    (mail : World.Mail policy s.client.world s.server (posts ++ [s.server])) :
    (∃ overflow, s.exchange message = (.error overflow, s)) ∨
      ∃ s' posts', s.exchange message = (.ok (), s') ∧ InStep policy fired [] posts' s' := by
  cases hsend : s.line.send s.server.tick message with
  | error overflow =>
    refine .inl ⟨overflow, ?_⟩
    rw [Session.exchange, hsend]
  | ok line =>
    obtain ⟨due, rfl⟩ := DelayLine.exists_of_send hsend
    have hsplit := List.takeWhile_append_dropWhile (p := fun m : Tick × List UInt8 =>
      decide (m.1 ≤ s.server.tick)) (l := s.line.inFlight ++ [(due, message)])
    have hcoded : List.Forall₂ (fun message g => g.snapshot.encode s.version = .ok message)
        ((s.line.inFlight ++ [(due, message)]).map Prod.snd) (posts ++ [s.server]) := by
      rw [List.map_append]
      exact List.rel_append h.coded (List.Forall₂.cons code .nil)
    rw [← hsplit, List.map_append] at hcoded
    rw [Session.exchange, hsend]
    exact .inr (deliver_all
      ⟨h.matching, h.predicting, h.salvo, h.twins, mail, hcoded, h.quiet⟩)

/-- Both sides are stepped, and snapshots go their way. -/
theorem step (h : InStep policy fired [] posts s) (fair : s.Fair .step) :
    ∃ posts', InStep policy fired [] posts' (s.act .step) := by
  obtain ⟨clock, room, faithful⟩ := fair
  have hadvance := h.advance clock room
  have hversion : s.advance.version = s.version := rfl
  cases hcode : s.advance.server.snapshot.encode s.version with
  | error e =>
    have hact : s.act .step = s.advance := by
      rw [Session.act, Session.step]
      simp only [hversion, hcode]
      rfl
    rw [hact]
    exact ⟨posts, hadvance⟩
  | ok message =>
    have hfaithful := faithful (by rw [hcode]; rfl)
    rw [h.matching] at hfaithful
    have hmail : World.Mail policy s.advance.client.world s.advance.server
        (posts ++ [s.advance.server]) := by
      refine hadvance.mail.post hadvance.twins (fun g hg => ?_) (fun e he => ?_)
        hadvance.salvo.encodable hfaithful
      · exact h.mail.sent_lt clock g hg
      · rw [advance_client h.predicting] at he ⊢
        exact h.twins.started_step clock e he
    obtain ⟨overflow, hexchange⟩ | ⟨s', posts', hexchange, hnext⟩ :=
      hadvance.exchange hcode hmail
    · have hact : s.act .step = s := by
        rw [Session.act, Session.step]
        simp only [hversion, hcode, hexchange]
        rfl
      rw [hact]
      exact ⟨posts, h⟩
    · have hact : s.act .step = s' := by
        rw [Session.act, Session.step]
        simp only [hversion, hcode, hexchange]
        rfl
      rw [hact]
      exact ⟨posts', hnext⟩

end InStep

/-- A run keeps a session in lockstep. -/
theorem play_in_step {policy : MatchPolicy} {fired : List Shot} {posts : List World} {s : Session}
    {events : List Event} (h : InStep policy fired [] posts s) (fair : Along act Fair s events)
    (apart : (fired ++ s.shots events).Pairwise (Shot.Apart policy)) :
    ∃ posts', InStep policy (fired ++ s.shots events) [] posts' (s.play events) := by
  induction events generalizing fired posts s with
  | nil =>
    rw [shots, List.append_nil]
    exact ⟨posts, h⟩
  | cons event events ih =>
    cases event with
    | fire l =>
      rw [shots, List.append_cons] at apart ⊢
      have hsalvo : Salvo policy (fired ++ [Shot.fire s.server.context l]) := by
        refine ⟨(List.pairwise_append.mp apart).1, fun f hf => ?_, fun f hf => ?_⟩
        · rcases List.mem_append.mp hf with hf | hf
          · exact h.salvo.encodable f hf
          · exact List.mem_singleton.mp hf ▸ fair.1
        · rcases List.mem_append.mp hf with hf | hf
          · exact h.salvo.begun f hf
          · exact List.mem_singleton.mp hf ▸ h.twins.begun
      exact ih (h.fire l hsalvo) fair.2 apart
    | step =>
      obtain ⟨posts', hstep⟩ := h.step fair.1
      exact ih hstep fair.2 apart

theorem twins_new (policy : MatchPolicy) (cfg : Config) (terrain : Terrain) :
    World.Twins policy [] (World.new cfg terrain) (World.new cfg terrain) where
  clock := rfl
  begun := Int32.le_refl 0
  context _ := rfl
  numbers := rfl
  flights := rfl
  own := ⟨List.nodup_nil, (fun _ h => nomatch h), (fun _ h => nomatch h)⟩
  numbered := Client.numbered_new cfg terrain
  counted := rfl
  known _ h := nomatch h
  timed _ h := nomatch h
  flying _ h := nomatch h
  paired _ h := nomatch h
  room := Nat.zero_le _

/-- A new session is in lockstep. -/
theorem in_step_new (cfg : Config) (map : TileGrid) (latency : Tick) (version : UInt32) :
    InStep cfg.matching [] [] [] (Session.new cfg map map latency version) where
  matching := rfl
  predicting := rfl
  salvo := ⟨List.Pairwise.nil, (fun _ h => nomatch h), (fun _ h => nomatch h)⟩
  twins := twins_new cfg.matching cfg map.terrain
  mail :=
    { publishes := fun _ h => nomatch h
      follows := fun _ h => nomatch h
      sent := fun _ h => nomatch h
      ordered := List.Pairwise.nil }
  coded := List.Forall₂.nil
  quiet := ⟨rfl, rfl, rfl, rfl⟩

/-- **Lockstep.** In every fair run of shots that can be told apart, whatever the latency and
the protocol, no reconciliation adds, replaces, drops or discards a shot, and what flies on
the client is what flies on the server, in the same order. -/
theorem lockstep (cfg : Config) (map : TileGrid) (latency : Tick) (version : UInt32)
    (events : List Event)
    (fair : Along act Fair (Session.new cfg map map latency version) events)
    (apart : ((Session.new cfg map map latency version).shots events).Pairwise
      (Shot.Apart cfg.matching)) :
    let s := (Session.new cfg map map latency version).play events
    s.totals.spawned = 0 ∧ s.totals.replaced = 0 ∧ s.totals.dropped = 0 ∧
      s.totals.discarded = 0 ∧
      s.client.world.live.map (·.shot) = s.server.live.map (·.shot) := by
  intro s
  obtain ⟨posts, h⟩ := play_in_step (in_step_new cfg map latency version) fair apart
  refine ⟨h.quiet.spawned, h.quiet.replaced, h.quiet.dropped, h.quiet.discarded, ?_⟩
  have hflights := congrArg (List.map Prod.snd) h.twins.flights
  rw [List.map_map, List.map_map] at hflights
  exact hflights

/-- A map with one tile, which throws shots back. -/
def bouncer : TileGrid := (TileGrid.blank 3 1).setTile 1 0 .bounce

/-- A shot that is thrown back between two steps and then outlives its span, in the legacy
protocol and with snapshots a tick late: it is claimed, adopted and suppressed. -/
theorem lockstep_bounced :
    let l : Launch :=
      { weapon := .gun, owner := some ⟨3⟩, origin := ⟨27.0, 16.0⟩, direction := ⟨1.0, 0.0⟩
        bounces := 1, lifespan := some 4 }
    let events : List Event := [.fire l, .step, .step, .step, .step]
    let s := Session.new { tickHz := 1000 } bouncer bouncer 1 1
    let s' := s.play events
    Along act Fair s events ∧ (s.shots events).Pairwise (Shot.Apart {}) ∧
      s'.totals.claimed = 1 ∧ s'.totals.adopted = 1 ∧ s'.totals.suppressed = 1 ∧
      s'.totals.spawned = 0 ∧
      s'.client.world.live.map (·.shot) = s'.server.live.map (·.shot) := by
  intro l events
  dsimp only
  have fair : Along act Fair (Session.new { tickHz := 1000 } bouncer bouncer 1 1) events := by
    decide +kernel
  have apart : ((Session.new { tickHz := 1000 } bouncer bouncer 1 1).shots events).Pairwise
      (Shot.Apart {}) := by
    decide +kernel
  have counts : ((Session.new { tickHz := 1000 } bouncer bouncer 1 1).play events).totals.claimed
      = 1 ∧
      ((Session.new { tickHz := 1000 } bouncer bouncer 1 1).play events).totals.adopted = 1 ∧
      ((Session.new { tickHz := 1000 } bouncer bouncer 1 1).play events).totals.suppressed = 1 := by
    decide +kernel
  obtain ⟨spawned, -, -, -, flights⟩ :=
    lockstep { tickHz := 1000 } bouncer 1 1 events fair apart
  exact ⟨fair, apart, counts.1, counts.2.1, counts.2.2, spawned, flights⟩

end Session

end Volley
