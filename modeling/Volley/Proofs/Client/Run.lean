/-
# Runs of a client

A run is any list of actions, done one after the other. Nothing can come after an action that
an overflow ends, so such an action is left out, and what a run leads to are the states in
which all its calls have returned. `Client.Becomes` says everything that one action can do to
the world of a client; what holds of runs is proved from it. The creations of a run are
counted, and with the count the run is a passage of its world (`passage_play`).

Key definitions: `Client.Action`, `Client.act`, `Client.play`, `Client.InReach`,
`Client.takes`, `Client.accepted?`, `Client.createdBy`, `Client.Becomes`.
Key theorems: `Client.takes_iff`, `Client.act_becomes`, `Client.passage_play`,
`Client.numbered_play`.
-/
import Volley.Proofs.Along
import Volley.Proofs.World.Numbering

namespace Volley

namespace Client

/-- What can be done with a client. -/
inductive Action where
  | fire (l : Launch)
  | tick
  | setPredicting (on : Bool)
  | receive (s : Snapshot)
  | receiveBytes (bytes : List UInt8)
  | drain

/-- The snapshot that arrives in an action. -/
def Action.snapshot? : Action → Option Snapshot
  | receive s => some s
  | receiveBytes bytes => (Snapshot.decode bytes).toOption
  | _ => none

/-- The client after an action, unless it is ended by an overflow. -/
def act (c : Client) : Action → Client
  | .fire l => (c.fire l).2
  | .tick => c.tick.2
  | .setPredicting on => c.setPredicting on
  | .receive s => (c.receive s).stateAfter c
  | .receiveBytes bytes => (c.receiveBytes bytes).stateAfter c
  | .drain => c.drainImpacts.2

/-- The client after a run. -/
def play (c : Client) (as : List Action) : Client := as.foldl act c

/-- The clock is not behind a snapshot, or so far behind as it can tell. -/
def InReach (c : Client) (s : Snapshot) : Prop :=
  c.world.tick < s.tick → Tick.InRange (s.tick.toInt - c.world.tick.toInt)

instance (c : Client) (s : Snapshot) : Decidable (c.InReach s) :=
  inferInstanceAs (Decidable (_ → _))

/-- The snapshot is newer than all in the history, and the clock can catch up with it. -/
def takes (c : Client) (s : Snapshot) : Bool := c.history.accepts s && (c.catchUp s).isOk

/-- The snapshot that a client accepts in an action. -/
def accepted? (c : Client) (a : Action) : Option Snapshot := a.snapshot?.filter c.takes

/-- The steps that the world of a client takes in an action. Without prediction it takes
none. -/
def ticksIn (c : Client) (a : Action) : Nat :=
  if c.predicting then
    match a with
    | .tick => 1
    | a => (c.accepted? a).elim 0 fun s => c.world.tick.stepsUpTo s.tick
  else 0

/-- What the client reports of a snapshot. -/
def report? (c : Client) : Action → Option ReconcileReport
  | .receive s => (c.receive s).1.toOption.join
  | .receiveBytes bytes => (c.receiveBytes bytes).1.toOption.join
  | _ => none

/-- The entities that an action creates. -/
def created (c : Client) (a : Action) : Nat :=
  match a with
  | .fire _ => c.predicting.toNat
  | a => (c.report? a).elim 0 (·.spawned)

/-- The entities that a run creates. -/
def createdBy : Client → List Action → Nat
  | _, [] => 0
  | c, a :: as => c.created a + createdBy (c.act a) as

theorem play_append (c : Client) (as bs : List Action) :
    c.play (as ++ bs) = (c.play as).play bs := List.foldl_append

theorem createdBy_append (c : Client) (as bs : List Action) :
    c.createdBy (as ++ bs) = c.createdBy as + (c.play as).createdBy bs := by
  induction as generalizing c with
  | nil => simp [createdBy, play]
  | cons a as ih =>
    have := ih (c.act a)
    simp only [play] at this
    simp only [List.cons_append, createdBy, play, List.foldl_cons, this]
    omega

/-! ### What an action does -/

/-- What the world of a client becomes in an action. -/
inductive Becomes (c : Client) (a : Action) : World → Prop where
  /-- The action does not touch the world. -/
  | same (created : c.created a = 0) (refused : c.accepted? a = none) (idle : c.ticksIn a = 0)
      (keeps : a ≠ .drain) : Becomes c a c.world
  /-- A shot is predicted. -/
  | fired (l : Launch) (is : a = .fire l) (predicting : c.predicting = true) :
      Becomes c a (c.world.fire l).2
  /-- The predicted world is stepped. -/
  | ticked (is : a = .tick) (predicting : c.predicting = true) : Becomes c a c.world.step.2
  /-- Only the clock moves. -/
  | waited (is : a = .tick) (predicting : c.predicting = false) :
      Becomes c a (c.world.setTick c.world.tick.next)
  /-- The waiting effects are taken. -/
  | drained (is : a = .drain) : Becomes c a c.world.drainImpacts.2
  /-- A snapshot is accepted while the client predicts. -/
  | reconciled (s : Snapshot) (accepted : c.accepted? a = some s)
      (predicting : c.predicting = true)
      (created : c.created a =
        ((c.world.steps (c.world.tick.stepsUpTo s.tick)).reconcile s c.policy).1.spawned) :
      Becomes c a ((c.world.steps (c.world.tick.stepsUpTo s.tick)).reconcile s c.policy).2
  /-- A snapshot is accepted while the client does not predict. -/
  | mirrored (s : Snapshot) (t : Tick) (accepted : c.accepted? a = some s)
      (predicting : c.predicting = false) (created : c.created a = s.items.length) :
      Becomes c a (replaceAll (c.world.setTick t) s)

theorem runTicks_predicting {c : Client} (h : c.predicting = true) (n : Nat) :
    runTicks n c = { c with world := c.world.steps n } := by
  induction n generalizing c with
  | zero => rfl
  | succ n ih =>
    have htick : c.tick.2 = { c with world := c.world.step.2 } := by simp [tick, h]
    rw [runTicks, htick]
    exact ih (c := { c with world := c.world.step.2 }) h

theorem runTo_predicting {c : Client} (hp : c.predicting = true) (t : Tick) :
    c.runTo t = { c with world := c.world.steps (c.world.tick.stepsUpTo t) } := by
  rw [runTo, if_pos hp]
  exact runTicks_predicting hp _

theorem runTo_mirroring {c : Client} (hp : c.predicting = false) (t : Tick) :
    c.runTo t = { c with world := c.world.setTick (max c.world.tick t) } :=
  if_neg (by simp [hp])

/-- A clock that is not behind does not run. -/
theorem runTo_of_le {c : Client} {t : Tick} (h : t ≤ c.world.tick) : c.runTo t = c := by
  cases hp : c.predicting with
  | true =>
    have hle := Int32.le_iff_toInt_le.mp h
    have hnone : c.world.tick.stepsUpTo t = 0 := by
      unfold Tick.stepsUpTo
      omega
    rw [runTo_predicting hp, hnone]
    rfl
  | false =>
    have hlast : max c.world.tick t = c.world.tick := by
      by_cases hge : c.world.tick ≤ t
      · exact (if_pos hge).trans (Int32.le_antisymm h hge)
      · exact if_neg hge
    rw [runTo_mirroring hp, hlast]
    rfl

theorem catchUp_of_inReach {c : Client} {s : Snapshot} (h : c.InReach s) :
    c.catchUp s = .ok (c.runTo s.tick) := by
  unfold catchUp
  by_cases ahead : c.world.tick < s.tick
  · rw [if_pos ahead, lag, Tick.exactDifference, Tick.ofNumber_of_inRange (h ahead)]
    rfl
  · rw [if_neg ahead, runTo_of_le (Int32.not_lt.mp ahead)]

theorem catchUp_of_not_inReach {c : Client} {s : Snapshot} (h : ¬c.InReach s) :
    c.catchUp s = .error ⟨s.tick.toInt - c.world.tick.toInt⟩ := by
  obtain ⟨ahead, far⟩ := Classical.not_imp.mp h
  rw [catchUp, if_pos ahead, lag, Tick.exactDifference, Tick.ofNumber_of_not_inRange far]
  rfl

theorem takes_iff {c : Client} {s : Snapshot} :
    c.takes s = true ↔ c.history.accepts s = true ∧ c.InReach s := by
  rw [takes, Bool.and_eq_true, and_congr_right_iff]
  intro _
  constructor
  · intro hok
    by_contra hfar
    rw [catchUp_of_not_inReach hfar] at hok
    cases hok
  · intro h
    rw [catchUp_of_inReach h]
    rfl

theorem receive_refused {c : Client} {s : Snapshot} (h : c.history.accepts s = false) :
    c.receive s = (.ok none, c) := by
  simp [receive, History.push, h]

theorem push_accepted {c : Client} {s : Snapshot} (h : c.history.accepts s = true) :
    c.history.push s = (true, (c.history.push s).2) := by
  simp [History.push, h]

/-- A difference that is not a tick leaves the snapshot in the history, and the rest of the
client as it was. -/
theorem receive_overflow {c : Client} {s : Snapshot} (h : c.history.accepts s = true)
    (far : ¬c.InReach s) :
    c.receive s = (.error ⟨s.tick.toInt - c.world.tick.toInt⟩,
      { c with history := (c.history.push s).2 }) := by
  have hcatch := catchUp_of_not_inReach (c := { c with history := (c.history.push s).2 }) far
  rw [receive, push_accepted h]
  simp only [hcatch]

/-- A snapshot that is taken goes into the history, the clock catches up, and then the shots are
reconciled or replaced. -/
theorem receive_takes {c c' : Client} {s : Snapshot} (h : c.takes s = true)
    (caught : runTo { c with history := (c.history.push s).2 } s.tick = c') :
    c.receive s =
      if c'.predicting then
        (.ok (some (c'.world.reconcile s c'.policy).1),
          { c' with world := (c'.world.reconcile s c'.policy).2 })
      else
        (.ok (some { tick := s.tick, confirmed := s.items.length, spawned := s.items.length }),
          { c' with world := replaceAll c'.world s }) := by
  obtain ⟨haccepts, hreach⟩ := takes_iff.mp h
  have hcatch := catchUp_of_inReach (c := { c with history := (c.history.push s).2 }) hreach
  rw [caught] at hcatch
  rw [receive, push_accepted haccepts]
  simp only [hcatch]

theorem receive_predicting {c : Client} {s : Snapshot} (h : c.takes s = true)
    (hp : c.predicting = true) :
    c.receive s =
      (.ok (some ((c.world.steps (c.world.tick.stepsUpTo s.tick)).reconcile s c.policy).1),
        { c with
          history := (c.history.push s).2
          world :=
            ((c.world.steps (c.world.tick.stepsUpTo s.tick)).reconcile s c.policy).2 }) := by
  rw [receive_takes h
    (runTo_predicting (c := { c with history := (c.history.push s).2 }) hp s.tick)]
  exact if_pos hp

theorem receive_mirroring {c : Client} {s : Snapshot} (h : c.takes s = true)
    (hp : c.predicting = false) :
    c.receive s =
      (.ok (some { tick := s.tick, confirmed := s.items.length, spawned := s.items.length }),
        { c with
          history := (c.history.push s).2
          world := replaceAll (c.world.setTick (max c.world.tick s.tick)) s }) := by
  rw [receive_takes h
    (runTo_mirroring (c := { c with history := (c.history.push s).2 }) hp s.tick)]
  exact if_neg (by simp [hp])

/-- A snapshot that is taken touches the history and the world, and is reported. -/
theorem receive_taken {c : Client} {s : Snapshot} (h : c.takes s = true) :
    ∃ report world,
      c.receive s = (.ok (some report), { c with history := (c.history.push s).2, world }) := by
  by_cases hp : c.predicting = true
  · exact ⟨_, _, receive_predicting h hp⟩
  · exact ⟨_, _, receive_mirroring h (by simpa using hp)⟩

/-- Receiving a snapshot is ended by an overflow exactly if it is accepted and out of reach. -/
theorem isOk_receive_iff {c : Client} {s : Snapshot} :
    (c.receive s).1.isOk = true ↔ (c.history.accepts s = true → c.InReach s) := by
  cases haccepts : c.history.accepts s with
  | false =>
    rw [receive_refused haccepts]
    exact iff_of_true rfl fun h => absurd h Bool.false_ne_true
  | true =>
    by_cases reach : c.InReach s
    · obtain ⟨report, world, hreceive⟩ := receive_taken (takes_iff.mpr ⟨haccepts, reach⟩)
      rw [hreceive]
      exact iff_of_true rfl fun _ => reach
    · rw [receive_overflow haccepts reach]
      exact iff_of_false Bool.false_ne_true fun h => reach (h rfl)

/-- A snapshot that is not taken is not reported, and no run goes on from it. -/
theorem receive_not_taken {c : Client} {s : Snapshot} (h : c.takes s = false) :
    (c.receive s).stateAfter c = c ∧ (c.receive s).1.toOption.join = none := by
  cases haccepts : c.history.accepts s with
  | false =>
    rw [receive_refused haccepts]
    exact ⟨rfl, rfl⟩
  | true =>
    have hfar : ¬c.InReach s := fun hreach =>
      Bool.false_ne_true (h.symm.trans (takes_iff.mpr ⟨haccepts, hreach⟩))
    rw [receive_overflow haccepts hfar]
    exact ⟨rfl, rfl⟩

theorem receiveBytes_ok {c : Client} {bytes : List UInt8} {s : Snapshot}
    (h : Snapshot.decode bytes = .ok s) : c.receiveBytes bytes = c.receive s := by
  rw [receiveBytes, h]

/-- Bytes that cannot be read change nothing. -/
theorem receiveBytes_error {c : Client} {bytes : List UInt8} {e : WireError}
    (h : Snapshot.decode bytes = .error e) : c.receiveBytes bytes = (.ok none, c) := by
  rw [receiveBytes, h]

theorem act_receiveBytes_error {c : Client} {bytes : List UInt8} {e : WireError}
    (h : Snapshot.decode bytes = .error e) :
    c.act (.receiveBytes bytes) = c ∧ c.report? (.receiveBytes bytes) = none := by
  rw [act, report?, receiveBytes_error h]
  exact ⟨rfl, rfl⟩

theorem snapshot?_of_accepted? {c : Client} {a : Action} {s : Snapshot}
    (h : c.accepted? a = some s) : a.snapshot? = some s :=
  (Option.filter_eq_some_iff.mp h).1

theorem ticksIn_of_accepted {c : Client} {a : Action} {s : Snapshot}
    (h : c.accepted? a = some s) (hp : c.predicting = true) :
    c.ticksIn a = c.world.tick.stepsUpTo s.tick := by
  unfold ticksIn
  rw [if_pos hp]
  split
  · cases snapshot?_of_accepted? h
  · simp [h]

theorem ticksIn_of_refused {c : Client} {a : Action} (h : c.accepted? a = none)
    (htick : a ≠ .tick) : c.ticksIn a = 0 := by
  unfold ticksIn
  split
  · split
    · exact absurd rfl htick
    · simp [h]
  · rfl

theorem ticksIn_tick {c : Client} (hp : c.predicting = true) : c.ticksIn .tick = 1 := by
  simp [ticksIn, hp]

/-- An action in which no snapshot arrives accepts none. -/
theorem accepted?_eq_none {c : Client} {a : Action} (h : a.snapshot? = none) :
    c.accepted? a = none := by
  simp [accepted?, h]

/-- A snapshot is received, whichever form it arrives in. -/
theorem act_of_snapshot? {c : Client} {a : Action} {s : Snapshot} (h : a.snapshot? = some s) :
    c.act a = (c.receive s).stateAfter c ∧ c.report? a = (c.receive s).1.toOption.join := by
  cases a with
  | receive s' =>
    cases h
    exact ⟨rfl, rfl⟩
  | receiveBytes bytes =>
    cases hd : Snapshot.decode bytes with
    | ok s' =>
      rw [Action.snapshot?, hd] at h
      cases h
      rw [act, report?, receiveBytes_ok hd]
      exact ⟨rfl, rfl⟩
    | error e =>
      rw [Action.snapshot?, hd] at h
      cases h
  | fire | tick | setPredicting | drain => cases h

theorem created_of_snapshot? {c : Client} {a : Action} {s : Snapshot} (h : a.snapshot? = some s) :
    c.created a = (c.receive s).1.toOption.join.elim 0 (·.spawned) := by
  rw [← (act_of_snapshot? h).2]
  cases a with
  | fire => cases h
  | _ => rfl

theorem becomes_receive (c : Client) (a : Action) (s : Snapshot) (hs : a.snapshot? = some s) :
    Becomes c a (c.act a).world := by
  have hcreated := created_of_snapshot? (c := c) hs
  rw [(act_of_snapshot? hs).1]
  cases h : c.takes s with
  | true =>
    have haccepted : c.accepted? a = some s := by simp [accepted?, hs, h]
    cases hp : c.predicting with
    | true =>
      rw [receive_predicting h hp] at hcreated ⊢
      exact .reconciled s haccepted hp hcreated
    | false =>
      rw [receive_mirroring h hp] at hcreated ⊢
      exact .mirrored s _ haccepted hp hcreated
  | false =>
    have hrefused : c.accepted? a = none := by simp [accepted?, hs, h]
    obtain ⟨hstays, hnone⟩ := receive_not_taken h
    rw [hnone] at hcreated
    rw [hstays]
    refine .same hcreated hrefused (ticksIn_of_refused hrefused ?_) ?_
    · rintro rfl
      cases hs
    · rintro rfl
      cases hs

/-- **One action.** It does to the world one of the things that `Becomes` lists. -/
theorem act_becomes (c : Client) (a : Action) : Becomes c a (c.act a).world := by
  cases a with
  | fire l =>
    by_cases hp : c.predicting = true
    · have hworld : (c.act (.fire l)).world = (c.world.fire l).2 := by simp [act, fire, hp]
      rw [hworld]
      exact .fired l rfl hp
    · have hworld : (c.act (.fire l)).world = c.world := by simp [act, fire, hp]
      rw [hworld]
      have hrefused : c.accepted? (.fire l) = none := accepted?_eq_none rfl
      refine .same (by simp [created, hp]) hrefused (ticksIn_of_refused hrefused ?_) ?_ <;> simp
  | tick =>
    by_cases hp : c.predicting = true
    · have hworld : (c.act .tick).world = c.world.step.2 := by simp [act, tick, hp]
      rw [hworld]
      exact .ticked rfl hp
    · have hworld : (c.act .tick).world = c.world.setTick c.world.tick.next := by
        simp [act, tick, hp]
      rw [hworld]
      exact .waited rfl (by simpa using hp)
  | setPredicting on =>
    have hrefused : c.accepted? (.setPredicting on) = none := accepted?_eq_none rfl
    refine .same rfl hrefused (ticksIn_of_refused hrefused ?_) ?_ <;> simp
  | receive s => exact becomes_receive c _ s rfl
  | receiveBytes bytes =>
    cases hd : Snapshot.decode bytes with
    | ok s => exact becomes_receive c _ s (by simp [Action.snapshot?, hd, Except.toOption])
    | error e =>
      obtain ⟨hstays, hnone⟩ := act_receiveBytes_error (c := c) hd
      rw [hstays]
      have hrefused : c.accepted? (.receiveBytes bytes) = none := by
        simp [accepted?, Action.snapshot?, hd, Except.toOption]
      refine .same ?_ hrefused (ticksIn_of_refused hrefused ?_) ?_
      · simp only [created, hnone, Option.elim_none]
      · simp
      · simp
  | drain => exact .drained rfl

/-! ### What a run keeps -/

theorem tick_predicting (c : Client) : c.tick.2.predicting = c.predicting := by
  unfold tick
  split <;> rfl

theorem fire_predicting (c : Client) (l : Launch) : (c.fire l).2.predicting = c.predicting := by
  unfold fire
  split <;> rfl

theorem receive_keeps_predicting (c : Client) (s : Snapshot) :
    ((c.receive s).stateAfter c).predicting = c.predicting := by
  cases h : c.takes s with
  | true =>
    obtain ⟨report, world, hreceive⟩ := receive_taken h
    rw [hreceive]
    rfl
  | false => rw [(receive_not_taken h).1]

/-- A client goes on predicting, or not predicting, until it is told otherwise. -/
theorem act_predicting {c : Client} {a : Action} {on : Bool} (hp : c.predicting = on)
    (ha : a ≠ .setPredicting !on) : (c.act a).predicting = on := by
  cases hs : a.snapshot? with
  | some s =>
    rw [(act_of_snapshot? hs).1]
    exact (receive_keeps_predicting c s).trans hp
  | none =>
    cases a with
    | fire l => exact (fire_predicting c l).trans hp
    | tick => exact (tick_predicting c).trans hp
    | setPredicting set =>
      show set = on
      by_contra hne
      exact ha (congrArg Action.setPredicting (Bool.eq_not_of_ne hne))
    | receive s => cases hs
    | receiveBytes bytes =>
      cases hd : Snapshot.decode bytes with
      | ok s =>
        rw [Action.snapshot?, hd] at hs
        cases hs
      | error e =>
        rw [(act_receiveBytes_error hd).1]
        exact hp
    | drain => exact hp

theorem play_predicting {c : Client} {as : List Action} {on : Bool} (hp : c.predicting = on)
    (ha : ∀ a ∈ as, a ≠ .setPredicting !on) : (c.play as).predicting = on := by
  induction as generalizing c with
  | nil => exact hp
  | cons a as ih =>
    have hfirst := act_predicting hp (ha a List.mem_cons_self)
    exact ih hfirst fun b hb => ha b (List.mem_cons_of_mem _ hb)

/-! ### Numbers along a run -/

theorem Becomes.passage {c : Client} {a : Action} {w : World} (h : Becomes c a w) :
    World.Passage c.world w (c.created a) := by
  cases h with
  | same created => rw [created]; exact .refl _
  | fired l is predicting =>
    have hone : c.created a = 1 := by simp [is, created, predicting]
    rw [hone]
    exact World.passage_fire _ l
  | ticked is => rw [is]; exact World.passage_step _
  | waited is => rw [is]; exact World.passage_setTick _ _
  | drained is =>
    rw [is]
    exact .of_subperm rfl (List.Subperm.refl _) (List.Subset.refl _)
  | reconciled s accepted predicting created =>
    rw [created]
    simpa using (World.passage_steps _ c.world).trans (World.passage_reconcile _ s c.policy)
  | mirrored s t accepted predicting created =>
    rw [created]
    simpa using (World.passage_setTick c.world t).trans (World.passage_replaceAll _ s)

/-- A run is a passage of the world, with the entities that it creates. -/
theorem passage_play (c : Client) (as : List Action) :
    World.Passage c.world (c.play as).world (c.createdBy as) := by
  induction as generalizing c with
  | nil => exact .refl _
  | cons a as ih => exact (act_becomes c a).passage.trans (ih (c.act a))

theorem numbered_new (cfg : Config) (terrain : Terrain) :
    World.Numbered (Client.new cfg terrain).world where
  nodup := List.nodup_nil
  below := fun _ h => nomatch h

/-- Numbers are different in every state of a run that does not use them up. -/
theorem numbered_play (cfg : Config) (terrain : Terrain) {as : List Action}
    (few : (Client.new cfg terrain).createdBy as + 1 < UInt64.size) :
    World.Numbered ((Client.new cfg terrain).play as).world := by
  refine (passage_play _ as).numbered (numbered_new cfg terrain) ?_
  have hone : (Client.new cfg terrain).world.nextId.toNat = 1 := rfl
  omega

/-- The next number of a client with `n` creations behind it. -/
theorem nextId_play (cfg : Config) (terrain : Terrain) {as : List Action}
    (few : (Client.new cfg terrain).createdBy as + 1 < UInt64.size) :
    ((Client.new cfg terrain).play as).world.nextId.toNat =
      1 + (Client.new cfg terrain).createdBy as := by
  have hone : (Client.new cfg terrain).world.nextId.toNat = 1 := rfl
  rw [(passage_play _ as).toNat_nextId (by omega), hone]

end Client

end Volley
