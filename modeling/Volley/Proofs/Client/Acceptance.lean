/-
# A snapshot is taken whole or not at all

A client takes the bytes that encode a snapshot later than all it took before. It needs to
look at its newest snapshot only, since its history remembers that one whatever happens
(`remembers_play`). All other bytes leave the client as it was, and a snapshot that is taken
leaves the clock of a predicting client at the later of the two ticks, and that of another
one at the tick of the snapshot.

The exception is a snapshot so far ahead of the clock that the difference overflows. It is in
the history before the difference is asked for, so the client is left with a snapshot that its
world has not seen (`Outcome.torn`, `torn_at_first`).

Key definitions: `Client.heard?`, `Client.heard`, `Client.Outcome`.
Key theorems: `Client.remembers_play`, `Client.outcome_receive`,
`Client.receiveBytes_all_or_nothing`.
-/
import Volley.Proofs.Client.Run
import Volley.Proofs.History
import Volley.Proofs.World.Settled

namespace Volley

namespace Client

/-- The snapshot of an action, if the client says that it took it. -/
def heard? (c : Client) (a : Action) : Option Snapshot :=
  if (c.report? a).isSome then a.snapshot? else none

/-- The snapshots that a client takes in a run. -/
def heard : Client → List Action → List Snapshot
  | _, [] => []
  | c, a :: as => (c.heard? a).toList ++ heard (c.act a) as

/-! ### What was taken is remembered -/

/-- A client says that it took a snapshot exactly if it took it. -/
theorem heard?_eq (c : Client) (a : Action) : c.heard? a = c.accepted? a := by
  unfold heard? accepted?
  cases hs : a.snapshot? with
  | none => simp
  | some s =>
    rw [(act_of_snapshot? hs).2]
    cases h : c.takes s with
    | true =>
      obtain ⟨report, world, hreceive⟩ := receive_taken h
      rw [hreceive, Option.filter_some, h]
      rfl
    | false =>
      rw [(receive_not_taken h).2, Option.filter_some, h]
      rfl

/-- Nothing but a snapshot touches the history. -/
theorem act_history {c : Client} {a : Action} (h : a.snapshot? = none) :
    (c.act a).history = c.history := by
  cases a with
  | fire l =>
    show (c.fire l).2.history = _
    unfold fire
    split <;> rfl
  | tick =>
    show c.tick.2.history = _
    unfold tick
    split <;> rfl
  | receive s => cases h
  | receiveBytes bytes =>
    cases hd : Snapshot.decode bytes with
    | ok s =>
      rw [Action.snapshot?, hd] at h
      cases h
    | error e => rw [(act_receiveBytes_error hd).1]
  | setPredicting | drain => rfl

/-- One action. -/
theorem remembers_act {n : Nat} {c : Client} {taken : List Snapshot}
    (r : c.history.Remembers n taken) (a : Action) :
    (c.act a).history.Remembers n (taken ++ (c.heard? a).toList) := by
  rw [heard?_eq]
  cases hs : a.snapshot? with
  | none =>
    rw [act_history hs, accepted?_eq_none hs, Option.toList_none, List.append_nil]
    exact r
  | some s =>
    rw [(act_of_snapshot? hs).1]
    cases h : c.takes s with
    | true =>
      have htaken : c.accepted? a = some s := by simp [accepted?, hs, h]
      obtain ⟨report, world, hreceive⟩ := receive_taken h
      rw [htaken, hreceive]
      exact r.push (takes_iff.mp h).1
    | false =>
      have hrefused : c.accepted? a = none := by simp [accepted?, hs, h]
      rw [(receive_not_taken h).1, hrefused, Option.toList_none, List.append_nil]
      exact r

/-- A run. -/
theorem remembers_play {n : Nat} {c : Client} {taken : List Snapshot}
    (r : c.history.Remembers n taken) (as : List Action) :
    (c.play as).history.Remembers n (taken ++ c.heard as) := by
  induction as generalizing c taken with
  | nil =>
    rw [heard, List.append_nil]
    exact r
  | cons a as ih =>
    have hrest := ih (remembers_act r a)
    rw [List.append_assoc] at hrest
    exact hrest

/-! ### The clock -/

/-- The clock of a client that has taken a snapshot. -/
theorem receive_tick {c : Client} {s : Snapshot} (h : c.takes s = true) :
    (c.receive s).2.world.tick =
      if c.predicting then max c.world.tick s.tick else s.tick := by
  cases hp : c.predicting with
  | false =>
    rw [receive_mirroring h hp]
    simp [World.replaceAll_eq]
  | true =>
    rw [receive_predicting h hp, if_pos rfl]
    show ((c.world.steps (c.world.tick.stepsUpTo s.tick)).reconcile s c.policy).2.tick = _
    rw [(World.contextAt_reconcile _ s c.policy).1]
    have hsteps : c.world.tick.stepsUpTo s.tick =
        (s.tick.toInt - c.world.tick.toInt).toNat := rfl
    have hmax := s.tick.toInt_le
    by_cases hle : c.world.tick ≤ s.tick
    · have hbehind := Int32.le_iff_toInt_le.mp hle
      have htick : (c.world.steps (c.world.tick.stepsUpTo s.tick)).tick.toInt =
          c.world.tick.toInt + c.world.tick.stepsUpTo s.tick := World.tick_steps (by omega)
      have hlast : max c.world.tick s.tick = s.tick := if_pos hle
      rw [hlast]
      apply Int32.toInt_inj.mp
      omega
    · have hahead := mt Int32.le_iff_toInt_le.mpr hle
      have hnone : c.world.tick.stepsUpTo s.tick = 0 := by omega
      have hfirst : max c.world.tick s.tick = c.world.tick := if_neg hle
      rw [hnone, hfirst]
      rfl

/-! ### What becomes of a snapshot -/

/-- The snapshot is later than all the given ones. -/
def Later (s : Snapshot) (taken : List Snapshot) : Prop := ∀ t ∈ taken, t.tick < s.tick

instance (s : Snapshot) (taken : List Snapshot) : Decidable (Later s taken) :=
  inferInstanceAs (Decidable (∀ t ∈ taken, _))

/-- What comes of a call that may be given the snapshot `s`, by a client `c` that has taken the
snapshots `taken`. -/
inductive Outcome (c : Client) (taken : List Snapshot) (s : Snapshot) :
    Checked Client (Option ReconcileReport) → Prop where
  /-- The snapshot is not later than all before, and nothing changes. -/
  | refused (late : ¬Later s taken) : Outcome c taken s (.ok none, c)
  /-- The snapshot is taken, and the clock shows the later of the two ticks, or without
  prediction that of the snapshot. -/
  | taken (later : Later s taken) (reach : c.InReach s) (report : ReconcileReport) (c' : Client)
      (clock : c'.world.tick = if c.predicting then max c.world.tick s.tick else s.tick) :
      Outcome c taken s (.ok (some report), c')
  /-- The clock is too far behind. The snapshot has been put into the history, and nothing else
  has changed. -/
  | torn (later : Later s taken) (far : ¬c.InReach s) (history : History)
      (newest : history.latest? = some s) :
      Outcome c taken s (.error ⟨s.tick.toInt - c.world.tick.toInt⟩, { c with history })

theorem outcome_receive {n : Nat} {c : Client} {taken : List Snapshot}
    (r : c.history.Remembers n taken) (s : Snapshot) : Outcome c taken s (c.receive s) := by
  cases haccepts : c.history.accepts s with
  | false =>
    have late : ¬Later s taken := fun later =>
      Bool.false_ne_true (haccepts.symm.trans ((r.accepts_iff s).mpr later))
    rw [receive_refused haccepts]
    exact .refused late
  | true =>
    have later : Later s taken := (r.accepts_iff s).mp haccepts
    by_cases reach : c.InReach s
    · have htakes := takes_iff.mpr ⟨haccepts, reach⟩
      have clock := receive_tick htakes
      obtain ⟨report, world, hreceive⟩ := receive_taken htakes
      rw [hreceive] at clock ⊢
      exact .taken later reach report _ clock
    · have newest : (c.history.push s).2.latest? = some s := by
        rw [(r.push haccepts).latest?, List.getLast?_concat]
      rw [receive_overflow haccepts reach]
      exact .torn later reach _ newest

/-- **A snapshot is taken whole or not at all, within reach.** Whatever a client has been
through, bytes are taken exactly if they encode a snapshot that is later than every one taken
before, and not further ahead of the clock than can be told. Once a snapshot is taken, the
clock shows the later of the two ticks, or without prediction that of the snapshot. Bytes that
are refused change nothing. The call is ended exactly if a later snapshot is too far ahead, and
then the snapshot is the newest of the history, and the rest of the client is as it was. -/
theorem receiveBytes_all_or_nothing (cfg : Config) (terrain : Terrain) (as : List Action)
    (bytes : List UInt8) :
    let start := Client.new cfg terrain
    let c := start.play as
    let taken := start.heard as
    let out := c.receiveBytes bytes
    ((∃ report, out.1 = .ok (some report)) ↔
      ∃ s, Snapshot.decode bytes = .ok s ∧ Later s taken ∧ c.InReach s) ∧
    ((∃ overflow, out.1 = .error overflow) ↔
      ∃ s, Snapshot.decode bytes = .ok s ∧ Later s taken ∧ ¬c.InReach s) ∧
    (out.1 = .ok none → out.2 = c) ∧
    ∀ s, Snapshot.decode bytes = .ok s →
      (∀ report, out.1 = .ok (some report) →
        out.2.world.tick = if c.predicting then max c.world.tick s.tick else s.tick) ∧
      ∀ overflow, out.1 = .error overflow →
        overflow = ⟨s.tick.toInt - c.world.tick.toInt⟩ ∧
        ∃ history, history.latest? = some s ∧ out.2 = { c with history } := by
  intro start c taken out
  have remembers : c.history.Remembers cfg.snapshotHistory ([] ++ taken) :=
    remembers_play (History.remembers_new cfg.snapshotHistory) as
  rw [List.nil_append] at remembers
  cases hd : Snapshot.decode bytes with
  | error e =>
    have hout : out = (.ok none, c) := receiveBytes_error hd
    rw [hout]
    simp
  | ok s =>
    have houtcome : Outcome c taken s out := by
      rw [show out = c.receive s from receiveBytes_ok hd]
      exact outcome_receive remembers s
    simp only [Except.ok.injEq, exists_eq_left', forall_eq']
    generalize out = out at houtcome
    cases houtcome with
    | refused late => simp [late]
    | taken later reach report c' clock => simp [later, reach, clock]
    | torn later far history newest => simp [later, far, newest]

/-- The bytes of an empty snapshot of a tick with two bytes. -/
def emptyAt (high low : UInt8) : List UInt8 := [0, 0, 0, 2, high, 0, 0, low, 0, 0, 0, 0]

/-- A configuration that asks for no history at all. -/
def forgetful : Config := { Config.standard with snapshotHistory := 0 }

/-- A run that takes the snapshot of tick 40, and a tick after it. -/
def atForty : List Action := [.receiveBytes (emptyAt 0 40), .receiveBytes [7], .tick]

/-- A client that keeps a single snapshot refuses the one of tick 40 when it comes again, and
a packet that is cut short. It catches up with tick 50. -/
theorem receiveBytes_all_or_nothing_forgetful :
    let c := (Client.new forgetful .openSpace).play atForty
    c.predicting = true ∧ c.world.tick = 41 ∧
      (c.receiveBytes (emptyAt 0 40)).2 = c ∧ (c.receiveBytes [0, 0, 0, 2]).2 = c ∧
      (∃ report, (c.receiveBytes (emptyAt 0 50)).1 = .ok (some report)) ∧
      (c.receiveBytes (emptyAt 0 50)).2.world.tick = 50 := by
  dsimp only
  have spec := receiveBytes_all_or_nothing forgetful .openSpace atForty
  have predicting : ((Client.new forgetful .openSpace).play atForty).predicting = true := by
    decide +kernel
  have clock : ((Client.new forgetful .openSpace).play atForty).world.tick = 41 := by
    decide +kernel
  have again : (((Client.new forgetful .openSpace).play atForty).receiveBytes
      (emptyAt 0 40)).1 = .ok none := by decide +kernel
  have short : (((Client.new forgetful .openSpace).play atForty).receiveBytes
      [0, 0, 0, 2]).1 = .ok none := by decide +kernel
  have decoded : Snapshot.decode (emptyAt 0 50) = .ok { tick := 50 } := by decide +kernel
  have later : ∀ t ∈ (Client.new forgetful .openSpace).heard atForty, t.tick < 50 := by
    decide +kernel
  have reach : ((Client.new forgetful .openSpace).play atForty).InReach { tick := 50 } := by
    decide +kernel
  obtain ⟨report, taken⟩ := (spec (emptyAt 0 50)).1.mpr ⟨{ tick := 50 }, decoded, later, reach⟩
  have caught := ((spec (emptyAt 0 50)).2.2.2 _ decoded).1 report taken
  rw [if_pos predicting, clock] at caught
  exact ⟨predicting, clock, (spec _).2.2.1 again, (spec _).2.2.1 short, ⟨report, taken⟩, caught⟩

/-- A run without prediction that takes the snapshot of the first tick there is. -/
def atFirst : List Action := [.setPredicting false, .receiveBytes (emptyAt 0x80 0)]

/-- After it the snapshot of tick zero is not taken, although its bytes encode it and it is later
than the one before. It is in the history all the same, while the clock still stands at the
first tick. -/
theorem torn_at_first :
    let start := Client.new .standard .openSpace
    let out := (start.play atFirst).receiveBytes (emptyAt 0 0)
    Snapshot.decode (emptyAt 0 0) = .ok { tick := 0 } ∧
      Later { tick := 0 } (start.heard atFirst) ∧
      (¬∃ report, out.1 = .ok (some report)) ∧
      out.2.world.tick = Int32.minValue ∧ out.2.history.latest? = some { tick := 0 } := by
  refine ⟨by decide +kernel, by decide +kernel, ?_, by decide +kernel, by decide +kernel⟩
  have failed : (((Client.new .standard .openSpace).play atFirst).receiveBytes
      (emptyAt 0 0)).1.isOk = false := by decide +kernel
  rintro ⟨report, taken⟩
  rw [taken] at failed
  cases failed

end Client

end Volley
