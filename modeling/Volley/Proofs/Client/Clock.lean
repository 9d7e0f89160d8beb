/-
# How far a clock can be behind

A client that meets a snapshot from its future subtracts its clock from the tick of the
snapshot, and is ended if that overflows. While it predicts, its clock starts at zero and only
goes forward. Without prediction each snapshot sets the clock to its own tick, forward or back,
so the clock is never before the latest tick that it was set to, nor before a snapshot that was
taken (`Clocked`). From a clock that is not negative every later tick is at most `2 ^ 31 - 1`
ahead. From a negative one the last tick of all is further ahead than that; and no snapshot of
that tick can have come yet, so it would be accepted (`lag_inRange_iff`).

Key definitions: `Client.setTo`, `Client.clockBase`, `Client.Clocked`.
Key theorems: `Client.Clocked.act`, `Client.clocked_play`, `Client.lag_inRange_iff`.
-/
import Volley.Proofs.Client.Acceptance
import Volley.Proofs.Shot.Lifespan

namespace Volley

theorem Tick.toInt_le_next (t : Tick) : t.toInt ≤ t.next.toInt := by
  have hmax := t.toInt_le
  rw [Tick.toInt_next_eq_min]
  omega

theorem Tick.toInt_max (a b : Tick) : (max a b).toInt = max a.toInt b.toInt := by
  by_cases h : a ≤ b
  · rw [show max a b = b from if_pos h, max_eq_right (Int32.le_iff_toInt_le.mp h)]
  · have hle := mt Int32.le_iff_toInt_le.mpr h
    rw [show max a b = a from if_neg h, max_eq_left (by omega)]

namespace Client

/-- The tick that the clock was set to last, if that was `t` before an action. Only a snapshot
that is taken without prediction sets the clock. -/
def setTo (c : Client) (a : Action) (t : Tick) : Tick :=
  if c.predicting then t else (c.accepted? a).elim t (·.tick)

/-- The tick that the clock was set to last in a run, and `t` before it is set at all. -/
def clockBase : Client → Tick → List Action → Tick
  | _, t, [] => t
  | c, t, a :: as => clockBase (c.act a) (c.setTo a t) as

/-- What the clock of a client was set to last, and what it has taken, is not after its
clock. -/
structure Clocked (c : Client) (base : Tick) (taken : List Snapshot) : Prop where
  base_le : base.toInt ≤ c.world.tick.toInt
  taken_le : ∀ s ∈ taken, s.tick.toInt ≤ c.world.tick.toInt

/-! ### One action -/

/-- Without a snapshot the clock goes forward. -/
theorem Becomes.tick_le {c : Client} {a : Action} {w : World} (h : Becomes c a w)
    (refused : c.accepted? a = none) : c.world.tick.toInt ≤ w.tick.toInt := by
  cases h with
  | same | fired | drained => exact le_rfl
  | ticked | waited => exact Tick.toInt_le_next c.world.tick
  | reconciled s accepted | mirrored s _ accepted => cases refused.symm.trans accepted

theorem act_tick_of_accepted {c : Client} {a : Action} {s : Snapshot}
    (accepted : c.accepted? a = some s) :
    (c.act a).world.tick = if c.predicting then max c.world.tick s.tick else s.tick := by
  obtain ⟨arrived, takes⟩ := Option.filter_eq_some_iff.mp accepted
  rw [(act_of_snapshot? arrived).1]
  obtain ⟨report, world, hreceive⟩ := receive_taken takes
  have htick := receive_tick takes
  rw [hreceive] at htick ⊢
  exact htick

theorem Clocked.act {n : Nat} {c : Client} {base : Tick} {taken : List Snapshot}
    (h : c.Clocked base taken) (remembers : c.history.Remembers n taken) (a : Action) :
    (c.act a).Clocked (c.setTo a base) (taken ++ (c.heard? a).toList) := by
  rw [heard?_eq]
  cases accepted : c.accepted? a with
  | none =>
    have forward := (act_becomes c a).tick_le accepted
    have hset : c.setTo a base = base := by simp [setTo, accepted]
    rw [hset, Option.toList_none, List.append_nil]
    exact ⟨h.base_le.trans forward, fun s hs => (h.taken_le s hs).trans forward⟩
  | some s =>
    have htick := act_tick_of_accepted accepted
    cases predicting : c.predicting with
    | true =>
      rw [if_pos predicting] at htick
      have hset : c.setTo a base = base := if_pos predicting
      have forward : c.world.tick.toInt ≤ (c.act a).world.tick.toInt := by
        rw [htick, Tick.toInt_max]
        exact le_max_left _ _
      have reached : s.tick.toInt ≤ (c.act a).world.tick.toInt := by
        rw [htick, Tick.toInt_max]
        exact le_max_right _ _
      rw [hset]
      refine ⟨h.base_le.trans forward, fun t ht => ?_⟩
      obtain before | rfl : t ∈ taken ∨ t = s := by simpa using ht
      · exact (h.taken_le t before).trans forward
      · exact reached
    | false =>
      rw [if_neg (by simp [predicting])] at htick
      have hset : c.setTo a base = s.tick := by simp [setTo, predicting, accepted]
      have takes : c.takes s = true := (Option.filter_eq_some_iff.mp accepted).2
      have later := (remembers.accepts_iff s).mp (takes_iff.mp takes).1
      rw [hset]
      refine ⟨by rw [htick], fun t ht => ?_⟩
      rw [htick]
      obtain before | rfl : t ∈ taken ∨ t = s := by simpa using ht
      · exact (Int32.lt_iff_toInt_lt.mp (later t before)).le
      · exact le_rfl

/-! ### A run -/

theorem clocked_play {n : Nat} {c : Client} {base : Tick} {taken : List Snapshot}
    (h : c.Clocked base taken) (remembers : c.history.Remembers n taken) (as : List Action) :
    (c.play as).Clocked (c.clockBase base as) (taken ++ c.heard as) := by
  induction as generalizing c base taken with
  | nil =>
    rw [heard, List.append_nil]
    exact h
  | cons a as ih =>
    have hrest := ih (h.act remembers a) (remembers_act remembers a)
    rw [List.append_assoc] at hrest
    exact hrest

theorem isOk_lag_iff {c : Client} {s : Snapshot} :
    (c.lag s).isOk = true ↔ Tick.InRange (s.tick.toInt - c.world.tick.toInt) :=
  Tick.isOk_ofNumber_iff

/-- **How far a clock can be behind.** Whatever a client has been through, its clock is not
before the tick that it was set to last, which is zero until a snapshot sets it. The difference
to every snapshot from its future that it accepts is a tick exactly if the clock is not
negative. Receiving a snapshot is ended exactly where that difference overflows. -/
theorem lag_inRange_iff (cfg : Config) (terrain : Terrain) (as : List Action) :
    let start := Client.new cfg terrain
    let c := start.play as
    (start.clockBase 0 as).toInt ≤ c.world.tick.toInt ∧
      ((∀ s, c.history.accepts s = true → c.world.tick < s.tick → (c.lag s).isOk = true) ↔
        0 ≤ c.world.tick) ∧
      ∀ s, (c.receive s).1.isOk = true ↔
        (c.history.accepts s = true → c.world.tick < s.tick → (c.lag s).isOk = true) := by
  intro start c
  have remembers : start.history.Remembers cfg.snapshotHistory [] :=
    History.remembers_new cfg.snapshotHistory
  have hstart : start.Clocked 0 [] := ⟨le_rfl, by simp⟩
  have clocked : c.Clocked (start.clockBase 0 as) (start.heard as) :=
    clocked_play hstart remembers as
  simp only [isOk_lag_iff]
  refine ⟨clocked.base_le, ⟨fun within => ?_, fun hzero s _ ahead => ?_⟩, fun s => isOk_receive_iff⟩
  · -- A negative clock is too far behind the last tick there is, and no snapshot of that tick
    -- has come yet, as the clock would have reached it.
    by_contra hnegative
    have hnegative : c.world.tick.toInt < 0 := Int32.lt_iff_toInt_lt.mp (Int32.not_le.mp hnegative)
    have hlast : (Int32.maxValue).toInt = 2147483647 := by decide
    let last : Snapshot := { tick := Int32.maxValue }
    have accepts : c.history.accepts last = true := by
      refine ((remembers_play remembers as).accepts_iff last).mpr fun s hs => ?_
      have := clocked.taken_le s hs
      exact Int32.lt_iff_toInt_lt.mpr (show s.tick.toInt < Int32.maxValue.toInt by omega)
    have ahead : c.world.tick < last.tick :=
      Int32.lt_iff_toInt_lt.mpr (show c.world.tick.toInt < Int32.maxValue.toInt by omega)
    have hfits : Int32.maxValue.toInt - c.world.tick.toInt ≤ Int32.maxValue.toInt :=
      (within last accepts ahead).2
    omega
  · have hzero : 0 ≤ c.world.tick.toInt := Int32.le_iff_toInt_le.mp hzero
    have ahead : c.world.tick.toInt < s.tick.toInt := Int32.lt_iff_toInt_lt.mp ahead
    have hmin : Int32.minValue.toInt ≤ 0 := by decide
    have hmax : s.tick.toInt ≤ Int32.maxValue.toInt := s.tick.toInt_le
    exact ⟨by omega, by omega⟩

/-- A client that was set to the first tick there is. -/
def setToFirst : Client :=
  (Client.new Config.standard .openSpace).play
    [.setPredicting false, .receive { tick := Int32.minValue }]

/-- The clock stands at the first tick there is. The snapshot of tick zero is accepted, and the
difference is the first number that is not a tick. -/
theorem lag_of_setToFirst :
    setToFirst.world.tick = Int32.minValue ∧
      setToFirst.history.accepts { tick := 0 } = true ∧
      setToFirst.world.tick < 0 ∧
      setToFirst.lag { tick := 0 } = .error ⟨2147483648⟩ ∧
      (setToFirst.receive { tick := 0 }).1 = .error ⟨2147483648⟩ := by
  decide +kernel

end Client

end Volley
