/-
# A delay line loses nothing

A line asks its oldest message alone whether it is due. If messages are sent at ticks that do
not decrease, they become due in the order in which they were sent, so no message that is due
waits behind one that is not. What a run has delivered is then the beginning of what it sent,
message by message and none of them early, and what is under way is the rest (`Carries`). So
whoever asks gets all that is due and was not delivered before, in order (`lossless`).

Key definitions: `DelayLine.sentIn`, `DelayLine.deliveredIn`, `DelayLine.InTime`,
`DelayLine.Carries`.
Key theorems: `DelayLine.takeWhile_eq_filter`, `DelayLine.carries_play`,
`DelayLine.lossless`.
-/
import Mathlib.Data.List.Forall2
import Mathlib.Data.List.TakeWhile
import Volley.Proofs.Shot.Past
import Volley.Session

namespace Volley

namespace DelayLine

/-- What can be done with a line. -/
inductive Action where
  | send (now : Tick) (message : List UInt8)
  | receive (now : Tick)

/-- The line after an action. A message whose due tick overflows is left out. -/
def act (line : DelayLine) : Action → DelayLine
  | .send now message => (line.send now message).toOption.getD line
  | .receive now => (line.receive now).2

/-- The line after a run. -/
def play (line : DelayLine) (as : List Action) : DelayLine := as.foldl act line

/-- The message that an action sends, with the tick of sending. -/
def Action.sent? : Action → Option (Tick × List UInt8)
  | send now message => some (now, message)
  | receive _ => none

/-- The messages that are sent in a run. -/
def sentIn (as : List Action) : List (Tick × List UInt8) := as.filterMap Action.sent?

/-- The messages that an action delivers, each with the tick of delivery. -/
def deliveredBy (line : DelayLine) : Action → List (Tick × List UInt8)
  | .send _ _ => []
  | .receive now => (line.receive now).1.map (now, ·)

/-- The messages that a run delivers. -/
def deliveredIn : DelayLine → List Action → List (Tick × List UInt8)
  | _, [] => []
  | line, a :: as => line.deliveredBy a ++ deliveredIn (line.act a) as

/-! ### Sorted lists -/

/-- Where what follows a miss is a miss as well, the hits are at the front. -/
theorem takeWhile_eq_filter {α : Type} {p : α → Bool} {l : List α}
    (sorted : l.Pairwise fun a b => p b = true → p a = true) : l.takeWhile p = l.filter p := by
  induction l with
  | nil => rfl
  | cons a l ih =>
    obtain ⟨hfirst, hrest⟩ := List.pairwise_cons.mp sorted
    by_cases ha : p a = true
    · rw [List.takeWhile_cons_of_pos ha, List.filter_cons_of_pos ha, ih hrest]
    · have hnone : l.filter p = [] :=
        List.filter_eq_nil_iff.mpr fun b hb hp => ha (hfirst b hb hp)
      rw [List.takeWhile_cons_of_neg ha, List.filter_cons_of_neg ha, hnone]

/-! ### What a line carries -/

/-- The message `delivered` is the message `sent`, and it was not early. -/
def InTime (delay : Tick) (sent delivered : Tick × List UInt8) : Prop :=
  sent.2 = delivered.2 ∧ sent.1.toInt + delay.toInt ≤ delivered.1.toInt

/-- The tick at which a message is due, if it does not overflow. -/
def dueAt (delay sent : Tick) : Tick := Int32.ofInt (sent.toInt + delay.toInt)

theorem toInt_dueAt {delay sent : Tick} (fits : Tick.InRange (sent.toInt + delay.toInt)) :
    (dueAt delay sent).toInt = sent.toInt + delay.toInt :=
  Int32.toInt_ofInt_of_le fits.1 (Int.lt_add_one_of_le fits.2)

/-- A message whose due tick does not overflow is put at the end of the line. -/
theorem send_of_inRange {line : DelayLine} {now : Tick}
    (fits : Tick.InRange (now.toInt + line.delay.toInt)) (message : List UInt8) :
    line.send now message =
      .ok { line with inFlight := line.inFlight ++ [(dueAt line.delay now, message)] } := by
  rw [send, Tick.exactSum, Tick.ofNumber_of_inRange fits]
  rfl

/-- The messages `gone` were delivered, each in time, and the line carries the messages
`waiting`. -/
structure Carries (delay : Tick) (gone waiting delivered : List (Tick × List UInt8))
    (line : DelayLine) : Prop where
  kept : line.delay = delay
  early : List.Forall₂ (InTime delay) gone delivered
  carried : line.inFlight = waiting.map fun m => (dueAt delay m.1, m.2)

theorem carries_new (delay : Tick) : Carries delay [] [] [] (new delay) where
  kept := rfl
  early := .nil
  carried := rfl

/-- The message is due, as far as the line can tell. -/
def isDue (delay now : Tick) (m : Tick × List UInt8) : Bool := dueAt delay m.1 ≤ now

/-- Each message becomes due at a moment that the clock can show. -/
def Room (delay : Tick) (sent : List (Tick × List UInt8)) : Prop :=
  ∀ m ∈ sent, Tick.InRange (m.1.toInt + delay.toInt)

theorem Room.isDue_iff {delay : Tick} {sent : List (Tick × List UInt8)} (room : Room delay sent)
    {m : Tick × List UInt8} (hm : m ∈ sent) (now : Tick) :
    isDue delay now m = true ↔ m.1.toInt + delay.toInt ≤ now.toInt := by
  rw [isDue, decide_eq_true_eq, Int32.le_iff_toInt_le, toInt_dueAt (room m hm)]

namespace Carries

variable {delay : Tick} {gone waiting delivered : List (Tick × List UInt8)} {line : DelayLine}

/-- What is sent is under way. -/
theorem send (c : Carries delay gone waiting delivered line) {now : Tick}
    (fits : Tick.InRange (now.toInt + delay.toInt)) (message : List UInt8) :
    Carries delay gone (waiting ++ [(now, message)]) delivered
      (line.act (.send now message)) := by
  rw [← c.kept] at fits
  rw [act, send_of_inRange fits message]
  refine ⟨c.kept, c.early, ?_⟩
  rw [List.map_append, ← c.carried, ← c.kept]
  rfl

theorem receive_fst (c : Carries delay gone waiting delivered line) (now : Tick) :
    (line.receive now).1 = (waiting.takeWhile (isDue delay now)).map (·.2) := by
  rw [DelayLine.receive, c.carried, List.takeWhile_map, List.map_map]
  rfl

/-- What is delivered was due, and the rest is still under way. -/
theorem receive (c : Carries delay gone waiting delivered line) (room : Room delay waiting)
    (now : Tick) :
    Carries delay (gone ++ waiting.takeWhile (isDue delay now))
      (waiting.dropWhile (isDue delay now))
      (delivered ++ (line.receive now).1.map (now, ·)) (line.receive now).2 where
  kept := c.kept
  early := by
    refine List.rel_append c.early ?_
    rw [c.receive_fst, List.map_map, List.forall₂_map_right_iff, List.forall₂_same]
    intro m hm
    have hwaits := (List.takeWhile_prefix _).subset hm
    exact ⟨rfl, (room.isDue_iff hwaits now).mp (List.mem_takeWhile_imp hm)⟩
  carried := by
    rw [DelayLine.receive, c.carried, List.dropWhile_map]
    rfl

/-- Messages sent in order become due in order, so all that are due are delivered. -/
theorem receive_eq_filter (c : Carries delay gone waiting delivered line)
    (room : Room delay waiting) (rising : waiting.Pairwise (·.1 ≤ ·.1)) (now : Tick) :
    (line.receive now).1 =
      (waiting.filter fun m => m.1.toInt + delay.toInt ≤ now.toInt).map (·.2) := by
  have sorted : waiting.Pairwise
      fun m n => isDue delay now n = true → isDue delay now m = true := by
    refine rising.imp_of_mem fun {m n} hm hn hle hdue => ?_
    rw [room.isDue_iff hm]
    rw [room.isDue_iff hn] at hdue
    have hle := Int32.le_iff_toInt_le.mp hle
    omega
  rw [c.receive_fst, takeWhile_eq_filter sorted]
  congr 1
  refine List.filter_congr fun m hm => ?_
  rw [Bool.eq_iff_iff, decide_eq_true_eq]
  exact room.isDue_iff hm now

end Carries

/-! ### Runs -/

/-- One action. -/
theorem carries_act {delay : Tick} {gone waiting delivered : List (Tick × List UInt8)}
    {line : DelayLine} (c : Carries delay gone waiting delivered line) (room : Room delay waiting)
    {a : Action} (fits : Room delay a.sent?.toList) :
    ∃ gone' waiting', gone' ++ waiting' = gone ++ waiting ++ a.sent?.toList ∧
      Carries delay gone' waiting' (delivered ++ line.deliveredBy a) (line.act a) := by
  cases a with
  | send now message =>
    refine ⟨gone, waiting ++ [(now, message)], (List.append_assoc ..).symm, ?_⟩
    rw [deliveredBy, List.append_nil]
    exact c.send (fits (now, message) (List.mem_singleton_self _)) message
  | receive now =>
    refine ⟨_, _, ?_, c.receive room now⟩
    rw [List.append_assoc, List.takeWhile_append_dropWhile]
    exact (List.append_nil _).symm

/-- A run. -/
theorem carries_play {delay : Tick} {as : List Action}
    {gone waiting delivered : List (Tick × List UInt8)} {line : DelayLine}
    (c : Carries delay gone waiting delivered line)
    (room : Room delay (gone ++ waiting ++ sentIn as)) :
    ∃ gone' waiting', gone' ++ waiting' = gone ++ waiting ++ sentIn as ∧
      Carries delay gone' waiting' (delivered ++ line.deliveredIn as) (line.play as) := by
  induction as generalizing gone waiting delivered line with
  | nil =>
    refine ⟨gone, waiting, (List.append_nil _).symm, ?_⟩
    rw [deliveredIn, List.append_nil]
    exact c
  | cons a as ih =>
    have hsent : sentIn (a :: as) = a.sent?.toList ++ sentIn as := by
      cases a <;> rfl
    have hwaits : Room delay waiting := fun m hm =>
      room m (List.mem_append_left _ (List.mem_append_right _ hm))
    have hfits : Room delay a.sent?.toList := fun m hm =>
      room m (List.mem_append_right _ (hsent ▸ List.mem_append_left _ hm))
    obtain ⟨gone', waiting', hfirst, hact⟩ := carries_act c hwaits hfits
    have hroom : Room delay (gone' ++ waiting' ++ sentIn as) := by
      rw [hfirst, List.append_assoc, ← hsent]
      exact room
    obtain ⟨gone'', waiting'', hrest, hplay⟩ := ih hact hroom
    refine ⟨gone'', waiting'', ?_, ?_⟩
    · rw [hrest, hfirst, hsent, List.append_assoc]
    · rw [deliveredIn, ← List.append_assoc]
      exact hplay

/-- **A delay line loses nothing, and delivers in time.** Let messages be sent at ticks that do
not decrease, and become due at moments that the clock can show. After any run, what it has
delivered and then what is under way is what it sent, in order. So the message delivered at
some place is the one sent at that place, and it was not early. And whoever asks gets exactly
the messages that have not been delivered yet and are due by then, in order. -/
theorem lossless (delay : Tick) (as : List Action)
    (rising : (sentIn as).Pairwise (·.1 ≤ ·.1))
    (room : ∀ m ∈ sentIn as, Tick.InRange (m.1.toInt + delay.toInt)) :
    let line := (new delay).play as
    let sent := sentIn as
    let delivered := (new delay).deliveredIn as
    delivered.map (·.2) ++ line.inFlight.map (·.2) = sent.map (·.2) ∧
      List.Forall₂ (InTime delay) (sent.take delivered.length) delivered ∧
      ∀ now, (line.receive now).1 =
        ((sent.drop delivered.length).filter
          fun m => m.1.toInt + delay.toInt ≤ now.toInt).map (·.2) := by
  intro line sent delivered
  have room' : Room delay ([] ++ [] ++ sentIn as) := room
  obtain ⟨gone, waiting, hsent, c⟩ := carries_play (carries_new delay) room'
  simp only [List.nil_append] at hsent c
  have hsent : sent = gone ++ waiting := hsent.symm
  have hlength : delivered.length = gone.length := c.early.length_eq.symm
  have hgone : delivered.map (·.2) = gone.map (·.2) := by
    rw [← List.forall₂_eq_eq_eq, List.forall₂_map_left_iff, List.forall₂_map_right_iff]
    exact c.early.flip.imp fun _ _ h => h.1.symm
  have hwaits (m) (hm : m ∈ waiting) : m ∈ sent := hsent ▸ List.mem_append_right _ hm
  refine ⟨?_, ?_, fun now => ?_⟩
  · rw [hgone, c.carried, List.map_map, hsent, List.map_append]
    rfl
  · rw [hlength, hsent, List.take_left]
    exact c.early
  · rw [hlength, hsent, List.drop_left]
    refine c.receive_eq_filter (fun m hm => room m (hwaits m hm)) ?_ now
    have hrising : (gone ++ waiting).Pairwise (·.1 ≤ ·.1) := hsent ▸ rising
    exact (List.pairwise_append.mp hrising).2.1

/-- Two messages that are sent at one tick, and a later one. -/
def post : List Action :=
  [.send 1 [10], .send 2 [20], .send 2 [30], .receive 3, .receive 1, .send 7 [40]]

/-- With a delay of two ticks, the message of tick 1 has been delivered at tick 3. At tick 4 the
two messages of tick 2 are, and the one of tick 7 stays. -/
theorem lossless_post :
    (sentIn post).Pairwise (·.1 ≤ ·.1) ∧
      (∀ m ∈ sentIn post, Tick.InRange (m.1.toInt + (2 : Tick).toInt)) ∧
      (new 2).deliveredIn post = [(3, [10])] ∧
      (((new 2).play post).receive 4).1 = [[20], [30]] ∧
      (((new 2).play post).receive 4).2.inFlight = [(9, [40])] := by
  have rising : (sentIn post).Pairwise (·.1 ≤ ·.1) := by decide
  have room : ∀ m ∈ sentIn post, Tick.InRange (m.1.toInt + (2 : Tick).toInt) := by decide
  have delivered : (new 2).deliveredIn post = [(3, [10])] := by decide
  obtain ⟨-, -, now⟩ := lossless 2 post rising room
  refine ⟨rising, room, delivered, ?_, by decide⟩
  rw [now, delivered]
  decide

end DelayLine

end Volley
