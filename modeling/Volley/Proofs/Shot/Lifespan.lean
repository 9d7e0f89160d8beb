/-
# How long a flight can last

A lifespan is counted from the tick of creation, and a bounce does not start the count
again. But a tick asks for the age of a shot only if nothing stands in its way, so a shot
that is thrown back in the tick in which its span is over flies on. From that tick on every
tick ends the flight or is a bounce (`advance_old`). So the shot outlives its span exactly as
long as it is thrown back in every single tick, and by no more ticks than it was given
bounces (`outlives_while_bouncing`). In a cage of tiles that throw it back a shot does outlive
its span (`mayfly_outlives_span`).

Key definitions: `TickContext.later`, `TickContext.upcoming`, `Shot.ticked`,
`Shot.outcomeAt`.
Key theorems: `Shot.advanceSilently_eq_ticked`, `Shot.advance_old`, `Shot.outlives_while_bouncing`.
-/
import Volley.Proofs.Shot.Recall
import Volley.TileGrid.Sweep

namespace Volley

/-! ### Tick after tick -/

theorem Tick.toInt_next_eq_min (t : Tick) :
    t.next.toInt = min (t.toInt + 1) Int32.maxValue.toInt := by
  by_cases h : t < Int32.maxValue
  · have hlt := Int32.lt_iff_toInt_lt.mp h
    rw [toInt_next h, min_eq_left (by omega)]
  · have hlast : t = Int32.maxValue := Int32.le_antisymm (Int32.le_maxValue t) (Int32.not_lt.mp h)
    rw [hlast]
    rfl

/-- The context `k` ticks later. -/
def TickContext.later (ctx : TickContext) : Nat → TickContext
  | 0 => ctx
  | k + 1 => { ctx with tick := (ctx.later k).tick.next }

/-- The contexts of the next `k` ticks. -/
def TickContext.upcoming (ctx : TickContext) : Nat → List TickContext
  | 0 => []
  | k + 1 => ctx.upcoming k ++ [ctx.later (k + 1)]

/-- The clock runs until it stands at its last tick. -/
theorem TickContext.toInt_later (ctx : TickContext) (k : Nat) :
    (ctx.later k).tick.toInt = min (ctx.tick.toInt + k) Int32.maxValue.toInt := by
  induction k with
  | zero =>
    have hmax := ctx.tick.toInt_le
    show ctx.tick.toInt = _
    omega
  | succ k ih =>
    show (ctx.later k).tick.next.toInt = _
    rw [Tick.toInt_next_eq_min, ih]
    omega

theorem TickContext.later_later (ctx : TickContext) (k : Nat) :
    (ctx.later 1).later k = ctx.later (k + 1) := by
  induction k with
  | zero => rfl
  | succ k ih =>
    show ({ ctx.later 1 with tick := ((ctx.later 1).later k).tick.next } : TickContext) = _
    rw [ih]
    rfl

/-- The next contexts are the first of them and those that follow it. -/
theorem TickContext.upcoming_succ (ctx : TickContext) (n : Nat) :
    ctx.upcoming (n + 1) = ctx.later 1 :: (ctx.later 1).upcoming n := by
  induction n with
  | zero => rfl
  | succ n ih =>
    have hlast := ctx.later_later (n + 1)
    rw [upcoming, ih, List.cons_append, ← hlast]
    rfl

theorem TickContext.upcoming_eq_map (ctx : TickContext) (n : Nat) :
    ctx.upcoming n = (List.range n).map fun k => ctx.later (k + 1) := by
  induction n with
  | zero => rfl
  | succ n ih => rw [upcoming, ih, List.range_succ, List.map_append, List.map_singleton]

theorem Outcome.isBounced_iff {o : Outcome} : o.isBounced = true ↔ o = .bounced := by
  cases o <;> simp [isBounced]

namespace Shot

/-- The shot after the next `k` ticks. -/
def ticked (s : Shot) (ctx : TickContext) (k : Nat) : Shot := s.after (ctx.upcoming k)

/-- What the `k`-th of the next ticks does to the shot. -/
def outcomeAt (s : Shot) (ctx : TickContext) (k : Nat) : Outcome :=
  ((s.ticked ctx (k - 1)).advance (ctx.later k)).2

theorem ticked_succ (s : Shot) (ctx : TickContext) (k : Nat) :
    s.ticked ctx (k + 1) = ((s.ticked ctx k).advance (ctx.later (k + 1))).1 :=
  after_append s (ctx.upcoming k) [ctx.later (k + 1)]

/-- A shot that is brought up to date goes through all the ticks. -/
theorem advanceSilently_eq_ticked (ctx : TickContext) (n : Nat) (s : Shot) :
    advanceSilently ctx n s = s.ticked ctx n := by
  induction n generalizing ctx s with
  | zero => rfl
  | succ n ih =>
    rw [advanceSilently_succ, ih, ticked, ticked, TickContext.upcoming_succ]
    rfl

theorem outcomeAt_succ (s : Shot) (ctx : TickContext) (k : Nat) :
    s.outcomeAt ctx (k + 1) = ((s.ticked ctx k).advance (ctx.later (k + 1))).2 := rfl

theorem fixed_after (s : Shot) (ctxs : List TickContext) : (s.after ctxs).fixed = s.fixed := by
  induction ctxs generalizing s with
  | nil => rfl
  | cons ctx ctxs ih => exact (ih (s.advance ctx).1).trans (fixed_advance s ctx)

theorem fixed_ticked (s : Shot) (ctx : TickContext) (k : Nat) :
    (s.ticked ctx k).fixed = s.fixed :=
  fixed_after s (ctx.upcoming k)

/-! ### The age of a shot -/

theorem outlived_congr {s p : Shot} (h : s.fixed = p.fixed) (t : Tick) :
    s.outlived t = p.outlived t := by
  have hspan : s.lifespan = p.lifespan := (congrArg Shot.lifespan h :)
  have hstart : s.startTick = p.startTick := (congrArg Shot.startTick h :)
  unfold outlived
  rw [hspan, hstart]

/-- A tick that finds a shot past its span ends the flight, unless it is a bounce. -/
theorem advance_old {s : Shot} {ctx : TickContext} (old : s.outlived ctx.tick = true) :
    (s.advance ctx).2 ≠ .flying ∧
      ((s.advance ctx).1.removed = false ↔ (s.advance ctx).2 = .bounced) := by
  have hs := s.advanced ctx
  generalize s.advance ctx = out at hs
  cases hs with
  | inactive ended => simp [ended]
  | bounced hit flew => simp [bounceOff, flew]
  | impact => simp [remove]
  | clipped => simp [remove]
  | expired => simp [remove]
  | flying flew free inside young =>
    rw [old] at young
    cases young

/-- A bounce is taken in flight, and from the bounces left. -/
theorem bounces_of_bounced {s : Shot} {ctx : TickContext}
    (h : (s.advance ctx).2 = .bounced) :
    s.removed = false ∧ (s.advance ctx).1.bounces.toNat + 1 = s.bounces.toNat := by
  have hs := s.advanced ctx
  generalize s.advance ctx = out at h hs
  cases hs with
  | bounced hit flew met bouncy left =>
    exact ⟨flew, bounces_bounceOff left ctx.tick hit⟩
  | inactive => cases h
  | impact => cases h
  | clipped => cases h
  | expired => cases h
  | flying => cases h

theorem bounces_advance_le (s : Shot) (ctx : TickContext) :
    (s.advance ctx).1.bounces.toNat ≤ s.bounces.toNat := by
  by_cases h : (s.advance ctx).2 = .bounced
  · have hone := (bounces_of_bounced h).2
    omega
  · have hs := s.advanced ctx
    generalize s.advance ctx = out at h hs
    cases hs with
    | bounced => exact absurd rfl h
    | _ => exact Nat.le_refl _

theorem bounces_after_le (s : Shot) (ctxs : List TickContext) :
    (s.after ctxs).bounces.toNat ≤ s.bounces.toNat := by
  induction ctxs generalizing s with
  | nil => exact Nat.le_refl _
  | cons ctx ctxs ih => exact Nat.le_trans (ih (s.advance ctx).1) (bounces_advance_le s ctx)

/-! ### Past the span -/

section

variable {ctx : TickContext} {l : Launch} {span : UInt32}

/-- Once its span is over, a fired shot is old. -/
theorem outlived_fire (given : l.lifespan = some span)
    (room : ctx.tick.toInt + span.toNat ≤ Int32.maxValue.toInt) {k : Nat}
    (due : span.toNat ≤ k) : (fire ctx l).outlived (ctx.later k).tick = true := by
  have hclock := ctx.toInt_later k
  have hspan : (fire ctx l).lifespan = some span := given
  unfold outlived
  rw [hspan]
  show decide ((span.toNat : Int) ≤ (ctx.later k).tick.toInt - ctx.tick.toInt) = true
  rw [decide_eq_true_eq]
  omega

/-- From the tick in which its span is over, every tick ends the flight or is a bounce. -/
theorem ticked_old (given : l.lifespan = some span)
    (room : ctx.tick.toInt + span.toNat ≤ Int32.maxValue.toInt) {k : Nat}
    (due : span.toNat ≤ k + 1) :
    (fire ctx l).outcomeAt ctx (k + 1) ≠ .flying ∧
      (((fire ctx l).ticked ctx (k + 1)).removed = false ↔
        (fire ctx l).outcomeAt ctx (k + 1) = .bounced) := by
  rw [outcomeAt_succ, ticked_succ]
  refine advance_old ?_
  rw [outlived_congr (fixed_ticked _ ctx k)]
  exact outlived_fire given room due

/-- What flies past its span has paid every tick with a bounce. -/
theorem bounces_ticked_old (given : l.lifespan = some span) (some_ticks : 0 < span)
    (room : ctx.tick.toInt + span.toNat ≤ Int32.maxValue.toInt) {k : Nat}
    (due : span.toNat ≤ k) (flies : ((fire ctx l).ticked ctx k).removed = false) :
    (∀ j, span.toNat ≤ j → j ≤ k → (fire ctx l).outcomeAt ctx j = .bounced) ∧
      ((fire ctx l).ticked ctx k).bounces.toNat + (k + 1 - span.toNat) ≤ l.bounces.toNat := by
  have hpos : 0 < span.toNat := some_ticks
  induction k with
  | zero => omega
  | succ k ih =>
    have hbounced := (ticked_old given room due).2.mp flies
    obtain ⟨hflew, hless⟩ := bounces_of_bounced hbounced
    rw [Nat.add_sub_cancel] at hflew hless
    rw [← ticked_succ] at hless
    by_cases hfirst : span.toNat = k + 1
    · -- the first tick past the span: nothing is known of the bounces before it
      have hbefore := bounces_after_le (fire ctx l) (ctx.upcoming k)
      refine ⟨fun j hj hjk => ?_, ?_⟩
      · have hlast : j = k + 1 := by omega
        rw [hlast]
        exact hbounced
      · change ((fire ctx l).ticked ctx k).bounces.toNat ≤ l.bounces.toNat at hbefore
        omega
    · obtain ⟨hall, hpaid⟩ := ih (by omega) hflew
      refine ⟨fun j hj hjk => ?_, by omega⟩
      rcases Nat.lt_or_ge k j with hlt | hle
      · have hlast : j = k + 1 := by omega
        rw [hlast]
        exact hbounced
      · exact hall j hj hle

/-- **A shot outlives its span only by bouncing.** Let a fired shot be ticked at every tick
after its launch. From the tick in which its span is over, no tick lets it fly on. It is still
in flight then exactly if every tick since has thrown it back, and no longer when as many
ticks have passed as it was given bounces. -/
theorem outlives_while_bouncing (given : l.lifespan = some span) (some_ticks : 0 < span)
    (room : ctx.tick.toInt + span.toNat ≤ Int32.maxValue.toInt) {k : Nat}
    (due : span.toNat ≤ k) :
    (fire ctx l).outcomeAt ctx k ≠ .flying ∧
      (((fire ctx l).ticked ctx k).removed = false ↔
        ∀ j, span.toNat ≤ j → j ≤ k → (fire ctx l).outcomeAt ctx j = .bounced) ∧
      (span.toNat + l.bounces.toNat ≤ k → ((fire ctx l).ticked ctx k).removed = true) := by
  have hpos : 0 < span.toNat := some_ticks
  obtain ⟨k, rfl⟩ : ∃ j, k = j + 1 := ⟨k - 1, by omega⟩
  obtain ⟨hnot, hiff⟩ := ticked_old given room due
  refine ⟨hnot, ⟨fun flies => ?_, fun hall => ?_⟩, fun late => ?_⟩
  · exact (bounces_ticked_old given some_ticks room due flies).1
  · exact hiff.mpr (hall (k + 1) due (Nat.le_refl _))
  · by_contra hflies
    rw [Bool.not_eq_true] at hflies
    have hpaid := (bounces_ticked_old given some_ticks room due hflies).2
    omega

end

/-! ### A shot in a cage -/

/-- A free tile, closed in by tiles that throw shots back. -/
def cage : TileGrid where
  width := 3
  height := 3
  tiles := (Array.replicate 9 Tile.bounce).set 4 .empty
  zones := Array.replicate 9 defaultZone

/-- What shots see in the cage at the tick 0. -/
def caged : TickContext where
  tick := 0
  hz := 50
  tuning := .standard
  terrain := cage.terrain

/-- A shot in the cage, with a span of one tick and three bounces. -/
def mayfly : Launch :=
  { weapon := .gun, owner := some ⟨3⟩, origin := ⟨48.0, 48.0⟩, direction := ⟨1.0, 0.0⟩
    lifespan := some 1, bounces := 3 }

theorem caged_mayfly : ∀ k < 3, 1 ≤ k → (fire caged mayfly).outcomeAt caged k = .bounced := by
  have hbounced : ∀ k < 3, 1 ≤ k → ((fire caged mayfly).outcomeAt caged k).isBounced = true := by
    decide +kernel
  exact fun k hk hpos => Outcome.isBounced_iff.mp (hbounced k hk hpos)

/-- In the cage the shot is thrown back in the tick in which its span is over and in the next
one, so it is still in flight then. By the fourth tick its bounces cannot save it any more. -/
theorem mayfly_outlives_by_bounces :
    mayfly.lifespan = some 1 ∧ (0 : UInt32) < 1 ∧
      caged.tick.toInt + (1 : UInt32).toNat ≤ Int32.maxValue.toInt ∧
      ((fire caged mayfly).ticked caged 2).removed = false ∧
      ((fire caged mayfly).ticked caged 4).removed = true := by
  have given : mayfly.lifespan = some 1 := rfl
  have some_ticks : (0 : UInt32) < 1 := by decide
  have room : caged.tick.toInt + (1 : UInt32).toNat ≤ Int32.maxValue.toInt := by decide
  obtain ⟨-, hsecond, -⟩ := outlives_while_bouncing (k := 2) given some_ticks room (by decide)
  obtain ⟨-, -, hfourth⟩ := outlives_while_bouncing (k := 4) given some_ticks room (by decide)
  refine ⟨given, some_ticks, room, hsecond.mpr fun j hj hjk => ?_, hfourth (by decide)⟩
  exact caged_mayfly j (by omega) hj

/-- A span of one tick, and a shot that is still in flight after that tick, thrown back in it. -/
theorem mayfly_outlives_span :
    mayfly.lifespan = some 1 ∧ caged.tick.toInt + 1 ≤ Int32.maxValue.toInt ∧
      (fire caged mayfly).outcomeAt caged 1 = .bounced ∧
      ((fire caged mayfly).ticked caged 1).removed = false := by
  have given : mayfly.lifespan = some 1 := rfl
  have room : caged.tick.toInt + (1 : UInt32).toNat ≤ Int32.maxValue.toInt := by decide
  have hbounced := caged_mayfly 1 (by decide) (by decide)
  refine ⟨given, by decide, hbounced, ?_⟩
  exact (ticked_old given room (by decide)).2.mpr hbounced

end Shot

end Volley
