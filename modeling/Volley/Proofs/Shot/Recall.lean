/-
# A shot remembers what it was

A shot is ticked along a list of contexts (`Shot.after`). If their ticks increase, the
contexts up to any moment are a first part of the list (`eq_filter_append`), and all that
the later ones do is put new legs on top (`Past.after`). So the final shot answers for that
moment what it was then, and is recognised by what was published then.

Key definitions: `Shot.after`, `Shot.Flown`.
Key theorems: `Shot.advanceSilently_succ`, `Shot.runTo_induction`, `Past.runTo`,
`Shot.past_after`, `Shot.recalls`.
-/
import Volley.Proofs.Scalar.Finite
import Volley.Proofs.Shot.Past
import Volley.Shot.Launch

namespace Volley

namespace Shot

/-- The shot after a tick in each of the contexts. -/
def after (s : Shot) (ctxs : List TickContext) : Shot :=
  ctxs.foldl (fun s ctx => (s.advance ctx).1) s

theorem after_append (s : Shot) (first second : List TickContext) :
    s.after (first ++ second) = (s.after first).after second :=
  List.foldl_append

/-- With increasing ticks, the contexts up to a moment come before the other ones. -/
theorem eq_filter_append (t : Tick) :
    ∀ {ctxs : List TickContext}, ctxs.Pairwise (·.tick < ·.tick) →
      ctxs = ctxs.filter (·.tick ≤ t) ++ ctxs.filter (t < ·.tick)
  | [], _ => rfl
  | ctx :: ctxs, increasing => by
    obtain ⟨hfirst, hrest⟩ := List.pairwise_cons.mp increasing
    by_cases h : ctx.tick ≤ t
    · have hnot : ¬t < ctx.tick := Int32.not_lt.mpr h
      rw [List.filter_cons_of_pos (by simpa using h), List.filter_cons_of_neg (by simpa using hnot),
        List.cons_append, ← eq_filter_append t hrest]
    · have hlater : ∀ c ∈ ctx :: ctxs, t < c.tick := by
        intro c hc
        have ht := Int32.not_le.mp h
        rcases List.mem_cons.mp hc with rfl | hc
        · exact ht
        · exact Int32.lt_trans ht (hfirst c hc)
      have hnone : (ctx :: ctxs).filter (·.tick ≤ t) = [] := by
        refine List.filter_eq_nil_iff.mpr fun c hc => ?_
        simpa using Int32.not_le.mpr (hlater c hc)
      have hall : (ctx :: ctxs).filter (t < ·.tick) = ctx :: ctxs :=
        List.filter_eq_self.mpr fun c hc => by simpa using hlater c hc
      rw [hnone, hall, List.nil_append]

/-- All legs were launched by `now`, and the current one in a finite direction. -/
structure Flown (now : Tick) (s : Shot) : Prop where
  launched : ∀ leg ∈ s.legs, leg.launchTick ≤ now
  heading : s.direction.isFinite = true

theorem flown_fire (ctx : TickContext) (l : Launch) {now : Tick} (later : ctx.tick ≤ now) :
    Flown now (fire ctx l) where
  launched := by
    intro leg hleg
    rw [List.mem_singleton.mp hleg]
    exact later
  heading := Vec2.isFinite_normalizeOrZero l.direction

theorem Flown.advance {now : Tick} {s : Shot} (h : Flown now s) {ctx : TickContext}
    (earlier : ctx.tick ≤ now) : Flown now (s.advance ctx).1 := by
  have hs := s.advanced ctx
  generalize s.advance ctx = out at hs
  cases hs with
  | bounced hit =>
    refine ⟨fun leg hleg => ?_, Vec2.isFinite_normalizeOrZero _⟩
    rcases List.mem_cons.mp hleg with rfl | hleg
    · exact earlier
    · exact h.launched leg hleg
  | inactive => exact h
  | impact => exact ⟨h.launched, h.heading⟩
  | clipped => exact ⟨h.launched, h.heading⟩
  | expired => exact ⟨h.launched, h.heading⟩
  | flying => exact h

theorem Flown.after {now : Tick} :
    ∀ {ctxs : List TickContext} {s : Shot}, Flown now s → (∀ ctx ∈ ctxs, ctx.tick ≤ now) →
      Flown now (s.after ctxs)
  | [], _, h, _ => h
  | ctx :: ctxs, s, h, earlier => by
    have hstep := h.advance (earlier ctx List.mem_cons_self)
    exact hstep.after fun c hc => earlier c (List.mem_cons_of_mem _ hc)

/-- What was at a tick is not changed by any number of later ones. -/
theorem Past.after {p : Shot} {seen : Tick} :
    ∀ {ctxs : List TickContext} {s : Shot}, Past s p seen → (∀ ctx ∈ ctxs, seen < ctx.tick) →
      Past (s.after ctxs) p seen
  | [], _, h, _ => h
  | ctx :: ctxs, s, h, later => by
    have hstep := h.advance (later ctx List.mem_cons_self)
    exact hstep.after fun c hc => later c (List.mem_cons_of_mem _ hc)

/-- A flight that is over stays as it is. -/
theorem advanceSilently_of_removed {s : Shot} (ended : s.removed = true) (ctx : TickContext) :
    ∀ n, advanceSilently ctx n s = s
  | 0 => rfl
  | n + 1 => by rw [advanceSilently, if_pos ended]

/-- The early stop of the way up changes nothing: a tick more is a tick more. -/
theorem advanceSilently_succ (ctx : TickContext) (n : Nat) (s : Shot) :
    advanceSilently ctx (n + 1) s =
      advanceSilently { ctx with tick := ctx.tick.next } n
        (s.advance { ctx with tick := ctx.tick.next }).1 := by
  by_cases ended : s.removed = true
  · rw [advance_of_removed ended, advanceSilently_of_removed ended,
      advanceSilently_of_removed ended]
  · rw [advanceSilently, if_neg ended]

/-- What every tick after `seen` keeps, the ticks that bring a shot up to date keep. -/
theorem advanceSilently_induction {P : Shot → Prop} {seen : Tick}
    (step : ∀ (s : Shot) (ctx : TickContext), seen < ctx.tick → P s → P (s.advance ctx).1) :
    ∀ {n : Nat} {ctx : TickContext} {s : Shot}, P s → seen ≤ ctx.tick →
      ctx.tick.toInt + n ≤ Int32.maxValue.toInt → P (advanceSilently ctx n s)
  | 0, _, _, h, _, _ => h
  | n + 1, ctx, s, h, known, room => by
    unfold advanceSilently
    split
    · exact h
    · have hmax : ctx.tick < Int32.maxValue := by
        rw [Int32.lt_iff_toInt_lt]
        omega
      have hnext : seen < ctx.tick.next := Int32.lt_of_le_of_lt known (Tick.lt_next hmax)
      have hroom : ctx.tick.next.toInt + n ≤ Int32.maxValue.toInt := by
        rw [Tick.toInt_next hmax]
        omega
      have hstep := step s { ctx with tick := ctx.tick.next } hnext h
      exact advanceSilently_induction step hstep (Int32.le_of_lt hnext) hroom

theorem runTo_induction {P : Shot → Prop} {seen : Tick}
    (step : ∀ (s : Shot) (ctx : TickContext), seen < ctx.tick → P s → P (s.advance ctx).1)
    {s : Shot} (h : P s) {ctx : TickContext} (known : seen ≤ ctx.tick) (tick : Tick) :
    P (s.runTo ctx tick) := by
  have hmax := tick.toInt_le
  have hmax' := ctx.tick.toInt_le
  have hsteps : ctx.tick.toInt + (ctx.tick.stepsUpTo tick : Nat) ≤ Int32.maxValue.toInt := by
    unfold Tick.stepsUpTo
    omega
  exact advanceSilently_induction step h known hsteps

/-- Nor is it changed by the ticks that bring a shot up to date. -/
theorem Past.runTo {s p : Shot} {seen : Tick} (h : Past s p seen) {ctx : TickContext}
    (known : seen ≤ ctx.tick) (tick : Tick) : Past (s.runTo ctx tick) p seen :=
  runTo_induction (P := (Past · p seen)) (fun _ _ later hs => hs.advance later) h known tick

/-- A shot agrees with what it was. -/
theorem Past.agreesAt {s p : Shot} {seen : Tick} {policy : MatchPolicy} (h : Past s p seen)
    (heading : p.direction.isFinite = true) (usable : 0.0 ≤ policy.directionEpsilon) :
    s.agreesAt p seen policy = true := by
  have howner : s.owner = p.owner := (congrArg Shot.owner h.fixed :)
  have hweapon : s.weapon = p.weapon := (congrArg Shot.weapon h.fixed :)
  have hstart : s.startTick = p.startTick := (congrArg Shot.startTick h.fixed :)
  have hgap : p.startTick.gap p.startTick = 0 := by
    unfold Tick.gap
    omega
  unfold Shot.agreesAt sameShot
  rw [h.directionAt, Vec2.distance_self heading, howner, hweapon, hstart, hgap]
  simp [usable]

/-- A fired shot is, at every moment of its flight, what it was then. -/
theorem past_after (ctx : TickContext) (l : Launch) (ctxs : List TickContext) (t : Tick)
    (increasing : ctxs.Pairwise (·.tick < ·.tick)) (since : ctx.tick ≤ t) :
    let p := (fire ctx l).after (ctxs.filter (·.tick ≤ t))
    Flown t p ∧ Past ((fire ctx l).after ctxs) p t := by
  intro p
  have hflown : Flown t p := by
    refine (flown_fire ctx l since).after fun c hc => ?_
    simpa using (List.mem_filter.mp hc).2
  refine ⟨hflown, ?_⟩
  have hsplit : (fire ctx l).after ctxs = p.after (ctxs.filter (t < ·.tick)) := by
    rw [← after_append, ← eq_filter_append t increasing]
  rw [hsplit]
  refine (Past.refl hflown.launched).after fun c hc => ?_
  simpa using (List.mem_filter.mp hc).2

/-- **Recall.** Let a fired shot be ticked at increasing ticks, in any contexts, and let `p` be
what it was at the moment `t`. The final shot gives for `t` the direction, the bounces left
and the extension block of `p`, which is the block that `p` published then; and by a policy
that accepts equal directions it is taken for `p`. -/
theorem recalls (ctx : TickContext) (l : Launch) (ctxs : List TickContext) (t : Tick)
    (increasing : (ctx :: ctxs).Pairwise (·.tick < ·.tick)) (since : ctx.tick ≤ t) :
    let p := (fire ctx l).after (ctxs.filter (·.tick ≤ t))
    let q := (fire ctx l).after ctxs
    q.directionAt t = p.direction ∧ q.bouncesAt t = p.bounces ∧ q.extraAt t = p.extraAt t ∧
      (∀ seen : TickContext, seen.tick = t → (p.toRecord seen).extra = some (q.extraAt t)) ∧
      ∀ policy : MatchPolicy, 0.0 ≤ policy.directionEpsilon → q.agreesAt p t policy = true := by
  intro p q
  obtain ⟨hflown, hpast⟩ := past_after ctx l ctxs t (List.pairwise_cons.mp increasing).2 since
  refine ⟨hpast.directionAt, hpast.bouncesAt, hpast.extraAt, ?_, ?_⟩
  · intro seen hseen
    have hextra : (p.toRecord seen).extra = some (p.extraAt seen.tick) := rfl
    rw [hextra, hseen, hpast.extraAt]
  · intro policy usable
    exact hpast.agreesAt hflown.heading usable

/-- The context of a tick on a map where every way is blocked by a bouncing surface. -/
def boxed (tick : Tick) : TickContext where
  tick
  hz := 50
  tuning := .standard
  terrain := { hit := fun start _ => some ⟨start, start, ⟨-1.0, 0.0⟩, true⟩ }

/-- A shot that bounces in two ticks in a row and dies in the next one still knows how it
flew between the bounces. -/
theorem recalls_boxed :
    let l : Launch :=
      { weapon := .gun, owner := some ⟨3⟩, origin := ⟨64.0, 16.0⟩, direction := ⟨0.8, 0.6⟩
        bounces := 2 }
    let p := (fire (boxed 1) l).after [boxed 2]
    let q := (fire (boxed 1) l).after [boxed 2, boxed 3, boxed 5]
    q.removed = true ∧ q.bounces = 0 ∧ p.bounces = 1 ∧ p.direction.x < 0.0 ∧
      q.bouncesAt 2 = p.bounces ∧ q.directionAt 2 = p.direction ∧ q.agreesAt p 2 {} = true := by
  intro l p q
  have state : q.removed = true ∧ q.bounces = 0 ∧ p.bounces = 1 ∧ p.direction.x < 0.0 := by
    decide +kernel
  have increasing : [boxed 1, boxed 2, boxed 3, boxed 5].Pairwise (·.tick < ·.tick) := by
    decide +kernel
  obtain ⟨heading, bounces, -, -, agrees⟩ :=
    recalls (boxed 1) l [boxed 2, boxed 3, boxed 5] 2 increasing (by decide)
  exact ⟨state.1, state.2.1, state.2.2.1, state.2.2.2, bounces, heading,
    agrees {} (by decide +kernel)⟩

end Shot

end Volley
