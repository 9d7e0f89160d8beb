/-
# The life of a shot

A shot is fired, or rebuilt from a record (`Shot.Source`), and then goes through ticks: at any
moments, in any order, and each on a map and with a tuning of its own. Its outcomes tell all
that became of it (`Accounted`). Each bounce is paid from the bounces given to it and leaves
one leg behind, the flight ends with the first outcome that says so (`Outcome.isEnd`), and
what was fixed at launch stays. A flight that is over answers every further tick with the
same word and never changes again (`outcomes_of_removed`), so an impact is set off once at
most (`lives_once`).

Key definitions: `Outcome.isEnd`, `Shot.Source`, `Shot.outcomes`, `Shot.Accounted`.
Key theorems: `Shot.accounted_advance`, `Shot.accounted_after`, `Shot.outcomes_of_removed`,
`Shot.lives_once`.
-/
import Volley.Proofs.Shot.Published
import Volley.Proofs.Shot.Recall

namespace Volley

namespace Outcome

/-- The tick ended the flight. -/
def isEnd : Outcome → Bool
  | impact _ | expired | clipped => true
  | flying | bounced | inactive => false

theorem isSome_impact? (o : Outcome) : o.impact?.isSome = o.isImpact := by
  cases o <;> rfl

theorem isEnd_of_isImpact {o : Outcome} (h : o.isImpact = true) : o.isEnd = true := by
  cases o with
  | impact event => rfl
  | flying | bounced | expired | clipped | inactive => cases h

/-- The effects of some ticks are as many as their impacts. -/
theorem length_impacts (outcomes : List Outcome) :
    (outcomes.filterMap impact?).length = outcomes.countP isImpact := by
  rw [List.length_filterMap_eq_countP]
  exact List.countP_congr fun o _ => by rw [isSome_impact?]

end Outcome

namespace Shot

/-- Where a shot comes from: a player fires it, or a record describes it. -/
inductive Source where
  | fired (ctx : TickContext) (l : Launch)
  | recorded (ctx : TickContext) (r : Record)

/-- The shot as it comes from there. -/
def Source.shot : Source → Shot
  | fired ctx l => fire ctx l
  | recorded ctx r => ofRecord ctx r

theorem Source.removed_shot (source : Source) : source.shot.removed = false := by
  cases source with
  | fired ctx l => rfl
  | recorded ctx r => exact removed_ofRecord ctx r

theorem Source.pastLegs_shot (source : Source) : source.shot.pastLegs = [] := by
  cases source with
  | fired ctx l => rfl
  | recorded ctx r => exact pastLegs_ofRecord ctx r

/-- What a tick in each of the contexts does to the shot. -/
def outcomes (s : Shot) : List TickContext → List Outcome
  | [] => []
  | ctx :: ctxs => (s.advance ctx).2 :: (s.advance ctx).1.outcomes ctxs

theorem outcomes_append (s : Shot) (first second : List TickContext) :
    s.outcomes (first ++ second) = s.outcomes first ++ (s.after first).outcomes second := by
  induction first generalizing s with
  | nil => rfl
  | cons ctx first ih =>
    have hrest := ih (s.advance ctx).1
    rw [List.cons_append, outcomes, hrest]
    rfl

/-! ### What the outcomes account for -/

/-- From `s` to `s'`, all that has changed is what the outcomes tell. -/
structure Accounted (s s' : Shot) (outcomes : List Outcome) : Prop where
  fixed : s'.fixed = s.fixed
  bounces : s'.bounces.toNat + outcomes.countP Outcome.isBounced = s.bounces.toNat
  legs : ∃ new, s'.pastLegs = new ++ s.pastLegs ∧
    new.length = outcomes.countP Outcome.isBounced
  ended : s'.removed.toNat = s.removed.toNat + outcomes.countP Outcome.isEnd

theorem Accounted.refl (s : Shot) : Accounted s s [] :=
  ⟨rfl, rfl, ⟨[], rfl, rfl⟩, rfl⟩

theorem Accounted.trans {s s' s'' : Shot} {first second : List Outcome}
    (h : Accounted s s' first) (h' : Accounted s' s'' second) :
    Accounted s s'' (first ++ second) where
  fixed := h'.fixed.trans h.fixed
  bounces := by
    have hfirst := h.bounces
    have hsecond := h'.bounces
    rw [List.countP_append]
    omega
  legs := by
    obtain ⟨new, hnew, hcount⟩ := h.legs
    obtain ⟨new', hnew', hcount'⟩ := h'.legs
    refine ⟨new' ++ new, by rw [hnew', hnew, List.append_assoc], ?_⟩
    rw [List.length_append, List.countP_append, hcount, hcount', Nat.add_comm]
  ended := by
    have hfirst := h.ended
    have hsecond := h'.ended
    rw [List.countP_append]
    omega

/-- One tick: its outcome tells what it did. -/
theorem accounted_advance (s : Shot) (ctx : TickContext) :
    Accounted s (s.advance ctx).1 [(s.advance ctx).2] := by
  have hs := s.advanced ctx
  have hfixed := s.fixed_advance ctx
  generalize s.advance ctx = out at hs hfixed
  cases hs with
  | bounced hit flew met bouncy left =>
    exact ⟨hfixed, bounces_bounceOff left ctx.tick hit, ⟨[s.leg], rfl, rfl⟩, rfl⟩
  | impact hit flew => exact ⟨hfixed, rfl, ⟨[], rfl, rfl⟩, by rw [flew]; rfl⟩
  | clipped flew => exact ⟨hfixed, rfl, ⟨[], rfl, rfl⟩, by rw [flew]; rfl⟩
  | expired flew => exact ⟨hfixed, rfl, ⟨[], rfl, rfl⟩, by rw [flew]; rfl⟩
  | inactive => exact ⟨hfixed, rfl, ⟨[], rfl, rfl⟩, rfl⟩
  | flying => exact ⟨hfixed, rfl, ⟨[], rfl, rfl⟩, rfl⟩

/-- Any number of ticks. -/
theorem accounted_after (s : Shot) (ctxs : List TickContext) :
    Accounted s (s.after ctxs) (s.outcomes ctxs) := by
  induction ctxs generalizing s with
  | nil => exact .refl s
  | cons ctx ctxs ih => exact (s.accounted_advance ctx).trans (ih (s.advance ctx).1)

/-! ### The end of a flight -/

/-- A flight that is over takes no further part. -/
theorem outcomes_of_removed {s : Shot} (ended : s.removed = true) (ctxs : List TickContext) :
    s.outcomes ctxs = List.replicate ctxs.length .inactive ∧ s.after ctxs = s := by
  induction ctxs with
  | nil => exact ⟨rfl, rfl⟩
  | cons ctx ctxs ih =>
    have hidle := advance_of_removed ended ctx
    constructor
    · rw [outcomes, hidle, ih.1, List.length_cons, List.replicate_succ]
    · show (s.advance ctx).1.after ctxs = s
      rw [hidle]
      exact ih.2

/-- What an impact tells of its shot is fixed at launch. -/
theorem impactAt_congr {s p : Shot} (h : s.fixed = p.fixed) (tick : Tick) (point : Vec2) :
    s.impactAt tick point = p.impactAt tick point := by
  have howner : s.owner = p.owner := (congrArg Shot.owner h :)
  have hweapon : s.weapon = p.weapon := (congrArg Shot.weapon h :)
  have hexplosive : s.explosive = p.explosive := (congrArg Shot.explosive h :)
  have hfreeze : s.freeze = p.freeze := (congrArg Shot.freeze h :)
  have hforce : s.force = p.force := (congrArg Shot.force h :)
  have hsound : s.impactSound = p.impactSound := (congrArg Shot.impactSound h :)
  simp only [impactAt, howner, hweapon, hexplosive, hfreeze, hforce, hsound]

theorem impact_advance {s : Shot} {ctx : TickContext} {event : Impact}
    (h : (s.advance ctx).2.impact? = some event) :
    ∃ point, event = s.impactAt ctx.tick point := by
  have hs := s.advanced ctx
  generalize s.advance ctx = out at h hs
  cases hs with
  | impact hit => exact ⟨hit.point, (Option.some.inj h).symm⟩
  | inactive => cases h
  | bounced => cases h
  | clipped => cases h
  | expired => cases h
  | flying => cases h

/-- An effect is that of the shot as it was launched, at the moment of one of the ticks. -/
theorem mem_impacts {s : Shot} {ctxs : List TickContext} {event : Impact}
    (h : event ∈ (s.outcomes ctxs).filterMap Outcome.impact?) :
    ∃ ctx ∈ ctxs, ∃ point, event = s.impactAt ctx.tick point := by
  induction ctxs generalizing s with
  | nil => cases h
  | cons ctx ctxs ih =>
    obtain ⟨o, ho, hevent⟩ := List.mem_filterMap.mp h
    rcases List.mem_cons.mp ho with rfl | ho
    · exact ⟨ctx, List.mem_cons_self, impact_advance hevent⟩
    · obtain ⟨later, hlater, point, rfl⟩ := ih (List.mem_filterMap.mpr ⟨o, ho, hevent⟩)
      refine ⟨later, List.mem_cons_of_mem _ hlater, point, ?_⟩
      exact impactAt_congr (s.fixed_advance ctx) later.tick point

/-- What happens once at most has happened if it was counted. -/
theorem toNat_any_eq_countP {α : Type} {p : α → Bool} {l : List α} (once : l.countP p ≤ 1) :
    (l.any p).toNat = l.countP p := by
  cases h : l.any p with
  | true =>
    have hpos : 0 < l.countP p := List.countP_pos_iff.mpr (List.any_eq_true.mp h)
    rw [Bool.toNat_true]
    omega
  | false =>
    have hzero : l.countP p = 0 := by
      refine List.countP_eq_zero.mpr fun a ha hp => ?_
      rw [List.any_eq_true.mpr ⟨a, ha, hp⟩] at h
      cases h
    rw [hzero, Bool.toNat_false]

/-- **A shot lives once.** Let a shot be fired or rebuilt from a record, and then be ticked in
any contexts. The bounces that it has left and those that it took are what it was given, and
each left one leg behind. One tick at most ended the flight; if it was an impact, its effect
is the only one, and that of this shot. The shot is removed exactly from that tick on, and then
no tick does anything. All else but where and how it flies is as it was launched. -/
theorem lives_once (source : Source) (ctxs more : List TickContext) :
    let s := source.shot
    let s' := s.after ctxs
    let outcomes := s.outcomes ctxs
    let effects := outcomes.filterMap Outcome.impact?
    s'.bounces.toNat + outcomes.countP Outcome.isBounced = s.bounces.toNat ∧
      s'.pastLegs.length = outcomes.countP Outcome.isBounced ∧
      outcomes.countP Outcome.isEnd ≤ 1 ∧
      effects.length = (outcomes.any Outcome.isImpact).toNat ∧
      (∀ event ∈ effects, ∃ ctx ∈ ctxs, ∃ point, event = s.impactAt ctx.tick point) ∧
      s'.removed = outcomes.any Outcome.isEnd ∧
      s' = { s with
        origin := s'.origin
        direction := s'.direction
        launchTick := s'.launchTick
        bounces := s'.bounces
        pastLegs := s'.pastLegs
        removed := s'.removed } ∧
      s'.pastLegs <:+ (s.after (ctxs ++ more)).pastLegs ∧
      (s'.removed = true →
        s.outcomes (ctxs ++ more) = outcomes ++ List.replicate more.length .inactive ∧
          s.after (ctxs ++ more) = s') := by
  intro s s' outcomes effects
  have hlife : Accounted s s' outcomes := s.accounted_after ctxs
  obtain ⟨new, hnew, hcount⟩ := hlife.legs
  have hended := hlife.ended
  rw [source.removed_shot, Bool.toNat_false, Nat.zero_add] at hended
  have honce : outcomes.countP Outcome.isEnd ≤ 1 := hended ▸ Bool.toNat_le s'.removed
  have himpact : outcomes.countP Outcome.isImpact ≤ 1 :=
    Nat.le_trans (List.countP_mono_left fun _ _ => Outcome.isEnd_of_isImpact) honce
  refine ⟨hlife.bounces, ?_, honce, ?_, fun event => mem_impacts, ?_, eq_of_fixed hlife.fixed,
    ?_, fun ended => ?_⟩
  · rw [hnew, source.pastLegs_shot, List.append_nil, hcount]
  · rw [Outcome.length_impacts, toNat_any_eq_countP himpact]
  · rw [Bool.eq_iff_iff, ← Bool.toNat_eq_one, ← Bool.toNat_eq_one, hended,
      toNat_any_eq_countP honce]
  · rw [after_append]
    obtain ⟨later, hlater, -⟩ := (s'.accounted_after more).legs
    exact ⟨later, hlater.symm⟩
  · obtain ⟨hidle, hsame⟩ := outcomes_of_removed ended more
    rw [outcomes_append, after_append]
    exact ⟨congrArg (outcomes ++ ·) hidle, hsame⟩

/-- A shot that bounces at the tick 5 and then at the tick 2, hits something at the tick 9 and
sleeps through the ticks 3 and 10. -/
theorem lives_once_boxed :
    let l : Launch :=
      { weapon := .gun, owner := some ⟨3⟩, origin := ⟨64.0, 16.0⟩, direction := ⟨0.8, 0.6⟩
        bounces := 2 }
    let s := fire (boxed 7) l
    let ctxs := [boxed 5, boxed 2, boxed 9]
    (s.after ctxs).removed = true ∧ (s.after ctxs).pastLegs.length = 2 ∧
      ((s.outcomes ctxs).filterMap Outcome.impact?).length = 1 ∧
      s.outcomes (ctxs ++ [boxed 3, boxed 10]) = s.outcomes ctxs ++ [.inactive, .inactive] ∧
      s.after (ctxs ++ [boxed 3, boxed 10]) = s.after ctxs := by
  intro l s ctxs
  have ended : (s.after ctxs).removed = true := by decide +kernel
  have bounced : (s.outcomes ctxs).countP Outcome.isBounced = 2 := by decide +kernel
  have struck : (s.outcomes ctxs).any Outcome.isImpact = true := by decide +kernel
  obtain ⟨-, legs, -, effects, -, -, -, -, idle⟩ :=
    lives_once (.fired (boxed 7) l) ctxs [boxed 3, boxed 10]
  refine ⟨ended, legs.trans bounced, effects.trans ?_, idle ended⟩
  exact congrArg Bool.toNat struck

end Shot

end Volley
