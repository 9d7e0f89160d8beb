/-
# Publishing and rebuilding

Publishing a shot and rebuilding one from a record undo each other, but for the numbers that
the wire rounds: where the shot is, where it heads and how hard it hits. The two are written
with different conventions. A record has one word for "none" where the shot has many
(`orNone`), and it counts the launch of the current leg from the creation of the shot, which
publishing reads off the history of the shot. Ticks in order stack the legs of a shot in the
order of their launch (`Shot.Stacked`), so at any moment since the launch of the current leg
the history says just that leg and the bounces that are left (`extraAt_of_current`).

What comes back from a record is the record in a server's words (`Record.canonical`).

Key definitions: `orNone`, `Record.canonical`, `Shot.Solvable`, `Shot.Stacked`.
Key theorems: `Shot.ofRecord_toRecord`, `Shot.toRecord_ofRecord`, `Shot.stacked_after`,
`Shot.published_and_rebuilt`.
-/
import Volley.Proofs.Shot.LifeCycle

namespace Volley

/-! ### The words of a record -/

/-- The word for a field in which every negative number means none. -/
def orNone (n : Int32) : Int32 := if n < 0 then -1 else n

/-- The record as a server writes it: the weapon is a known one, there is one word for none,
the behaviours have names, and the extension block is there. -/
def Record.canonical (r : Record) : Record :=
  { r with
    weapon := if 1 ≤ r.weapon ∧ r.weapon ≤ 3 then r.weapon else 1
    owner := orNone r.owner
    lifespan := orNone r.lifespan
    flags := r.flags.truncate
    impactSound := orNone r.impactSound
    extra := some (r.extra.getD
      { layer := 0, number := 0, tuneZone := 0, bounces := 0, launchOffset := 0 }) }

theorem Weapon.toWire_ofWireLossy (n : Int32) :
    (ofWireLossy n).toWire = if 1 ≤ n ∧ n ≤ 3 then n else 1 := by
  unfold ofWireLossy ofWire
  by_cases h1 : n = 1
  · subst h1
    rfl
  by_cases h2 : n = 2
  · subst h2
    rfl
  by_cases h3 : n = 3
  · subst h3
    rfl
  have hrange : ¬(1 ≤ n ∧ n ≤ 3) := by
    rw [Int32.le_iff_toInt_le, Int32.le_iff_toInt_le]
    rw [← Int32.toInt_inj] at h1 h2 h3
    have hone : (1 : Int32).toInt = 1 := rfl
    have htwo : (2 : Int32).toInt = 2 := rfl
    have hthree : (3 : Int32).toInt = 3 := rfl
    omega
  rw [if_neg h1, if_neg h2, if_neg h3, if_neg hrange]
  rfl

/-- A number of the wire that is not negative keeps its value without a sign. -/
theorem toUInt32_lt {n : Int32} (h : ¬n < 0) : n.toUInt32 < 0x80000000 := by
  have hpos : 0 ≤ n := Int32.not_lt.mp h
  have hnat : n.toUInt32.toNat = n.toNatClampNeg := Int32.toNat_toUInt32_of_le hpos
  have hmax := n.toInt_le
  have hhigh : Int32.maxValue.toInt = 2147483647 := rfl
  have hclamp : n.toNatClampNeg = n.toInt.toNat := rfl
  show n.toUInt32.toNat < 2147483648
  omega

theorem ClientId.toWire_ofWire (n : Int32) : toWire (ofWire n) = orNone n := by
  unfold ofWire orNone
  by_cases h : n < 0
  · rw [if_pos h, if_pos h]
    rfl
  · rw [if_neg h, if_neg h]
    simp only [toWire, if_pos (toUInt32_lt h)]
    exact Int32.toInt32_toUInt32 n

namespace RecordFlags

/-- The behaviours that a shot takes from a set are those that have a name. -/
theorem ofBools_contains (f : RecordFlags) :
    ofBools (f.contains explosive) (f.contains freeze) = f.truncate := by
  -- only the lowest two bits count, and for them there are four cases
  have hnamed : f.truncate.bits = 0 ∨ f.truncate.bits = 1 ∨ f.truncate.bits = 2 ∨
      f.truncate.bits = 3 := by
    have hle : (f.bits &&& 3).toNat ≤ 3 := by
      rw [UInt32.toNat_and]
      exact Nat.and_le_right
    simp only [← UInt32.toNat_inj]
    show (f.bits &&& 3).toNat = 0 ∨ (f.bits &&& 3).toNat = 1 ∨ (f.bits &&& 3).toNat = 2 ∨
      (f.bits &&& 3).toNat = 3
    omega
  have hexplosive : f.contains explosive = f.truncate.contains explosive := by
    have hbits : f.truncate.bits &&& 1 = f.bits &&& 1 := UInt32.and_assoc f.bits 3 1
    show decide (f.bits &&& 1 = 1) = decide (f.truncate.bits &&& 1 = 1)
    rw [hbits]
  have hfreeze : f.contains freeze = f.truncate.contains freeze := by
    have hbits : f.truncate.bits &&& 2 = f.bits &&& 2 := UInt32.and_assoc f.bits 3 2
    show decide (f.bits &&& 2 = 2) = decide (f.truncate.bits &&& 2 = 2)
    rw [hbits]
  rw [hexplosive, hfreeze]
  generalize f.truncate = named at hnamed
  obtain ⟨bits⟩ := named
  rcases hnamed with rfl | rfl | rfl | rfl <;> rfl

end RecordFlags

namespace Shot

theorem lifespanToWire_ofWire (n : Int32) : lifespanToWire (lifespanOfWire n) = orNone n := by
  unfold lifespanOfWire orNone
  by_cases h : n < 0
  · rw [if_pos h, if_pos h]
    rfl
  · rw [if_neg h, if_neg h]
    simp only [lifespanToWire, if_pos (toUInt32_lt h)]
    exact Int32.toInt32_toUInt32 n

theorem getD_ofWire (n : Int32) : (if n < 0 then none else some n).getD (-1) = orNone n := by
  unfold orNone
  split <;> rfl

/-! ### Legs in the order of their launch -/

/-- The legs that started with a bounce were launched no later than the current one, and that
was launched by `now`. -/
def Stacked (now : Tick) (s : Shot) : Prop :=
  ∀ leg ∈ s.legs.dropLast, leg.launchTick ≤ s.launchTick ∧ s.launchTick ≤ now

theorem Stacked.advance {now : Tick} {s : Shot} {ctx : TickContext} (h : Stacked now s)
    (later : now ≤ ctx.tick) : Stacked ctx.tick (s.advance ctx).1 := by
  have hold : Stacked ctx.tick s := fun leg hleg =>
    ⟨(h leg hleg).1, Int32.le_trans (h leg hleg).2 later⟩
  have hs := s.advanced ctx
  generalize s.advance ctx = out at hs
  cases hs with
  | bounced hit =>
    have hlegs : (s.bounceOff ctx.tick hit).legs.dropLast =
        (s.bounceOff ctx.tick hit).leg :: s.legs.dropLast := rfl
    intro leg hleg
    refine ⟨?_, Int32.le_refl _⟩
    rcases List.mem_cons.mp (hlegs ▸ hleg) with rfl | hleg
    · exact Int32.le_refl _
    · exact Int32.le_trans (hold leg hleg).1 (hold leg hleg).2
  | inactive | impact | clipped | expired | flying => exact hold

/-- Ticks in order keep the legs in order. -/
theorem stacked_after {now : Tick} :
    ∀ {ctxs : List TickContext} {s : Shot}, Stacked now s →
      ctxs.Pairwise (·.tick < ·.tick) → (∀ ctx ∈ ctxs, now ≤ ctx.tick) →
        ∃ last, Stacked last (s.after ctxs)
  | [], _, h, _, _ => ⟨now, h⟩
  | ctx :: ctxs, s, h, increasing, later => by
    obtain ⟨hfirst, hrest⟩ := List.pairwise_cons.mp increasing
    have hstep := h.advance (later ctx List.mem_cons_self)
    have hrun := stacked_after hstep hrest fun c hc => Int32.le_of_lt (hfirst c hc)
    exact hrun

/-- A shot that has just been fired or rebuilt has no leg to put out of order, whenever it is
ticked first. -/
theorem Source.stacked (source : Source) {ctxs : List TickContext}
    (increasing : ctxs.Pairwise (·.tick < ·.tick)) :
    ∃ last, Stacked last (source.shot.after ctxs) := by
  have hstart : Stacked Int32.minValue source.shot := by
    intro leg hleg
    rw [legs, source.pastLegs_shot] at hleg
    cases hleg
  exact stacked_after hstart increasing fun ctx _ => Int32.minValue_le ctx.tick

/-! ### The block of the current leg -/

theorem extraAt_of_current {s : Shot} {tick : Tick} (current : s.legAt tick = s.leg)
    (unbounced : s.bouncesAfter tick = 0) : s.extraAt tick =
      { layer := s.layer, number := s.number, tuneZone := s.tuneZone, bounces := s.bounces
        launchOffset := s.launchTick.minus s.startTick } := by
  rw [extraAt, bouncesAt_of_unbounced unbounced, current]
  rfl

/-- A shot without a past is on its only leg at any moment. -/
theorem extraAt_of_pastLegs {s : Shot} (h : s.pastLegs = []) (tick : Tick) : s.extraAt tick =
      { layer := s.layer, number := s.number, tuneZone := s.tuneZone, bounces := s.bounces
        launchOffset := s.launchTick.minus s.startTick } := by
  refine extraAt_of_current ?_ ?_
  · rw [legAt, h]
    rfl
  · rw [bouncesAfter, legs, h]
    rfl

/-- Since the launch of the current leg, the block is that of this leg. -/
theorem Stacked.extraAt {now tick : Tick} {s : Shot} (h : Stacked now s)
    (since : s.launchTick ≤ tick) : s.extraAt tick =
      { layer := s.layer, number := s.number, tuneZone := s.tuneZone, bounces := s.bounces
        launchOffset := s.launchTick.minus s.startTick } := by
  have launched : s.leg.launchTick ≤ tick := since
  refine extraAt_of_current (latestLegBy_of_launched launched s.pastLegs) ?_
  rw [bouncesAfter, List.length_eq_zero_iff, List.filter_eq_nil_iff]
  intro leg hleg
  have hlaunch := Int32.le_trans (h leg hleg).1 since
  simpa using Int32.not_lt.mpr hlaunch

/-! ### From a shot and back -/

/-- The launch origin that a record implies is finite. -/
def Solvable (ctx : TickContext) (r : Record) : Prop :=
  ((observed r).solvedOrigin ctx).isFinite = true

instance (ctx : TickContext) (r : Record) : Decidable (Solvable ctx r) :=
  inferInstanceAs (Decidable (_ = _))

theorem ofRecord_of_solvable {ctx : TickContext} {r : Record} (solvable : Solvable ctx r) :
    ofRecord ctx r = { observed r with origin := (observed r).solvedOrigin ctx } :=
  if_pos solvable

/-- **A published shot is rebuilt**, but for the numbers that were rounded, without its past
and in flight. -/
theorem ofRecord_toRecord {now : Tick} {p : Shot} {ctx : TickContext} (stacked : Stacked now p)
    (since : p.launchTick ≤ ctx.tick) (encodable : Encodable p)
    (offset : Tick.InRange (p.launchTick.toInt - p.startTick.toInt))
    (solvable : Solvable ctx (p.toRecord ctx)) :
    let q := ofRecord ctx (p.toRecord ctx)
    q = { p with
      origin := q.origin
      direction := q.direction
      force := q.force
      pastLegs := []
      removed := false } := by
  intro q
  have hextra : (p.toRecord ctx).extraOrDefault = _ := stacked.extraAt since
  have hlaunch : q.launchTick = p.launchTick := by
    have hfield : q.launchTick =
        p.startTick.plus (p.toRecord ctx).extraOrDefault.launchOffset := by
      simp only [q, ofRecord_of_solvable solvable]
      rfl
    rw [hfield, hextra]
    exact Tick.plus_minus_of_inRange offset
  have hbounces : q.bounces = p.bounces := by
    rw [bounces_ofRecord, hextra]
  have hfixed : q.fixed = ({ p with force := q.force } : Shot).fixed := by
    have hforce : q.force = (p.toRecord ctx).forceValue :=
      (congrArg Shot.force (fixed_ofRecord ctx (p.toRecord ctx)) :)
    rw [fixed_ofRecord, fixed_observed_force encodable, hforce]
    rfl
  have heq := eq_of_fixed hfixed
  rw [hlaunch, hbounces, pastLegs_ofRecord, removed_ofRecord] at heq
  exact heq

/-! ### From a record and back -/

/-- **A record is published again in a server's words**, but for the numbers that are rounded. -/
theorem toRecord_ofRecord {ctx : TickContext} {r : Record} (solvable : Solvable ctx r)
    (launch : Tick.InRange (r.startTick.toInt + r.extraOrDefault.launchOffset.toInt)) :
    let again := (ofRecord ctx r).toRecord ctx
    again = { r.canonical with
      x := again.x
      y := again.y
      dirX := again.dirX
      dirY := again.dirY
      force := again.force } := by
  intro again
  have hagain : again =
      ({ observed r with origin := (observed r).solvedOrigin ctx } : Shot).toRecord ctx := by
    rw [← ofRecord_of_solvable solvable]
  have hweapon : again.weapon = if 1 ≤ r.weapon ∧ r.weapon ≤ 3 then r.weapon else 1 :=
    (congrArg Record.weapon hagain).trans (Weapon.toWire_ofWireLossy r.weapon)
  have hstart : again.startTick = r.startTick := (congrArg Record.startTick hagain :)
  have howner : again.owner = orNone r.owner :=
    (congrArg Record.owner hagain).trans (ClientId.toWire_ofWire r.owner)
  have hlifespan : again.lifespan = orNone r.lifespan :=
    (congrArg Record.lifespan hagain).trans (lifespanToWire_ofWire r.lifespan)
  have hflags : again.flags = r.flags.truncate :=
    (congrArg Record.flags hagain).trans r.flags.ofBools_contains
  have hsound : again.impactSound = orNone r.impactSound :=
    (congrArg Record.impactSound hagain).trans (getD_ofWire r.impactSound)
  have hextra : again.extra = some r.extraOrDefault := by
    show some ((ofRecord ctx r).extraAt ctx.tick) = _
    rw [extraAt_of_pastLegs (pastLegs_ofRecord ctx r), ofRecord_of_solvable solvable]
    show some { r.extraOrDefault with
      launchOffset := (r.startTick.plus r.extraOrDefault.launchOffset).minus r.startTick } = _
    rw [Tick.minus_plus launch]
  clear_value again
  cases again
  simp only at hweapon hstart howner hlifespan hflags hsound hextra
  subst hweapon hstart howner hlifespan hflags hsound hextra
  rfl

/-! ### Both ways -/

/-- **Publishing and rebuilding are inverse.** Let a shot be fired or rebuilt, and ticked at
increasing ticks. Published at any moment since the launch of its current leg and rebuilt from
that record, it is the same but for the numbers that are rounded and for its past. And a
record from which a shot is rebuilt is published again as it was, in a server's words. Both
need a finite launch origin, and launch ticks that the clock can show. -/
theorem published_and_rebuilt (source : Source) (ctxs : List TickContext) (ctx : TickContext)
    (r : Record) :
    let p := source.shot.after ctxs
    let q := ofRecord ctx (p.toRecord ctx)
    let again := (ofRecord ctx r).toRecord ctx
    (ctxs.Pairwise (·.tick < ·.tick) → p.launchTick ≤ ctx.tick → p.Encodable →
      Tick.InRange (p.launchTick.toInt - p.startTick.toInt) → Solvable ctx (p.toRecord ctx) →
        q = { p with
          origin := q.origin
          direction := q.direction
          force := q.force
          pastLegs := []
          removed := false }) ∧
      (Solvable ctx r →
        Tick.InRange (r.startTick.toInt + r.extraOrDefault.launchOffset.toInt) →
          again = { r.canonical with
            x := again.x
            y := again.y
            dirX := again.dirX
            dirY := again.dirY
            force := again.force }) := by
  intro p q again
  constructor
  · intro increasing since encodable offset solvable
    obtain ⟨last, stacked⟩ := source.stacked increasing
    exact ofRecord_toRecord stacked since encodable offset solvable
  · intro solvable launch
    exact toRecord_ofRecord solvable launch

/-- A record with an unknown weapon, several words for none, an unnamed behaviour and no
extension block. -/
def foreignRecord : Record :=
  { weapon := 7, startTick := 2, owner := -5, x := 3200, y := 1600, dirX := 600000, dirY := 800000
    lifespan := -9, flags := ⟨6⟩, force := 250, impactSound := -3, extra := none }

/-- A shot that has bounced twice is rebuilt from its record on its third leg, and the record
of strange words is published again in those of a server. -/
theorem published_and_rebuilt_boxed :
    let l : Launch :=
      { weapon := .shotgun, owner := some ⟨3⟩, origin := ⟨64.0, 16.0⟩, direction := ⟨0.8, 0.6⟩
        lifespan := some 90, freeze := true, bounces := 5, layer := 2 }
    let p := (Source.fired (boxed 1) l).shot.after [boxed 2, boxed 3]
    let q := ofRecord (boxed 4) (p.toRecord (boxed 4))
    let again := (ofRecord (boxed 4) foreignRecord).toRecord (boxed 4)
    (p.pastLegs.length = 2 ∧ p.startTick = 1 ∧ p.launchTick = 3 ∧ p.bounces = 3) ∧
      q = { p with
        origin := q.origin
        direction := q.direction
        force := q.force
        pastLegs := []
        removed := false } ∧
      again = { foreignRecord.canonical with
        x := again.x
        y := again.y
        dirX := again.dirX
        dirY := again.dirY
        force := again.force } ∧
      foreignRecord.canonical = { foreignRecord with
        weapon := 1, owner := -1, lifespan := -1, flags := .freeze, impactSound := -1
        extra := some {} } := by
  intro l p q again
  have state : p.pastLegs.length = 2 ∧ p.startTick = 1 ∧ p.launchTick = 3 ∧ p.bounces = 3 := by
    decide +kernel
  have increasing : [boxed 2, boxed 3].Pairwise (·.tick < ·.tick) := by decide
  have since : p.launchTick ≤ (boxed 4).tick := by
    rw [state.2.2.1]
    decide
  have encodable : p.Encodable := by decide +kernel
  have offset : Tick.InRange (p.launchTick.toInt - p.startTick.toInt) := by
    rw [state.2.2.1, state.2.1]
    decide
  have solvable : Solvable (boxed 4) (p.toRecord (boxed 4)) := by decide +kernel
  have known : Solvable (boxed 4) foreignRecord := by decide +kernel
  obtain ⟨rebuilt, republished⟩ :=
    published_and_rebuilt (.fired (boxed 1) l) [boxed 2, boxed 3] (boxed 4) foreignRecord
  exact ⟨state, rebuilt increasing since encodable offset solvable,
    republished known (by decide), by decide⟩

end Shot

end Volley
