/-
# What a published shot says to its own prediction

The server publishes a shot `p`; later a client compares its record with a shot `s` that was
`p` at the tick of the snapshot. If the record says of `p` what it should (`Encodable`,
`Faithful`), the comparison succeeds and changes nothing: `s` agrees with the record
(`agreesAt_of_past`), adopts from it what it has already, and is not replaced
(`settle_of_past`). In the legacy protocol the extension block comes from `s` itself, which
still knows the block of that tick.

Key definitions: `Shot.Encodable`, `Shot.Faithful`, `Shot.Apart`.
Key theorems: `World.settle_of_past`, `World.agreesAt_of_past`, `World.not_agreesAt_of_apart`.
-/
import Volley.Proofs.Shot.Past
import Volley.Proofs.Wire.RoundTrip
import Volley.World.Reconcile

namespace Volley

/-! ### Fields of a record -/

theorem toInt_toInt32 {n : UInt32} (h : n < 0x80000000) : n.toInt32.toInt = n.toNat := by
  have hlt : n.toNat < 2147483648 := h
  have hbits : n.toInt32.toInt = n.toBitVec.toInt := rfl
  rw [hbits, BitVec.toInt_eq_toNat_of_lt]
  · rfl
  · exact (by omega : 2 * n.toNat < 2 ^ 32)

theorem not_neg_toInt32 {n : UInt32} (h : n < 0x80000000) : ¬n.toInt32 < 0 := by
  rw [Int32.lt_iff_toInt_lt, toInt_toInt32 h, Int32.toInt_zero]
  omega

theorem ClientId.ofWire_toWire {owner : Option ClientId}
    (h : ∀ c ∈ owner, c.val < 0x80000000) : ofWire (toWire owner) = owner := by
  cases owner with
  | none => rfl
  | some c =>
    have hc := h c rfl
    simp only [toWire, ofWire, if_pos hc, if_neg (not_neg_toInt32 hc)]
    rw [UInt32.toUInt32_toInt32]

namespace Shot

theorem lifespanOfWire_toWire {lifespan : Option UInt32}
    (h : ∀ n ∈ lifespan, n < 0x80000000) : lifespanOfWire (lifespanToWire lifespan) = lifespan := by
  cases lifespan with
  | none => rfl
  | some n =>
    have hn := h n rfl
    simp only [lifespanToWire, lifespanOfWire, if_pos hn, if_neg (not_neg_toInt32 hn)]
    rw [UInt32.toUInt32_toInt32]

/-- The fields of the shot fit into those of a record. -/
structure Encodable (s : Shot) : Prop where
  owner : ∀ c ∈ s.owner, c.val < 0x80000000
  lifespan : ∀ n ∈ s.lifespan, n < 0x80000000
  sound : ∀ n ∈ s.impactSound, 0 ≤ n

/-- The record of the shot is as exact as the policy asks: the shot that is rebuilt from it
heads in nearly the same direction, the recorded position is near, and the recorded force
is the same. -/
structure Faithful (p : Shot) (policy : MatchPolicy) (ctx : TickContext) : Prop where
  direction : p.direction.distance (ofRecord ctx (p.toRecord ctx)).direction ≤
    policy.directionEpsilon
  position : (p.positionIn ctx).distance (p.toRecord ctx).position ≤ policy.correctionDistance
  force : (p.toRecord ctx).forceValue = p.force

-- The instance of `Option` by name: the search may settle on one that tries every number.
instance (s : Shot) : Decidable s.Encodable :=
  have : Decidable (∀ c ∈ s.owner, c.val < 0x80000000) := Option.decidableForallMem s.owner
  have : Decidable (∀ n ∈ s.lifespan, n < 0x80000000) := Option.decidableForallMem s.lifespan
  have : Decidable (∀ n ∈ s.impactSound, 0 ≤ n) := Option.decidableForallMem s.impactSound
  decidable_of_iff ((∀ c ∈ s.owner, c.val < 0x80000000) ∧ (∀ n ∈ s.lifespan, n < 0x80000000) ∧
      ∀ n ∈ s.impactSound, 0 ≤ n)
    ⟨fun h => ⟨h.1, h.2.1, h.2.2⟩, fun h => ⟨h.owner, h.lifespan, h.sound⟩⟩

instance (policy : MatchPolicy) (ctx : TickContext) (p : Shot) :
    Decidable (p.Faithful policy ctx) :=
  decidable_of_iff (p.direction.distance (ofRecord ctx (p.toRecord ctx)).direction ≤
        policy.directionEpsilon ∧
      (p.positionIn ctx).distance (p.toRecord ctx).position ≤ policy.correctionDistance ∧
      (p.toRecord ctx).forceValue = p.force)
    ⟨fun h => ⟨h.1, h.2.1, h.2.2⟩, fun h => ⟨h.direction, h.position, h.force⟩⟩

/-- No snapshot can take one of the shots for the other. -/
def Apart (policy : MatchPolicy) (a b : Shot) : Prop :=
  a.owner ≠ b.owner ∨ a.weapon ≠ b.weapon ∨
    policy.tickWindow.atLeastZero.toInt.toNat < a.startTick.gap b.startTick

instance (policy : MatchPolicy) (a b : Shot) : Decidable (Apart policy a b) :=
  inferInstanceAs (Decidable (_ ∨ _ ∨ _))

theorem Apart.symm {policy : MatchPolicy} {a b : Shot} (h : Apart policy a b) :
    Apart policy b a := by
  have hgap : b.startTick.gap a.startTick = a.startTick.gap b.startTick := by
    unfold Tick.gap
    omega
  rcases h with h | h | h
  · exact Or.inl (Ne.symm h)
  · exact Or.inr (Or.inl (Ne.symm h))
  · exact Or.inr (Or.inr (hgap ▸ h))

/-- Both only speak of what is fixed at launch. -/
theorem Encodable.congr {s p : Shot} (h : Encodable p) (same : s.fixed = p.fixed) :
    Encodable s where
  owner := by
    have heq : s.owner = p.owner := (congrArg Shot.owner same :)
    exact heq ▸ h.owner
  lifespan := by
    have heq : s.lifespan = p.lifespan := (congrArg Shot.lifespan same :)
    exact heq ▸ h.lifespan
  sound := by
    have heq : s.impactSound = p.impactSound := (congrArg Shot.impactSound same :)
    exact heq ▸ h.sound

theorem Apart.congr {policy : MatchPolicy} {a b c d : Shot} (h : Apart policy a b)
    (hc : c.fixed = a.fixed) (hd : d.fixed = b.fixed) : Apart policy c d := by
  have howner : c.owner = a.owner := (congrArg Shot.owner hc :)
  have howner' : d.owner = b.owner := (congrArg Shot.owner hd :)
  have hweapon : c.weapon = a.weapon := (congrArg Shot.weapon hc :)
  have hweapon' : d.weapon = b.weapon := (congrArg Shot.weapon hd :)
  have hstart : c.startTick = a.startTick := (congrArg Shot.startTick hc :)
  have hstart' : d.startTick = b.startTick := (congrArg Shot.startTick hd :)
  rw [Apart, howner, howner', hweapon, hweapon', hstart, hstart']
  exact h

/-! ### The rebuilt shot -/

theorem truncate_ofBools (explosive freeze : Bool) :
    (RecordFlags.ofBools explosive freeze).truncate = .ofBools explosive freeze := by
  cases explosive <;> cases freeze <;> rfl

theorem contains_ofBools (explosive freeze : Bool) :
    (RecordFlags.ofBools explosive freeze).contains .explosive = explosive ∧
      (RecordFlags.ofBools explosive freeze).contains .freeze = freeze := by
  cases explosive <;> cases freeze <;> exact ⟨rfl, rfl⟩

/-- All that the wire can take from a published record is its extension block. -/
theorem onWire_toRecord (version : UInt32) (p : Shot) (ctx : TickContext) :
    (p.toRecord ctx).onWire version = { p.toRecord ctx with
      extra := if version = Wire.legacyVersion then none else some (p.extraAt ctx.tick) } := by
  have hflags : (p.toRecord ctx).flags.truncate = (p.toRecord ctx).flags :=
    truncate_ofBools p.explosive p.freeze
  rw [Record.onWire, hflags]
  rfl

theorem fixed_ofRecord (ctx : TickContext) (r : Record) :
    (ofRecord ctx r).fixed = (observed r).fixed := by
  unfold ofRecord
  simp only
  split <;> rfl

theorem direction_ofRecord (ctx : TickContext) (r : Record) :
    (ofRecord ctx r).direction = recordedDirection r := by
  unfold ofRecord
  simp only
  split <;> rfl

theorem bounces_ofRecord (ctx : TickContext) (r : Record) :
    (ofRecord ctx r).bounces = r.extraOrDefault.bounces := by
  unfold ofRecord
  simp only
  split <;> rfl

theorem pastLegs_ofRecord (ctx : TickContext) (r : Record) : (ofRecord ctx r).pastLegs = [] := by
  unfold ofRecord
  simp only
  split <;> rfl

theorem removed_ofRecord (ctx : TickContext) (r : Record) : (ofRecord ctx r).removed = false := by
  unfold ofRecord
  simp only
  split <;> rfl

theorem launchTick_ofRecord (ctx : TickContext) (r : Record) :
    (ofRecord ctx r).launchTick = r.startTick.plus r.extraOrDefault.launchOffset ∨
      (ofRecord ctx r).launchTick = ctx.tick := by
  unfold ofRecord
  simp only
  split
  · exact Or.inl rfl
  · exact Or.inr rfl

/-- What is fixed at launch is rebuilt from the record, but for the force, which is rounded. -/
theorem fixed_observed_force {p : Shot} {ctx : TickContext} (encodable : Encodable p) :
    (observed (p.toRecord ctx)).fixed =
      { p.fixed with force := (p.toRecord ctx).forceValue } := by
  have hweapon : (p.toRecord ctx).weaponKind = p.weapon := Weapon.ofWireLossy_toWire p.weapon
  have howner : (p.toRecord ctx).ownerId = p.owner := ClientId.ofWire_toWire encodable.owner
  have hlifespan : lifespanOfWire (p.toRecord ctx).lifespan = p.lifespan :=
    lifespanOfWire_toWire encodable.lifespan
  have hflags : (p.toRecord ctx).flags = .ofBools p.explosive p.freeze := rfl
  obtain ⟨hexplosive, hfreeze⟩ := contains_ofBools p.explosive p.freeze
  rw [← hflags] at hexplosive hfreeze
  have hsound : (if (p.toRecord ctx).impactSound < 0 then none
      else some (p.toRecord ctx).impactSound) = p.impactSound := by
    have hfield : (p.toRecord ctx).impactSound = p.impactSound.getD (-1) := rfl
    rw [hfield]
    cases hs : p.impactSound with
    | none => rfl
    | some n => exact if_neg (Int32.not_lt.mpr (encodable.sound n hs))
  simp only [fixed, observed, hweapon, howner, hlifespan, hexplosive, hfreeze, hsound]
  rfl

theorem fixed_observed {p : Shot} {ctx : TickContext} (encodable : Encodable p)
    (force : (p.toRecord ctx).forceValue = p.force) :
    (observed (p.toRecord ctx)).fixed = p.fixed := by
  rw [fixed_observed_force encodable, force]
  rfl

/-- The legs of a shot that has just been published. -/
theorem Timed.launched {now : Tick} {p : Shot} (h : Timed now p) :
    ∀ leg ∈ p.legs, leg.launchTick ≤ now := fun leg hleg => (h.legs leg hleg).2

/-- The rebuilt shot has the bounces of the published one, and was not launched after it was
published. -/
theorem rebuilt {p : Shot} (ctx : TickContext) (timed : Timed ctx.tick p) :
    (ofRecord ctx (p.toRecord ctx)).bounces = p.bounces ∧
      (ofRecord ctx (p.toRecord ctx)).launchTick ≤ ctx.tick := by
  have hpast := Past.refl timed.launched
  have hleg := timed.legs p.leg List.mem_cons_self
  constructor
  · rw [bounces_ofRecord]
    exact hpast.bouncesAt
  · rcases launchTick_ofRecord ctx (p.toRecord ctx) with h | h
    · have hoffset : (p.toRecord ctx).startTick.plus
          (p.toRecord ctx).extraOrDefault.launchOffset =
            p.startTick.plus ((p.legAt ctx.tick).launchTick.minus p.startTick) := rfl
      rw [h, hoffset, hpast.legAt,
        Tick.plus_minus timed.start (Int32.le_trans timed.start hleg.1)]
      exact hleg.2
    · rw [h]
      exact Int32.le_refl _

/-! ### Taking over -/

/-- A shot that is confirmed as it is takes over nothing, if its bounces do not differ where
they would be taken over. -/
theorem adopt_eq_self {s server : Shot} (fixed : server.fixed = s.fixed)
    (counted : s.launchTick ≤ server.launchTick → server.bounces = s.bounces) :
    s.adopt server = s := by
  have hbounces : (if s.launchTick ≤ server.launchTick then server.bounces else s.bounces) =
      s.bounces := by
    split
    · rename_i h
      exact counted h
    · rfl
  have hlifespan : server.lifespan = s.lifespan := (congrArg Shot.lifespan fixed :)
  have hexplosive : server.explosive = s.explosive := (congrArg Shot.explosive fixed :)
  have hfreeze : server.freeze = s.freeze := (congrArg Shot.freeze fixed :)
  have hforce : server.force = s.force := (congrArg Shot.force fixed :)
  have hsound : server.impactSound = s.impactSound := (congrArg Shot.impactSound fixed :)
  have hzone : server.tuneZone = s.tuneZone := (congrArg Shot.tuneZone fixed :)
  have hlayer : server.layer = s.layer := (congrArg Shot.layer fixed :)
  have hnumber : server.number = s.number := (congrArg Shot.number fixed :)
  rw [adopt, hbounces, hlifespan, hexplosive, hfreeze, hforce, hsound, hzone, hlayer, hnumber]

/-- A shot that was another one at a tick takes over nothing from it. -/
theorem Past.adopt {s p : Shot} {seen : Tick} (past : Past s p seen) : s.adopt p = s := by
  have hlaunch := past.launched p.leg List.mem_cons_self
  refine adopt_eq_self past.fixed.symm fun h => ?_
  exact (past.unbounced (Int32.le_trans h hlaunch)).2.1.symm

theorem adopt_adopt (s server : Shot) : (s.adopt server).adopt server = s.adopt server := by
  simp only [adopt]
  congr 1
  split <;> rfl

end Shot

/-! ### The comparison -/

namespace World

open Shot (Past Timed Encodable Faithful Apart)

variable {w : World} {policy : MatchPolicy} {seen : Tick} {version : UInt32} {s p : Shot}

/-- The record, completed by the shot it is paired with, is the record as it was published. -/
theorem confirmed_of_past (past : Past s p seen) :
    w.confirmed ((p.toRecord (w.contextAt seen)).onWire version) seen (some s) =
      Shot.ofRecord (w.contextAt seen) (p.toRecord (w.contextAt seen)) := by
  have hextra : ((p.toRecord (w.contextAt seen)).onWire version).extra.or
      ((some s).map (·.extraAt seen)) = some (p.extraAt seen) := by
    rw [Shot.onWire_toRecord, Option.map_some, past.extraAt]
    by_cases h : version = Wire.legacyVersion <;> simp [h, contextAt]
  rw [confirmed, hextra, Shot.onWire_toRecord]
  rfl

/-- A shot adopts from its own record what it has already. -/
theorem adopt_of_past (past : Past s p seen) (timed : Timed seen p) (encodable : Encodable p)
    (faithful : Faithful p policy (w.contextAt seen)) :
    s.adopt (Shot.ofRecord (w.contextAt seen) (p.toRecord (w.contextAt seen))) = s := by
  obtain ⟨hbounces, hlaunch⟩ := Shot.rebuilt (w.contextAt seen) timed
  have hfixed := (Shot.fixed_ofRecord (w.contextAt seen) (p.toRecord (w.contextAt seen))).trans
    ((Shot.fixed_observed encodable faithful.force).trans past.fixed.symm)
  refine Shot.adopt_eq_self hfixed fun h => ?_
  rw [hbounces, (past.unbounced (Int32.le_trans h hlaunch)).2.1]

/-- A shot that has not bounced since is where it was published. -/
theorem positionIn_of_past (past : Past s p seen) (same : s.launchTick ≤ seen)
    (ctx : TickContext) : s.positionIn ctx = p.positionIn ctx := by
  obtain ⟨hlegs, -, horigin⟩ := past.unbounced same
  have hleg : s.leg = p.leg := (List.cons.inj hlegs).1
  have hlaunch : s.launchTick = p.launchTick := congrArg Leg.launchTick hleg
  have hdirection : s.direction = p.direction := congrArg Leg.direction hleg
  have hweapon : s.weapon = p.weapon := (congrArg Shot.weapon past.fixed :)
  have hzone : s.tuneZone = p.tuneZone := (congrArg Shot.tuneZone past.fixed :)
  simp only [Shot.positionIn, Shot.positionAt, Shot.displacement, Shot.flightSeconds, Shot.flight,
    horigin, hlaunch, hdirection, hweapon, hzone]

/-- **A record does not change the shot that it is about.** -/
theorem settle_of_past (past : Past s p seen) (timed : Timed seen p) (encodable : Encodable p)
    (faithful : Faithful p policy (w.contextAt seen)) :
    w.settle policy seen ((p.toRecord (w.contextAt seen)).onWire version) s = (s, false) := by
  have hadopt := adopt_of_past past timed encodable faithful
  have hkeep : (decide (seen < s.launchTick) ||
      decide (w.deviation s ((p.toRecord (w.contextAt seen)).onWire version) seen ≤
        policy.correctionDistance)) = true := by
    rw [Bool.or_eq_true, decide_eq_true_eq, decide_eq_true_eq]
    by_cases h : seen < s.launchTick
    · exact Or.inl h
    · right
      have hposition : ((p.toRecord (w.contextAt seen)).onWire version).position =
        (p.toRecord (w.contextAt seen)).position := rfl
      rw [deviation, positionIn_of_past past (Int32.not_lt.mp h), hposition]
      exact faithful.position
  simp only [settle, confirmed_of_past past, hadopt, hkeep, if_true]

/-- Who and when the shot of a record is, whether or not its extension block has come. -/
theorem confirmed_key (w : World) (seen : Tick) (version : UInt32) (encodable : Encodable p) :
    let server := w.confirmed ((p.toRecord (w.contextAt seen)).onWire version) seen none
    server.owner = p.owner ∧ server.weapon = p.weapon ∧ server.startTick = p.startTick ∧
      server.direction =
        (Shot.ofRecord (w.contextAt seen) (p.toRecord (w.contextAt seen))).direction := by
  intro server
  have hfixed : server.fixed = _ := Shot.fixed_ofRecord (w.contextAt seen) _
  refine ⟨?_, ?_, ?_, ?_⟩
  · have howner : server.owner = ClientId.ofWire (ClientId.toWire p.owner) :=
      (congrArg Shot.owner hfixed :)
    rw [howner, ClientId.ofWire_toWire encodable.owner]
  · have hweapon : server.weapon = Weapon.ofWireLossy p.weapon.toWire :=
      (congrArg Shot.weapon hfixed :)
    rw [hweapon, Weapon.ofWireLossy_toWire]
  · exact (congrArg Shot.startTick hfixed :)
  · rw [Shot.direction_ofRecord]
    exact Shot.direction_ofRecord (w.contextAt seen) _

/-- A shot agrees with its own record. -/
theorem agreesAt_of_past (past : Past s p seen) (encodable : Encodable p)
    (faithful : Faithful p policy (w.contextAt seen)) :
    s.agreesAt (w.confirmed ((p.toRecord (w.contextAt seen)).onWire version) seen none) seen
      policy = true := by
  obtain ⟨howner, hweapon, hstart, hdirection⟩ :=
    confirmed_key w seen version encodable
  have howner' : s.owner = p.owner := (congrArg Shot.owner past.fixed :)
  have hweapon' : s.weapon = p.weapon := (congrArg Shot.weapon past.fixed :)
  have hstart' : s.startTick = p.startTick := (congrArg Shot.startTick past.fixed :)
  have hgap : p.startTick.gap p.startTick = 0 := by simp [Tick.gap]
  simp only [Shot.agreesAt, Shot.sameShot, howner, hweapon, hstart, hdirection, howner', hweapon',
    hstart', past.directionAt, hgap]
  simpa using faithful.direction

/-- A shot that is apart does not. -/
theorem not_agreesAt_of_apart {a : Shot} (apart : Apart policy a p) (encodable : Encodable p) :
    a.agreesAt (w.confirmed ((p.toRecord (w.contextAt seen)).onWire version) seen none) seen
      policy = false := by
  obtain ⟨howner, hweapon, hstart, -⟩ :=
    confirmed_key w seen version encodable
  simp only [Shot.agreesAt, Shot.sameShot, howner, hweapon, hstart]
  rcases apart with h | h | h
  · simp [h]
  · simp [h]
  · rw [Bool.and_eq_false_iff]
    exact Or.inr (decide_eq_false (Nat.not_le.mpr h))

end World

end Volley
