/-
# No respawn and no second effect

Once a number of the server is carried by an entity of a predicting client, it stays with
that entity for as long as the snapshots list it: through corrections, through the end of
the flight, and among the retired entities, where it keeps a late record from adding the
shot again. And no entity ever sets off two impacts.

What can take a carried number away is a retired list that overflows. `Roomy` says that it
never does.

Key definitions: `World.Retains`, `Client.log`, `Client.takenBy`, `Client.Roomy`,
`Client.Lists`.
Key theorems: `World.retains_reconcile`, `Client.no_respawn`.
-/
import Volley.Proofs.World.Effects
import Volley.Proofs.Client.OneToOne

namespace Volley

namespace World

/-! ### What carries a number goes on carrying it -/

/-- What carries `s` among some entities continues among others. -/
def Kept (s : EntityId) (entities entities' : List Entity) : Prop :=
  ∀ e ∈ entities, e.serverId = some s → ∃ e' ∈ entities', e'.Continues e

theorem Kept.of_subset {s : EntityId} {entities entities' : List Entity}
    (h : entities ⊆ entities') : Kept s entities entities' :=
  fun e he _ => ⟨e, h he, rfl, fun _ hs => hs⟩

/-- An entity changes in its place. -/
theorem Kept.of_place {s : EntityId} {before after : List Entity} {e e' : Entity}
    (h : e'.Continues e) : Kept s (before ++ e :: after) (before ++ e' :: after) := by
  intro x hx _
  rw [List.mem_append, List.mem_cons] at hx
  rcases hx with hx | rfl | hx
  · exact ⟨x, List.mem_append_left _ hx, rfl, fun _ hs => hs⟩
  · exact ⟨e', List.mem_append_right _ List.mem_cons_self, h⟩
  · exact ⟨x, List.mem_append_right _ (List.mem_cons_of_mem _ hx), rfl, fun _ hs => hs⟩

theorem Kept.trans {s : EntityId} {a b c : List Entity} (h1 : Kept s a b) (h2 : Kept s b c) :
    Kept s a c := by
  intro e he hs
  obtain ⟨e', he', hc⟩ := h1 e he hs
  obtain ⟨e'', he'', hc'⟩ := h2 e' he' (hc.2 s hs)
  exact ⟨e'', he'', hc'.1.trans hc.1, fun t ht => hc'.2 t (hc.2 t ht)⟩

/-- What carries `s` in one world continues in another, and stays retired if it was. -/
structure Retains (s : EntityId) (w w' : World) : Prop where
  live : Kept s w.live w'.roster
  retired : Kept s w.retired w'.retired

namespace Retains

variable {s : EntityId} {w w' w'' : World}

theorem refl (s : EntityId) (w : World) : Retains s w w where
  live := .of_subset (List.subset_append_left _ _)
  retired := .of_subset (List.Subset.refl _)

theorem roster (h : Retains s w w') : Kept s w.roster w'.roster := by
  intro e he hs
  rcases List.mem_append.mp he with he | he
  · exact h.live e he hs
  · obtain ⟨e', he', hc⟩ := h.retired e he hs
    exact ⟨e', List.mem_append_right _ he', hc⟩

theorem trans (h1 : Retains s w w') (h2 : Retains s w' w'') : Retains s w w'' where
  live := h1.live.trans h2.roster
  retired := h1.retired.trans h2.retired

end Retains

theorem retains_fire (s : EntityId) (w : World) (l : Launch) : Retains s w (w.fire l).2 where
  live := .of_subset (List.subset_append_of_subset_left _ (List.subset_append_left _ _))
  retired := .of_subset (List.Subset.refl _)

/-- Putting away keeps everything, if the retired list has room. -/
theorem retains_sweep {w : World} (fits : w.SweepFits) (s : EntityId) : Retains s w w.sweep where
  live := .of_subset fun _ he =>
    (sweep_perm fits).mem_iff.mpr (List.mem_append_left _ he)
  retired := by
    simp only [sweep]
    rw [keepLatest_of_le]
    · exact .of_subset (List.subset_append_left _ _)
    · rw [List.length_append, ← List.countP_eq_length_filter]
      exact fits

theorem retains_step {w : World} (fits : w.moved.SweepFits) (s : EntityId) :
    Retains s w w.step.2 := by
  have hmoved : Retains s w w.moved := by
    refine ⟨fun e he _ => ?_, .of_subset (List.Subset.refl _)⟩
    have hadvanced : advanced (w.contextAt w.tick.next) e ∈ w.moved.live := by
      rw [moved_live]
      exact List.mem_map_of_mem he
    exact ⟨_, List.mem_append_left _ hadvanced, rfl, fun _ hs => hs⟩
  rw [step_world]
  exact hmoved.trans (retains_sweep fits s)

theorem retains_steps {w : World} {n : Nat} (fits : ∀ k < n, (w.steps k).moved.SweepFits)
    (s : EntityId) : Retains s w (w.steps n) := by
  induction n generalizing w with
  | zero => exact .refl s w
  | succ n ih =>
    have hfirst := retains_step (fits 0 (Nat.succ_pos n)) s
    exact hfirst.trans (ih fun k hk => fits (k + 1) (Nat.succ_lt_succ hk))

/-- A record takes no number away, and puts no entity back in flight. -/
theorem Taken.retains {policy : MatchPolicy} {seen : Tick} {item : SnapshotItem} {w : World}
    {r : ReconcileReport} {out : World × ReconcileReport} (h : Taken policy seen item w r out)
    (s : EntityId) : Retains s w out.1 := by
  cases h with
  | adopted before e after split carries =>
    refine ⟨?_, .of_subset (List.Subset.refl _)⟩
    rw [split]
    exact (Kept.of_place (e.continues_paired item.id (Or.inr carries) _)).trans
      (.of_subset (List.subset_append_left _ _))
  | suppressed flown carried => exact .refl s w
  | claimed before e after new partner =>
    refine ⟨?_, .of_subset (List.Subset.refl _)⟩
    rw [partner.split]
    exact (Kept.of_place (e.continues_paired item.id (Or.inl partner.unpaired) _)).trans
      (.of_subset (List.subset_append_left _ _))
  | tagged before e after new unclaimed partner =>
    refine ⟨.of_subset (List.subset_append_left _ _), ?_⟩
    rw [partner.split]
    exact Kept.of_place (e.continues_paired item.id (Or.inl partner.unpaired) e.shot)
  | spawned new unclaimed untagged =>
    refine ⟨.of_subset ?_, .of_subset (List.Subset.refl _)⟩
    exact List.subset_append_of_subset_left _ (List.subset_append_left _ _)

theorem retains_withRecords (w : World) (snapshot : Snapshot) (policy : MatchPolicy)
    (s : EntityId) : Retains s w (w.withRecords snapshot policy) :=
  takeRecords_induction (P := fun out => Retains s w out.1)
    (fun _ _ _ _ _ hw ht => hw.trans (ht.retains s)) (.refl s w)

/-- A snapshot that lists a number keeps what carries it. -/
theorem retains_reconcile {w : World} {snapshot : Snapshot} {policy : MatchPolicy} {s : EntityId}
    (fits : w.ReconcileFits snapshot policy) (lists : snapshot.lists s = true) :
    Retains s w (w.reconcile snapshot policy).2 := by
  have hmarked : Retains s (w.withRecords snapshot policy) (w.marked snapshot policy) := by
    refine ⟨fun e he hs => ?_, .of_subset (List.Subset.refl _)⟩
    have hstays : markGone policy snapshot e = e := by
      simp [markGone, gone_of_serverId hs, lists]
    refine ⟨e, List.mem_append_left _ ?_, rfl, fun _ hs => hs⟩
    rw [← hstays]
    exact List.mem_map_of_mem he
  have hpruned : Retains s (w.marked snapshot policy).sweep (w.reconcile snapshot policy).2 := by
    rw [reconcile_world]
    refine ⟨.of_subset (List.subset_append_left _ _), fun e he hs => ⟨e, ?_, rfl, fun _ hs => hs⟩⟩
    have hgone : gone policy snapshot e = false := by simp [gone_of_serverId hs, lists]
    simp only [prune, List.mem_filter]
    exact ⟨he, by simpa [gone] using hgone⟩
  exact (retains_withRecords w snapshot policy s).trans
    (hmarked.trans ((retains_sweep fits s).trans hpruned))

end World

namespace Client

/-! ### The log of a run -/

/-- The impacts that an action pushes, each with the number of its entity. -/
def emitted (c : Client) (a : Action) : List (EntityId × Impact) :=
  c.world.emissionsOf (c.ticksIn a)

/-- The impacts that a run pushes, each with the number of its entity. -/
def log : Client → List Action → List (EntityId × Impact)
  | _, [] => []
  | c, a :: as => c.emitted a ++ log (c.act a) as

/-- The impacts that are taken in an action. -/
def taken (c : Client) : Action → List Impact
  | .drain => c.world.effects.impacts
  | _ => []

/-- The impacts that are taken in a run. -/
def takenBy : Client → List Action → List Impact
  | _, [] => []
  | c, a :: as => c.taken a ++ takenBy (c.act a) as

theorem emitted_of_idle {c : Client} {a : Action} (h : c.ticksIn a = 0) : c.emitted a = [] := by
  rw [emitted, h]
  rfl

theorem ticksIn_of_mirroring {c : Client} (h : c.predicting = false) (a : Action) :
    c.ticksIn a = 0 := by
  simp [ticksIn, h]

/-- Only `drain` takes effects. -/
theorem taken_of_ne_drain {c : Client} {a : Action} (h : a ≠ .drain) : c.taken a = [] := by
  cases a with
  | drain => exact absurd rfl h
  | _ => rfl

theorem taken_of_accepted {c : Client} {a : Action} {s : Snapshot}
    (h : c.accepted? a = some s) : c.taken a = [] := by
  refine taken_of_ne_drain ?_
  rintro rfl
  cases snapshot?_of_accepted? h

/-- Every impact that an action pushes waits until it is taken. -/
theorem Becomes.impacts {c : Client} {a : Action} {w : World} (h : Becomes c a w) :
    c.world.effects.impacts ++ (c.emitted a).map Prod.snd = c.taken a ++ w.effects.impacts := by
  cases h with
  | same created refused idle keeps => simp [emitted_of_idle idle, taken_of_ne_drain keeps]
  | fired l is =>
    subst is
    have hidle : c.ticksIn (.fire l) = 0 := ticksIn_of_refused (accepted?_eq_none rfl) (by simp)
    rw [emitted_of_idle hidle]
    simp [taken, World.fire, World.insert]
  | ticked is predicting =>
    subst is
    rw [emitted, ticksIn_tick predicting]
    exact (World.steps_impacts 1 c.world).symm
  | waited is predicting =>
    subst is
    simp [emitted_of_idle (ticksIn_of_mirroring predicting .tick), taken, World.setTick]
  | drained is =>
    subst is
    have hidle : c.ticksIn .drain = 0 := ticksIn_of_refused (accepted?_eq_none rfl) (by simp)
    rw [emitted_of_idle hidle]
    simp [taken, World.drainImpacts, EventQueues.drainImpacts]
  | reconciled s accepted predicting =>
    rw [World.reconcile_effects, World.steps_impacts, taken_of_accepted accepted, emitted,
      ticksIn_of_accepted accepted predicting, List.nil_append]
  | mirrored s t accepted predicting =>
    rw [World.replaceAll_effects, taken_of_accepted accepted,
      emitted_of_idle (ticksIn_of_mirroring predicting a)]
    simp [World.setTick]

/-- Every impact that a run pushes is taken in it, in order, or still waits. -/
theorem play_impacts (c : Client) (as : List Action) :
    c.world.effects.impacts ++ (c.log as).map Prod.snd =
      c.takenBy as ++ (c.play as).world.effects.impacts := by
  induction as generalizing c with
  | nil => simp [log, takenBy, play]
  | cons a as ih =>
    have hplay : c.play (a :: as) = (c.act a).play as := rfl
    calc c.world.effects.impacts ++ (c.log (a :: as)).map Prod.snd
        = c.world.effects.impacts ++ (c.emitted a).map Prod.snd
            ++ ((c.act a).log as).map Prod.snd := by
          rw [log, List.map_append, List.append_assoc]
      _ = c.taken a ++ ((c.act a).world.effects.impacts
            ++ ((c.act a).log as).map Prod.snd) := by
          rw [(act_becomes c a).impacts, List.append_assoc]
      _ = c.takenBy (a :: as) ++ (c.play (a :: as)).world.effects.impacts := by
          rw [ih, takenBy, List.append_assoc, hplay]

theorem Becomes.spent {c : Client} {a : Action} {w : World} (h : Becomes c a w)
    {log : List (EntityId × Impact)} (hs : World.Spent log c.world)
    (hw : World.Numbered c.world)
    (room : c.world.nextId.toNat + c.created a < UInt64.size) :
    World.Spent (log ++ c.emitted a) w := by
  have hpass := h.passage
  -- an action without steps logs nothing, and no passage puts an entity back in flight
  have hidle : c.ticksIn a = 0 → World.Spent (log ++ c.emitted a) w := by
    intro idle
    rw [emitted_of_idle idle, List.append_nil]
    exact hs.passage hpass room
  cases h with
  | same created refused idle keeps => exact hidle idle
  | fired l is =>
    subst is
    exact hidle (ticksIn_of_refused (accepted?_eq_none rfl) (by simp))
  | ticked is predicting =>
    subst is
    rw [emitted, ticksIn_tick predicting]
    exact hs.steps hw 1
  | waited is predicting => exact hidle (ticksIn_of_mirroring predicting a)
  | drained is =>
    subst is
    exact hidle (ticksIn_of_refused (accepted?_eq_none rfl) (by simp))
  | reconciled s accepted predicting created =>
    rw [emitted, ticksIn_of_accepted accepted predicting]
    refine (hs.steps hw _).passage (World.passage_reconcile _ s c.policy) ?_
    rw [(World.passage_steps _ c.world).toNat_nextId c.world.nextId.toNat_lt,
      Nat.add_zero, ← created]
    exact room
  | mirrored s t accepted predicting => exact hidle (ticksIn_of_mirroring predicting a)

theorem spent_play {c : Client} {as : List Action} {log : List (EntityId × Impact)}
    (hs : World.Spent log c.world) (hw : World.Numbered c.world)
    (room : c.world.nextId.toNat + c.createdBy as < UInt64.size) :
    World.Spent (log ++ c.log as) (c.play as).world := by
  induction as generalizing c log with
  | nil => simpa [Client.log, play] using hs
  | cons a as ih =>
    rw [createdBy] at room
    have hpass := (act_becomes c a).passage
    have hnext := hpass.toNat_nextId (by omega)
    have hspent := (act_becomes c a).spent hs hw (by omega)
    have hrest := ih hspent (hpass.numbered hw (by omega)) (by omega)
    rw [List.append_assoc] at hrest
    exact hrest

/-! ### Runs of a predicting client -/

/-- The retired list has room for everything that an action puts away. -/
def Roomy (c : Client) (a : Action) : Prop :=
  (∀ k < c.ticksIn a, (c.world.steps k).moved.SweepFits) ∧
    ∀ s ∈ c.accepted? a, (c.world.steps (c.world.tick.stepsUpTo s.tick)).ReconcileFits s c.policy

instance (c : Client) (a : Action) : Decidable (c.Roomy a) :=
  inferInstanceAs (Decidable ((∀ k < _, _) ∧ ∀ s ∈ c.accepted? a, _))

/-- If a snapshot is accepted, it lists the given number. -/
def Lists (id : EntityId) (c : Client) (a : Action) : Prop :=
  ∀ s ∈ c.accepted? a, s.lists id = true

instance (id : EntityId) (c : Client) (a : Action) : Decidable (Lists id c a) :=
  inferInstanceAs (Decidable (∀ s ∈ c.accepted? a, _))

theorem Becomes.retains {c : Client} {a : Action} {w : World} (h : Becomes c a w)
    {id : EntityId} (hp : c.predicting = true) (roomy : c.Roomy a) (lists : Lists id c a) :
    World.Retains id c.world w := by
  cases h with
  | same => exact .refl id _
  | fired l => exact World.retains_fire id _ l
  | ticked is predicting =>
    subst is
    exact World.retains_step (roomy.1 0 (by rw [ticksIn_tick predicting]; omega)) id
  | waited is predicting => simp [hp] at predicting
  | drained => exact ⟨.of_subset (List.subset_append_left _ _), .of_subset (List.Subset.refl _)⟩
  | reconciled s accepted predicting =>
    have hsteps : ∀ k < c.world.tick.stepsUpTo s.tick, (c.world.steps k).moved.SweepFits := by
      rw [← ticksIn_of_accepted accepted predicting]
      exact roomy.1
    exact (World.retains_steps hsteps id).trans
      (World.retains_reconcile (roomy.2 s accepted) (lists s accepted))
  | mirrored s t accepted predicting => simp [hp] at predicting

theorem retains_play {c : Client} {as : List Action} {id : EntityId} (hp : c.predicting = true)
    (ha : ∀ a ∈ as, a ≠ .setPredicting false) (roomy : Along act Roomy c as)
    (lists : Along act (Lists id) c as) : World.Retains id c.world (c.play as).world := by
  induction as generalizing c with
  | nil => exact .refl id _
  | cons a as ih =>
    have hfirst := (act_becomes c a).retains hp roomy.1 lists.1
    have hp' := act_predicting hp (ha a List.mem_cons_self)
    exact hfirst.trans (ih hp' (fun b hb => ha b (List.mem_cons_of_mem _ hb)) roomy.2 lists.2)

/-- A client that predicts never replaces its whole world. -/
theorem mirrorsDistinct_of_predicting {c : Client} {as : List Action} (hp : c.predicting = true)
    (ha : ∀ a ∈ as, a ≠ .setPredicting false) : Along act MirrorsDistinct c as := by
  induction as generalizing c with
  | nil => trivial
  | cons a as ih =>
    refine ⟨fun h => by simp [hp] at h, ?_⟩
    exact ih (act_predicting hp (ha a List.mem_cons_self))
      fun b hb => ha b (List.mem_cons_of_mem _ hb)

/-- **No respawn and no second effect.** From the moment a number of the server is carried,
as long as the accepted snapshots list it, it is carried by the same entity and by no
other, and once that entity is retired no live one carries it. Every impact of the run is
taken or still waits, and no entity, paired or not, has set off two of them. -/
theorem no_respawn (cfg : Config) (terrain : Terrain) (as : List Action)
    (predicting : ∀ a ∈ as, a ≠ .setPredicting false)
    (roomy : Along act Roomy (Client.new cfg terrain) as) :
    (∀ s before after, as = before ++ after →
      Along act (Lists s) ((Client.new cfg terrain).play before) after →
      ∀ e ∈ ((Client.new cfg terrain).play before).world.roster, e.serverId = some s →
        (∃ e' ∈ ((Client.new cfg terrain).play as).world.roster,
          e'.id = e.id ∧ e'.serverId = some s ∧
          ∀ e'' ∈ ((Client.new cfg terrain).play as).world.roster,
            e''.serverId = some s → e'' = e') ∧
        (e ∈ ((Client.new cfg terrain).play before).world.retired →
          ∀ e'' ∈ ((Client.new cfg terrain).play as).world.live, e''.serverId ≠ some s)) ∧
    (Client.new cfg terrain).takenBy as ++
        ((Client.new cfg terrain).play as).world.effects.impacts =
      ((Client.new cfg terrain).log as).map Prod.snd ∧
    ((Client.new cfg terrain).createdBy as + 1 < UInt64.size →
      ∀ id, ((Client.new cfg terrain).log as).countP (·.1 = id) ≤ 1) := by
  have hpredicts : (Client.new cfg terrain).predicting = true := rfl
  have hdistinct : ((Client.new cfg terrain).play as).world.tracked.Nodup :=
    nodup_tracked_play (mirrorsDistinct_of_predicting hpredicts predicting) List.nodup_nil
  refine ⟨fun s before after split lists e he hs => ?_, ?_, fun few id => ?_⟩
  · subst split
    have hbefore : ((Client.new cfg terrain).play before).predicting = true :=
      play_predicting hpredicts fun a ha => predicting a (List.mem_append_left _ ha)
    have hafter := retains_play hbefore
      (fun a ha => predicting a (List.mem_append_right _ ha)) (along_append.mp roomy).2 lists
    rw [← play_append] at hafter
    refine ⟨?_, fun hretired e'' he'' hs'' => ?_⟩
    · obtain ⟨e', he', hid, hcarry⟩ := hafter.roster e he hs
      exact ⟨e', he', hid, hcarry s hs,
        fun e'' he'' hs'' => World.eq_of_carries hdistinct he'' he' hs'' (hcarry s hs)⟩
    · obtain ⟨e', he', -, hcarry⟩ := hafter.retired e hretired hs
      rw [World.tracked_eq] at hdistinct
      exact List.disjoint_of_nodup_append hdistinct
        (World.mem_serverIds.mpr ⟨e'', he'', hs''⟩)
        (World.mem_serverIds.mpr ⟨e', he', hcarry s hs⟩)
  · exact (play_impacts (Client.new cfg terrain) as).symm
  · have hone : (Client.new cfg terrain).world.nextId.toNat = 1 := rfl
    have hroom : (Client.new cfg terrain).world.nextId.toNat +
        (Client.new cfg terrain).createdBy as < UInt64.size := by omega
    have hspent := spent_play (World.spent_nil _) (numbered_new cfg terrain) hroom
    have hcount := List.nodup_iff_count_le_one.mp hspent.once id
    rw [List.nil_append, List.count, List.countP_map] at hcount
    have hsame : ((Client.new cfg terrain).log as).countP (·.1 = id) =
        ((Client.new cfg terrain).log as).countP ((· == id) ∘ Prod.fst) :=
      List.countP_congr fun p _ => by simp
    rw [hsame]
    exact hcount

/-- A map that is a wall everywhere. -/
def wall : Terrain := { Terrain.openSpace with hit := fun a b => some ⟨b, a, Vec2.zero, false⟩ }

/-- A shot explodes at once. Its record comes a tick later and is suppressed, and so is the
next one. -/
theorem no_respawn_exploded :
    let before : List Action :=
      [.fire { weapon := .gun, owner := some ⟨0⟩, origin := Vec2.zero, direction := Vec2.zero },
        .tick, .receive { tick := 1, items := [⟨⟨7⟩, default⟩] }]
    let after : List Action := [.tick, .receive { tick := 2, items := [⟨⟨7⟩, default⟩] }, .drain]
    let c := (Client.new .standard wall).play before
    let c' := (Client.new .standard wall).play (before ++ after)
    let log := (Client.new .standard wall).log (before ++ after)
    (∀ a ∈ before ++ after, a ≠ .setPredicting false) ∧
      Along act Roomy (Client.new .standard wall) (before ++ after) ∧
      Along act (Lists ⟨7⟩) c after ∧
      (∃ e ∈ c.world.retired, e.serverId = some ⟨7⟩) ∧
      (∀ e ∈ c'.world.live, e.serverId ≠ some ⟨7⟩) ∧
      log.map Prod.fst = [⟨1⟩] ∧ ∀ id, log.countP (·.1 = id) ≤ 1 := by
  intro before after
  dsimp only
  have predicting : ∀ a ∈ before ++ after, a ≠ .setPredicting false := by
    simp [before, after]
  have roomy : Along act Roomy (Client.new .standard wall) (before ++ after) := by decide +kernel
  have lists : Along act (Lists ⟨7⟩) ((Client.new .standard wall).play before) after := by
    decide +kernel
  have carried : ∃ e ∈ ((Client.new .standard wall).play before).world.retired,
      e.serverId = some ⟨7⟩ := by decide +kernel
  have few : (Client.new .standard wall).createdBy (before ++ after) + 1 < UInt64.size := by
    decide +kernel
  have logged : ((Client.new .standard wall).log (before ++ after)).map Prod.fst = [⟨1⟩] := by
    decide +kernel
  obtain ⟨stays, -, once⟩ := no_respawn .standard wall (before ++ after) predicting roomy
  obtain ⟨e, he, hs⟩ := carried
  have flown := (stays ⟨7⟩ before after rfl lists e (World.mem_roster_of_retired he) hs).2 he
  exact ⟨predicting, roomy, lists, ⟨e, he, hs⟩, flown, logged, once few⟩

end Client

end Volley
