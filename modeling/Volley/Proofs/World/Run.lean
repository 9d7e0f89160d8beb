/-
# Runs of a world

A run is any list of operations on a world, done one after the other. Besides those that a
world has of its own there is one that a client does to it: without prediction, a snapshot
takes the place of everything (`Action.mirror`). What the operations of a run yield is
gathered in their order.

Between two operations a world is tidy: what is live is in flight, what is retired is not,
and not too many are kept. A tick, a way up and a record may end a flight, but every
operation in which they do puts away what has ended before it is over.

Key definitions: `World.Action`, `World.act`, `World.play`, `World.gather`, `World.Tidy`.
Key theorems: `World.tidy_sweep`, `World.Taken.retired_ended`, `World.Tidy.act`,
`World.tidy_play`.
-/
import Volley.Proofs.World.Idempotence
import Volley.Proofs.World.Late

namespace Volley

namespace World

/-- What can be done with a world. -/
inductive Action where
  | fire (l : Launch)
  | addConfirmed (serverId : EntityId) (r : Record) (seen : Tick)
  | step
  | setTick (t : Tick)
  | reconcile (s : Snapshot) (policy : MatchPolicy)
  | mirror (s : Snapshot)
  | drain
  | clear

/-- The world after an operation. -/
def act (w : World) : Action → World
  | .fire l => (w.fire l).2
  | .addConfirmed serverId r seen => (w.addConfirmed serverId r seen).2
  | .step => w.step.2
  | .setTick t => w.setTick t
  | .reconcile s policy => (w.reconcile s policy).2
  | .mirror s => Client.replaceAll w s
  | .drain => w.drainImpacts.2
  | .clear => w.clear

/-- The world after a run. -/
def play (w : World) (as : List Action) : World := as.foldl act w

/-- What the operations of a run yield, one after the other. -/
def gather {β : Type} (yield : World → Action → List β) : World → List Action → List β
  | _, [] => []
  | w, a :: as => yield w a ++ gather yield (w.act a) as

theorem play_append (w : World) (as bs : List Action) :
    w.play (as ++ bs) = (w.play as).play bs := List.foldl_append

theorem gather_append {β : Type} (yield : World → Action → List β) (w : World)
    (as bs : List Action) :
    gather yield w (as ++ bs) = gather yield w as ++ gather yield (w.play as) bs := by
  induction as generalizing w with
  | nil => rfl
  | cons a as ih =>
    have hrest := ih (w.act a)
    rw [List.cons_append, gather, gather, hrest, List.append_assoc]
    rfl

theorem play_steps (w : World) (n : Nat) : w.play (List.replicate n .step) = w.steps n := by
  induction n generalizing w with
  | zero => rfl
  | succ n ih => exact ih w.step.2

/-! ### In flight or put away -/

/-- What is live is in flight, what is retired is not, and not too many are kept. -/
structure Tidy (w : World) : Prop where
  flying : ∀ e ∈ w.live, e.shot.removed = false
  ended : ∀ e ∈ w.retired, e.shot.removed = true
  kept : w.retired.length ≤ retiredCapacity

theorem tidy_new (cfg : Config) (terrain : Terrain) : Tidy (new cfg terrain) where
  flying _ he := nomatch he
  ended _ he := nomatch he
  kept := Nat.zero_le _

variable {w w' : World}

/-- Only the entities count. -/
theorem Tidy.congr (h : Tidy w) (live : w'.live = w.live) (retired : w'.retired = w.retired) :
    Tidy w' where
  flying := by
    rw [live]
    exact h.flying
  ended := by
    rw [retired]
    exact h.ended
  kept := by
    rw [retired]
    exact h.kept

theorem Tidy.insert (h : Tidy w) {shot : Shot} (flies : shot.removed = false)
    (serverId : Option EntityId) : Tidy (w.insert serverId shot).2 where
  flying e he := by
    rcases List.mem_append.mp he with hold | hnew
    · exact h.flying e hold
    · rw [List.mem_singleton.mp hnew]
      exact flies
  ended := h.ended
  kept := h.kept

/-- However the flights have ended, putting away tidies up. -/
theorem tidy_sweep (ended : ∀ e ∈ w.retired, e.shot.removed = true) : Tidy w.sweep where
  flying _ he := not_removed_of_mem_sweep he
  ended e he := by
    simp only [sweep] at he
    rcases List.mem_append.mp ((keepLatest_sublist _).subset he) with hold | hnew
    · exact ended e hold
    · exact (List.mem_filter.mp hnew).2
  kept := by
    simp only [sweep, keepLatest, List.length_drop]
    omega

theorem Tidy.step (h : Tidy w) : Tidy w.step.2 := by
  rw [step_world]
  exact tidy_sweep h.ended

/-- A record puts no retired entity back in flight. -/
theorem Taken.retired_ended {policy : MatchPolicy} {seen : Tick} {item : SnapshotItem}
    {r : ReconcileReport} {out : World × ReconcileReport} (h : Taken policy seen item w r out)
    (ended : ∀ e ∈ w.retired, e.shot.removed = true) :
    ∀ e ∈ out.1.retired, e.shot.removed = true := by
  cases h with
  | tagged before x after new unclaimed partner =>
    rw [partner.split] at ended
    intro e he
    rcases mem_of_place he with hold | rfl
    · exact ended e hold
    · exact ended x (List.mem_append_right _ List.mem_cons_self)
  | adopted | suppressed | claimed | spawned => exact ended

theorem Tidy.reconcile (h : Tidy w) (s : Snapshot) (policy : MatchPolicy) :
    Tidy (w.reconcile s policy).2 := by
  have hrecords : ∀ e ∈ (w.withRecords s policy).retired, e.shot.removed = true :=
    takeRecords_induction (P := fun out => ∀ e ∈ out.1.retired, e.shot.removed = true)
      (fun _ _ _ _ _ hw ht => ht.retired_ended hw) h.ended
  have hswept : Tidy (w.marked s policy).sweep := tidy_sweep hrecords
  have hpruned : (w.reconcile s policy).2.retired ⊆ (w.marked s policy).sweep.retired := by
    rw [reconcile_world]
    simp only [prune]
    exact List.filter_sublist.subset
  refine ⟨?_, fun e he => hswept.ended e (hpruned he), length_retired_reconcile w s policy⟩
  rw [reconcile_live]
  exact hswept.flying

theorem flying_mirrored (ctx : TickContext) (next : UInt64) (items : List SnapshotItem) :
    ∀ e ∈ mirrored ctx next items, e.shot.removed = false := by
  induction items generalizing next with
  | nil => exact fun e he => nomatch he
  | cons item rest ih =>
    intro e he
    rcases List.mem_cons.mp he with rfl | hrest
    · exact Shot.removed_ofRecord ctx item.record
    · exact ih (next + 1) e hrest

theorem tidy_replaceAll (w : World) (s : Snapshot) : Tidy (Client.replaceAll w s) := by
  rw [replaceAll_eq]
  exact {
    flying := flying_mirrored _ _ _
    ended := fun _ he => nomatch he
    kept := Nat.zero_le _ }

/-- Every operation leaves a tidy world tidy. -/
theorem Tidy.act (h : Tidy w) (a : Action) : Tidy (w.act a) := by
  cases a with
  | fire l => exact h.insert rfl none
  | addConfirmed serverId r seen => exact h.insert (Shot.removed_ofRecord _ r) (some serverId)
  | step => exact h.step
  | setTick t => exact h.congr rfl rfl
  | reconcile s policy => exact h.reconcile s policy
  | mirror s => exact tidy_replaceAll w s
  | drain => exact h.congr rfl rfl
  | clear =>
    exact {
      flying := fun _ he => nomatch he
      ended := fun _ he => nomatch he
      kept := Nat.zero_le _ }

theorem Tidy.play (h : Tidy w) (as : List Action) : Tidy (w.play as) := by
  induction as generalizing w with
  | nil => exact h
  | cons a as ih => exact ih (h.act a)

/-- In whatever order, the operations leave a world tidy. -/
theorem tidy_play (cfg : Config) (terrain : Terrain) (as : List Action) :
    Tidy ((new cfg terrain).play as) :=
  (tidy_new cfg terrain).play as

end World

end Volley
