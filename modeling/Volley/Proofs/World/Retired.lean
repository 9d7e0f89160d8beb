/-
# Which retired entities are kept

A retired entity is needed after a snapshot if a later one can still be about it: if it
carries a number that the server lists, or if it carries none and started late enough to be
confirmed yet. A reconciliation forgets all others (`prune`), but only after it has put away
what has ended, and putting away keeps the latest entities that there is room for, needed or
not (`reconcile_retired`). So what is needed is kept exactly if all that is crowded out is
obsolete (`retired_eq_needed_iff`). A single needed entity can be forgotten because of
entities that are forgotten themselves in the same call (`needed_crowded_out`), and the next
record of its shot adds the shot again.

Key definitions: `World.needed`, `World.putAway`, `World.crowdedOut`.
Key theorems: `World.reconcile_retired`, `World.retired_eq_needed_iff`.
-/
import Volley.Proofs.World.Numbering

namespace Volley

namespace World

variable {policy : MatchPolicy} {s : Snapshot} {w : World}

/-- A later snapshot can still be about the entity. -/
def needed (policy : MatchPolicy) (s : Snapshot) (e : Entity) : Bool :=
  match e.serverId with
  | some id => s.lists id
  | none => horizon policy s ≤ e.shot.startTick

/-- What is not needed is gone. -/
theorem not_gone (policy : MatchPolicy) (s : Snapshot) (e : Entity) :
    (!gone policy s e) = needed policy s e := by
  cases h : e.serverId with
  | some id => simp [gone_of_serverId h, needed, h]
  | none =>
    rw [gone_of_unpaired h, needed, h, ← decide_not]
    exact decide_eq_decide.mpr Int32.not_lt

/-- The retired entities after all records of a snapshot, and behind them what is put away. -/
def putAway (w : World) (s : Snapshot) (policy : MatchPolicy) : List Entity :=
  (w.marked s policy).retired ++ (w.marked s policy).live.filter (·.shot.removed)

/-- The entities for which there is no room: the first ones beyond the capacity. -/
def crowdedOut (w : World) (s : Snapshot) (policy : MatchPolicy) : List Entity :=
  (w.putAway s policy).take ((w.putAway s policy).length - retiredCapacity)

theorem crowdedOut_append_keepLatest (w : World) (s : Snapshot) (policy : MatchPolicy) :
    w.crowdedOut s policy ++ keepLatest (w.putAway s policy) = w.putAway s policy :=
  List.take_append_drop _ _

/-- A reconciliation makes room first, and forgets what is not needed then. -/
theorem reconcile_retired (w : World) (s : Snapshot) (policy : MatchPolicy) :
    (w.reconcile s policy).2.retired =
      (keepLatest (w.putAway s policy)).filter (needed policy s) := by
  have hpruned : (prune policy s (w.marked s policy).sweep).retired =
      (keepLatest (w.putAway s policy)).filter (!gone policy s ·) := by
    simp only [prune, gone, sweep, putAway]
  rw [reconcile_world, hpruned]
  exact List.filter_congr fun e _ => not_gone policy s e

/-- **What is needed is kept exactly if what is crowded out is not.** The retired entities
after a snapshot are the needed ones of those that there is room for. They are all needed
ones, in order, if and only if none of them is crowded out by what is put away behind it. -/
theorem retired_eq_needed_iff (w : World) (s : Snapshot) (policy : MatchPolicy) :
    (w.reconcile s policy).2.retired =
        (keepLatest (w.putAway s policy)).filter (needed policy s) ∧
      ((w.reconcile s policy).2.retired = (w.putAway s policy).filter (needed policy s) ↔
        ∀ e ∈ w.crowdedOut s policy, needed policy s e = false) := by
  have hkept := reconcile_retired w s policy
  refine ⟨hkept, ?_⟩
  have hsplit : (w.putAway s policy).filter (needed policy s) =
      (w.crowdedOut s policy).filter (needed policy s) ++ (w.reconcile s policy).2.retired := by
    rw [hkept, ← List.filter_append, crowdedOut_append_keepLatest]
  rw [hsplit, List.self_eq_append_left, List.filter_eq_nil_iff]
  simp only [Bool.not_eq_true]

/-! ### One needed entity among many obsolete ones -/

/-- A shot that ends after five ticks. -/
def spark : Launch :=
  { weapon := .gun, owner := some ⟨3⟩, origin := Vec2.zero, direction := ⟨1.0, 0.0⟩
    lifespan := some 5 }

/-- A shot of another player. -/
def stray : Launch :=
  { weapon := .gun, owner := some ⟨4⟩, origin := Vec2.zero, direction := ⟨1.0, 0.0⟩ }

/-- The world at the tick 6 in which one spark and many strays were fired at the tick 0. -/
def crowd : World :=
  ((List.replicate retiredCapacity stray).foldl (fun w l => (w.fire l).2)
    ((World.new .standard .openSpace).fire spark).2).steps 6

/-- What a server says of the spark at a tick. -/
def sparkSnapshot (tick : Tick) (x y : Int32) : Snapshot where
  tick
  items := [{
    id := ⟨1⟩
    record :=
      { weapon := 1, startTick := 0, owner := 3, x, y, dirX := 1000000, dirY := 0, lifespan := 5
        flags := .empty, force := 0, impactSound := -1
        extra := some
          { layer := 0, number := 0, tuneZone := 0, bounces := 0, launchOffset := 0 } } }]

theorem snapshot_spark :
    (((World.new .standard .openSpace).fire spark).2.steps 3).snapshot =
        sparkSnapshot 3 13200 218 ∧
      (((World.new .standard .openSpace).fire spark).2.steps 4).snapshot =
        sparkSnapshot 4 17600 387 := by
  decide +kernel

/-- The spark has ended here when a snapshot lists it, and its record is suppressed. But the
same snapshot discards all strays, so the spark is crowded out, though it is the only needed
entity and none of the others is kept. The next snapshot adds it again. -/
theorem needed_crowded_out :
    let first := sparkSnapshot 3 13200 218
    let second := sparkSnapshot 4 17600 387
    let once := crowd.reconcile first {}
    let twice := once.2.reconcile second {}
    (((World.new .standard .openSpace).fire spark).2.steps 3).snapshot = first ∧
      (((World.new .standard .openSpace).fire spark).2.steps 4).snapshot = second ∧
      ((crowd.putAway first {}).filter (needed {} first)).map (·.serverId) = [some ⟨1⟩] ∧
      once.1.suppressed = 1 ∧ once.2.retired.length = 0 ∧ twice.1.spawned = 1 := by
  refine ⟨snapshot_spark.1, snapshot_spark.2, ?_⟩
  decide +kernel

end World

end Volley
