/-
# Reconciliation

A snapshot lists every shot that the server considers alive. A shot that ended here is kept
among the retired ones for a while. Each record is paired with at most one shot of the world,
the first of these that there is:

* a live shot that carries the record's number takes over what the server decides;
* a retired shot that carries it suppresses the record, so that nothing is added;
* a live prediction that agrees with the record is claimed for it;
* a retired prediction that agrees with it takes its number and suppresses it from then on;
* otherwise the confirmed shot is added and brought up to the tick of the world.

So a live prediction comes before a retired one: the record of a shot that ended here, and that
no record has named before, may claim another prediction that agrees with it.

A paired shot that is too far from the record is replaced by the shot of the record,
brought up to date. A record without an extension block decides nothing that the block
would hold: the paired shot's own history stands in for it.

After all records, shots that the server no longer lists are dropped, and predictions
that it should have confirmed by now are discarded.

Key definitions: `ReconcileReport`, `World.confirmed`, `World.settle`, `World.findTracked`,
`World.bestMatch`, `World.takeRecord`, `World.expire`, `World.prune`, `World.reconcile`.
-/
import Volley.World

namespace Volley

/-- What a reconciliation did. -/
structure ReconcileReport where
  tick : Tick
  /-- Records in the snapshot. -/
  confirmed : Nat := 0
  /-- Predictions that were paired for the first time. -/
  claimed : Nat := 0
  /-- Shots that were paired before. -/
  adopted : Nat := 0
  /-- Paired shots that were too far off and were replaced. -/
  replaced : Nat := 0
  /-- Records of shots that had ended here. -/
  suppressed : Nat := 0
  /-- Shots that were added. -/
  spawned : Nat := 0
  /-- Confirmed shots that the server no longer lists. -/
  dropped : Nat := 0
  /-- Predictions that the server never confirmed. -/
  discarded : Nat := 0
deriving DecidableEq, Inhabited

namespace World

/-- The shot that a record describes, seen at `seen`. If the record has no extension
block, that of the shot it is paired with stands in for it. -/
def confirmed (w : World) (r : Record) (seen : Tick) (paired : Option Shot) : Shot :=
  let extra := r.extra.or (paired.map (·.extraAt seen))
  Shot.ofRecord (w.contextAt seen) { r with extra }

/-- The distance of a shot at `seen` from the position of a record. -/
def deviation (w : World) (s : Shot) (r : Record) (seen : Tick) : Scalar :=
  (s.positionIn (w.contextAt seen)).distance r.position

/-- A shot paired with a record, after it has taken over what the server decides, and
whether it was replaced. A shot that bounced after `seen` is never replaced, since its
position at that tick cannot be known. -/
def settle (w : World) (policy : MatchPolicy) (seen : Tick) (r : Record) (s : Shot) :
    Shot × Bool :=
  let server := w.confirmed r seen (some s)
  let adopted := s.adopt server
  if seen < adopted.launchTick || w.deviation adopted r seen ≤ policy.correctionDistance then
    (adopted, false)
  else (server.runTo (w.contextAt seen) w.tick, true)

/-- The first element with the least key. -/
def firstLeast {α : Type} (key : α → Nat) : List α → Option α
  | [] => none
  | a :: rest =>
    match firstLeast key rest with
    | none => some a
    | some b => if key a ≤ key b then some a else some b

/-- The first entity that carries a number of the server, with its place in the list. -/
def findTracked (entities : List Entity) (serverId : EntityId) : Option (Entity × Nat) :=
  entities.zipIdx.find? (·.1.serverId = some serverId)

/-- The unpaired entity that agrees with a confirmed shot, with the nearest start tick, and
its place in the list; the first of several. -/
def bestMatch (entities : List Entity) (server : Shot) (seen : Tick) (policy : MatchPolicy) :
    Option (Entity × Nat) :=
  firstLeast (·.1.shot.startTick.gap server.startTick)
    (entities.zipIdx.filter fun place =>
      place.1.serverId.isNone && place.1.shot.agreesAt server seen policy)

/-- Pairs the live entity at a place with a record; tells whether its shot was replaced. -/
def pairLive (w : World) (policy : MatchPolicy) (seen : Tick) (item : SnapshotItem)
    (place : Entity × Nat) : World × Bool :=
  let (shot, replaced) := w.settle policy seen item.record place.1.shot
  ({ w with live := w.live.set place.2 { place.1 with serverId := some item.id, shot } }, replaced)

/-- Pairs the retired entity at a place with a record. -/
def pairRetired (w : World) (item : SnapshotItem) (place : Entity × Nat) : World :=
  { w with retired := w.retired.set place.2 { place.1 with serverId := some item.id } }

/-- Adds the shot of a record and brings it up to the tick of the world. -/
def spawn (w : World) (seen : Tick) (item : SnapshotItem) (server : Shot) : World :=
  (w.insert (some item.id) (server.runTo (w.contextAt seen) w.tick)).2

/-- Takes one record of a snapshot into the world. -/
def takeRecord (policy : MatchPolicy) (seen : Tick) (item : SnapshotItem)
    (state : World × ReconcileReport) : World × ReconcileReport :=
  let (w, report) := state
  match findTracked w.live item.id with
  | some place =>
    let (w, replaced) := w.pairLive policy seen item place
    (w, { report with
      adopted := report.adopted + 1
      replaced := report.replaced + replaced.toNat })
  | none =>
    if w.retired.any (·.serverId = some item.id) then
      (w, { report with suppressed := report.suppressed + 1 })
    else
      let server := w.confirmed item.record seen none
      match bestMatch w.live server seen policy with
      | some place =>
        let (w, replaced) := w.pairLive policy seen item place
        (w, { report with
          claimed := report.claimed + 1
          replaced := report.replaced + replaced.toNat })
      | none =>
        match bestMatch w.retired server seen policy with
        | some place =>
          (w.pairRetired item place, { report with suppressed := report.suppressed + 1 })
        | none => (w.spawn seen item server, { report with spawned := report.spawned + 1 })

/-- Takes the records of a snapshot into the world, in order. -/
def takeRecords (policy : MatchPolicy) (s : Snapshot) (state : World × ReconcileReport) :
    World × ReconcileReport :=
  s.items.foldl (fun state item => takeRecord policy s.tick item state) state

/-- Predictions that started before this tick should be confirmed by a snapshot. -/
def horizon (policy : MatchPolicy) (s : Snapshot) : Tick :=
  s.tick.minus policy.tickWindow.atLeastZero

/-- The server tracks this entity no longer. -/
def isDropped (s : Snapshot) (e : Entity) : Bool :=
  match e.serverId with
  | some id => !s.lists id
  | none => false

/-- The entity is a prediction that the server should have confirmed. -/
def isDiscarded (policy : MatchPolicy) (s : Snapshot) (e : Entity) : Bool :=
  e.serverId.isNone && e.shot.startTick < horizon policy s

/-- Removes what the server no longer lists and what it should have confirmed. -/
def expire (policy : MatchPolicy) (s : Snapshot) (state : World × ReconcileReport) :
    World × ReconcileReport :=
  let (w, report) := state
  ({ w with live := w.live.map fun e =>
      if isDropped s e || isDiscarded policy s e then { e with shot := e.shot.remove } else e },
    { report with
      dropped := report.dropped + w.live.countP (isDropped s)
      discarded := report.discarded + w.live.countP (isDiscarded policy s) })

/-- Forgets retired shots that no later record can name. -/
def prune (policy : MatchPolicy) (s : Snapshot) (w : World) : World :=
  { w with retired := w.retired.filter fun e => !(isDropped s e || isDiscarded policy s e) }

/-- Brings a world in line with a snapshot. -/
def reconcile (w : World) (s : Snapshot) (policy : MatchPolicy) : ReconcileReport × World :=
  let start : ReconcileReport := { tick := s.tick, confirmed := s.items.length }
  let (w, report) := expire policy s (takeRecords policy s (w, start))
  (report, prune policy s w.sweep)

end World

end Volley
