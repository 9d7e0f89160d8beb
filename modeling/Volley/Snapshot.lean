/-
# Snapshots

Key definitions: `Snapshot`, `Snapshot.find?`.
-/
import Volley.Record

namespace Volley

/-- One projectile in a snapshot, under its number on the server. -/
structure SnapshotItem where
  id : EntityId
  record : Record
deriving DecidableEq, Inhabited

/-- All projectiles that were alive on the server at one tick. -/
structure Snapshot where
  tick : Tick := 0
  items : List SnapshotItem := []
deriving DecidableEq, Inhabited

namespace Snapshot

/-- The record of the first item with a given number. -/
def find? (s : Snapshot) (id : EntityId) : Option Record :=
  (s.items.find? (·.id = id)).map (·.record)

/-- The snapshot has an item with a given number. -/
def lists (s : Snapshot) (id : EntityId) : Bool := s.items.any (·.id = id)

end Snapshot

end Volley
