/-
# Snapshot history

The server publishes at tick boundaries, and a client draws at its own rate. Confirmed
positions between two ticks are interpolated between the two newest snapshots.

Key definitions: `History`, `History.push`, `History.record?`, `History.interpolate`,
`tickFraction`.
-/
import Volley.Snapshot

namespace Volley

/-- The newest snapshots, oldest first. -/
structure History where
  snapshots : List Snapshot := []
  /-- How many snapshots are kept. -/
  capacity : Nat := 0
deriving DecidableEq, Inhabited

namespace History

/-- A history that keeps the given number of snapshots, and at least one. -/
def new (capacity : Nat) : History := { capacity := max capacity 1 }

/-- The newest snapshot. -/
def latest? (h : History) : Option Snapshot := h.snapshots.getLast?

/-- The snapshot is newer than all that are kept. -/
def accepts (h : History) (s : Snapshot) : Bool :=
  match h.latest? with
  | some latest => latest.tick < s.tick
  | none => true

/-- Adds a snapshot, if it is newer than the newest one, and forgets the oldest ones
beyond the capacity. Tells whether it was added. -/
def push (h : History) (s : Snapshot) : Bool × History :=
  if h.accepts s then
    let snapshots := h.snapshots ++ [s]
    (true, { h with snapshots := snapshots.drop (snapshots.length - h.capacity) })
  else (false, h)

/-- A shot's record in the newest snapshot. -/
def record? (h : History) (id : EntityId) : Option Record := h.latest?.bind (·.find? id)

/-- The position of a shot at fraction `t` of the way between the two newest snapshots,
if both list it. -/
def interpolate (h : History) (id : EntityId) (t : Scalar) : Option Vec2 :=
  match h.snapshots.reverse with
  | newer :: older :: _ => do
    let a ← older.find? id
    let b ← newer.find? id
    return a.position.lerp b.position t
  | _ => none

/-- Forgets every snapshot. -/
def clear (h : History) : History := { h with snapshots := [] }

end History

/-- Nanoseconds in a second. -/
def nanosPerSecond : Scalar := 1000000000.0

/-- The part of the current tick that has passed after a duration of whole seconds and
nanoseconds, in `[0, 1]`. -/
def tickFraction (secs : UInt64) (nanos : UInt32) (hz : UInt32) : Scalar :=
  let elapsed : Scalar := secs.toFloat32 + nanos.toFloat32 / nanosPerSecond
  let tick : Scalar := 1.0 / (max hz 1).toFloat32
  Scalar.clampUnit (elapsed / tick)

end Volley
