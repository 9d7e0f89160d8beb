/-
# Effects

A projectile that hits something reports an `Impact`; it never changes players itself.
Reports wait in a queue until the layers that show or apply them take them.

Key definitions: `Impact`, `EventQueues`.
-/
import Volley.Vec2
import Volley.Tick
import Volley.Identity
import Volley.Weapon

namespace Volley

/-- A projectile hit something, and its effects are due. -/
structure Impact where
  tick : Tick
  position : Vec2
  owner : Option ClientId
  weapon : Weapon
  explosive : Bool
  freeze : Bool
  force : Scalar
  /-- The sound to play. -/
  sound : Option Int32
deriving BEq, Inhabited

/-- Events that wait to be taken, oldest first: one queue for each kind of event. -/
structure EventQueues where
  impacts : List Impact := []
  /-- Announcements that carry an unsigned number. -/
  counters : List UInt32 := []
  /-- Announcements that carry a signed number. -/
  signals : List Int32 := []
deriving Inhabited

namespace EventQueues

/-- Adds events at the end of the impact queue. -/
def pushImpacts (q : EventQueues) (new : List Impact) : EventQueues :=
  { q with impacts := q.impacts ++ new }

/-- Adds an event at the end of the counter queue. -/
def pushCounter (q : EventQueues) (n : UInt32) : EventQueues :=
  { q with counters := q.counters ++ [n] }

/-- Adds an event at the end of the signal queue. -/
def pushSignal (q : EventQueues) (n : Int32) : EventQueues :=
  { q with signals := q.signals ++ [n] }

/-- Takes every waiting impact. -/
def drainImpacts (q : EventQueues) : List Impact × EventQueues :=
  (q.impacts, { q with impacts := [] })

/-- Takes every waiting counter. -/
def drainCounters (q : EventQueues) : List UInt32 × EventQueues :=
  (q.counters, { q with counters := [] })

/-- Takes every waiting signal. -/
def drainSignals (q : EventQueues) : List Int32 × EventQueues :=
  (q.signals, { q with signals := [] })

/-- The queues with nothing waiting. -/
def empty : EventQueues := {}

end EventQueues

end Volley
