/-
# One step of a flight

In one tick a shot sweeps the segment from where it was to where it is. An obstacle on
it either starts a new leg, if the surface bounces and the shot has a bounce left, or
ends the flight with an impact. Otherwise the flight ends silently if the shot has left
the map or outlived its span.

Key definitions: `Outcome`, `Shot.advance`, `Shot.runTo`.
-/
import Volley.Shot
import Volley.Impact

namespace Volley

/-- What a tick did to a shot. -/
inductive Outcome where
  /-- It is still in flight. -/
  | flying
  /-- It was thrown back, and a new leg started. -/
  | bounced
  /-- It hit something; its effects are due, and it is removed. -/
  | impact (event : Impact)
  /-- Its lifespan ran out; it is removed without effects. -/
  | expired
  /-- It left the map; it is removed without effects. -/
  | clipped
  /-- It had been removed before; nothing happened. -/
  | inactive
deriving BEq, Inhabited

namespace Outcome

/-- The effects that the tick set off. -/
def impact? : Outcome → Option Impact
  | impact event => some event
  | _ => none

/-- The shot was thrown back. -/
def isBounced : Outcome → Bool
  | bounced => true
  | _ => false

/-- The shot hit something. -/
def isImpact : Outcome → Bool
  | impact _ => true
  | _ => false

/-- The lifespan of the shot ran out. -/
def isExpired : Outcome → Bool
  | expired => true
  | _ => false

/-- The shot left the map. -/
def isClipped : Outcome → Bool
  | clipped => true
  | _ => false

end Outcome

namespace Shot

/-- Where the segment of this tick starts. -/
def sweepStart (s : Shot) (ctx : TickContext) : Vec2 :=
  s.positionAt (ctx.seconds ((s.flight ctx.tick).minus 1).atLeastZero) ctx.tuning

/-- The shot thrown back by a surface: a new leg starts at the last free point. -/
def bounceOff (s : Shot) (tick : Tick) (hit : SegmentHit) : Shot :=
  { s with
    pastLegs := s.leg :: s.pastLegs
    direction := (s.direction.reflect hit.normal).normalizeOrZero
    origin := hit.before
    launchTick := tick
    bounces := s.bounces - 1 }

/-- The effects of the shot at a point. -/
def impactAt (s : Shot) (tick : Tick) (position : Vec2) : Impact where
  tick
  position
  owner := s.owner
  weapon := s.weapon
  explosive := s.explosive
  freeze := s.freeze
  force := s.force
  sound := s.impactSound

/-- The shot has lived for its whole span. -/
def outlived (s : Shot) (tick : Tick) : Bool :=
  match s.lifespan with
  | some span => span.toNat ≤ tick.toInt - s.startTick.toInt
  | none => false

/-- The step that ends at the tick of the context. -/
def advance (s : Shot) (ctx : TickContext) : Shot × Outcome :=
  if s.removed then (s, .inactive)
  else
    let position := s.positionIn ctx
    match ctx.terrain.hit (s.sweepStart ctx) position with
    | some hit =>
      if hit.bounce && 0 < s.bounces then (s.bounceOff ctx.tick hit, .bounced)
      else (s.remove, .impact (s.impactAt ctx.tick hit.point))
    | none =>
      if ctx.terrain.clipped position then (s.remove, .clipped)
      else if s.outlived ctx.tick then (s.remove, .expired)
      else (s, .flying)

/-- The shot after the next `n` ticks; their effects are dropped. -/
def advanceSilently (ctx : TickContext) : Nat → Shot → Shot
  | 0, s => s
  | n + 1, s =>
    if s.removed then s
    else
      let ctx := { ctx with tick := ctx.tick.next }
      advanceSilently ctx n (s.advance ctx).1

/-- The shot, known as of the tick of the context, at a later tick. The effects of the
ticks between are dropped. An earlier tick changes nothing. -/
def runTo (s : Shot) (ctx : TickContext) (tick : Tick) : Shot :=
  advanceSilently ctx (ctx.tick.stepsUpTo tick) s

end Shot

end Volley
