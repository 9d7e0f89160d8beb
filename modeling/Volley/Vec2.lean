/-
# Plane vectors

Positions and directions, in world units. A tile of the map is 32 units wide and
`y` points down. Every operation is a fixed sequence of scalar operations, so it
gives the same bits each time.

Key definitions: `Vec2.normalizeOrZero`, `Vec2.reflect`, `Vec2.lerp`.
-/
import Volley.Scalar

namespace Volley

/-- A vector in the plane. Equality (`==`) compares numbers, so `0 == -0` holds and a
value that is not a number differs from itself. -/
structure Vec2 where
  x : Scalar
  y : Scalar
deriving BEq, Inhabited

namespace Vec2

/-- The origin of the plane. -/
def zero : Vec2 := ⟨0.0, 0.0⟩

/-- The direction in which gravity pulls. -/
def down : Vec2 := ⟨0.0, 1.0⟩

instance : Add Vec2 := ⟨fun a b => ⟨a.x + b.x, a.y + b.y⟩⟩
instance : Sub Vec2 := ⟨fun a b => ⟨a.x - b.x, a.y - b.y⟩⟩
instance : Neg Vec2 := ⟨fun a => ⟨-a.x, -a.y⟩⟩
instance : HMul Vec2 Scalar Vec2 := ⟨fun a s => ⟨a.x * s, a.y * s⟩⟩

@[simp] theorem add_x (a b : Vec2) : (a + b).x = a.x + b.x := rfl
@[simp] theorem add_y (a b : Vec2) : (a + b).y = a.y + b.y := rfl
@[simp] theorem sub_x (a b : Vec2) : (a - b).x = a.x - b.x := rfl
@[simp] theorem sub_y (a b : Vec2) : (a - b).y = a.y - b.y := rfl
@[simp] theorem neg_x (a : Vec2) : (-a).x = -a.x := rfl
@[simp] theorem neg_y (a : Vec2) : (-a).y = -a.y := rfl
@[simp] theorem mul_x (a : Vec2) (s : Scalar) : (a * s).x = a.x * s := rfl
@[simp] theorem mul_y (a : Vec2) (s : Scalar) : (a * s).y = a.y * s := rfl

/-- The scalar product. -/
def dot (a b : Vec2) : Scalar := a.x * b.x + a.y * b.y

/-- The square of the length. -/
def lengthSq (a : Vec2) : Scalar := a.dot a

/-- The Euclidean length. -/
def length (a : Vec2) : Scalar := a.lengthSq.sqrt

/-- The length of the way from `a` to `b`. -/
def distance (a b : Vec2) : Scalar := (b - a).length

/-- Both coordinates are finite. -/
def isFinite (a : Vec2) : Bool := a.x.isFinite && a.y.isFinite

/-- The unit vector in the direction of `a`, or zero if `a` is too short to have a
direction or its length is not finite. -/
def normalizeOrZero (a : Vec2) : Vec2 :=
  let length := a.length
  if !length.isFinite || length ≤ Scalar.epsilon then zero
  else ⟨a.x / length, a.y / length⟩

/-- The reflection of `a` at a surface with unit normal `normal`. -/
def reflect (a normal : Vec2) : Vec2 := a - normal * (2.0 * a.dot normal)

/-- The point at fraction `t` of the way from `a` to `b`; `t` is first moved into `[0, 1]`. -/
@[inline] def lerp (a b : Vec2) (t : Scalar) : Vec2 :=
  let t := t.clampUnit
  ⟨a.x + (b.x - a.x) * t, a.y + (b.y - a.y) * t⟩

end Vec2

end Volley
