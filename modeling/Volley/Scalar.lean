/-
# The number type of the simulation

All trajectory arithmetic is scalar binary32: one rounding for each operation, in
the order in which it is written, so equal inputs give equal bits. The basic
operations are core's. This module adds the conversions the simulation needs, each
as an exact integer function: the integer below a number (`Scalar.floor`), the
nearest integer (`Scalar.nearest`), and the number nearest to an integer
(`Scalar.ofInt32`). None of them fails: a value that is not a number goes to zero,
and a value beyond the range of the result goes to its end.

Key definitions: `Scalar.floor`, `Scalar.nearest`, `Scalar.ofInt32`,
`Scalar.ofBinary64`, `Scalar.clampUnit`, `Scalar.unitSign`.
-/

namespace Volley

/-- A binary32 number. -/
abbrev Scalar := Float32

namespace Scalar

/-- The gap between 1 and the next number, 2⁻²³. -/
def epsilon : Scalar := Float32.ofBits 0x34000000

/-- The sign bit of the binary32 layout. -/
def signMask : UInt32 := 0x80000000

/-- The given value moved into `[0, 1]`. A value that is not a number stays as it is. -/
def clampUnit (t : Scalar) : Scalar :=
  let t := if t < 0.0 then 0.0 else t
  if 1.0 < t then 1.0 else t

/-- One with the sign bit of `x`, zeros included. A value that is not a number stays as it is. -/
def unitSign (x : Scalar) : Scalar :=
  if x.isNaN then x else if x.toBits &&& signMask = 0 then 1.0 else -1.0

/-- The larger of `x` and zero, and zero if `x` is not a number. -/
def atLeastZero (x : Scalar) : Scalar := if 0.0 < x then x else 0.0

/-- The smaller of `x` and `bound`, and `bound` if `x` is not a number. -/
def atMost (x bound : Scalar) : Scalar := if x < bound then x else bound

/-- The largest integer that is not above `x`. The magnitude saturates at the end of
the unsigned 64-bit range. -/
def floor (x : Scalar) : Int :=
  if x < 0.0 then
    let magnitude := (-x).toUInt64
    if magnitude.toFloat32 < -x then -(magnitude.toNat : Int) - 1 else -(magnitude.toNat : Int)
  else
    (x.toUInt64.toNat : Int)

/-- The integer nearest to `x`; a half goes away from zero. The magnitude saturates
one above the end of the unsigned 64-bit range. -/
def nearest (x : Scalar) : Int :=
  let whole := x.abs.toUInt64
  let magnitude := if 0.5 ≤ x.abs - whole.toFloat32 then whole.toNat + 1 else whole.toNat
  if x < 0.0 then -(magnitude : Int) else (magnitude : Int)

/-- The nearest signed 32-bit integer. -/
def toInt32 (x : Scalar) : Int32 := Int32.ofIntClamp x.nearest

/-- The nearest unsigned 32-bit integer. -/
def roundUInt32 (x : Scalar) : UInt32 := UInt32.ofNatClamp x.nearest.toNat

/-- The number nearest to a signed integer; ties go to the even neighbour. -/
def ofInt32 (n : Int32) : Scalar :=
  if n < 0 then -(-n.toUInt32).toFloat32 else n.toUInt32.toFloat32

/-- The number nearest to a binary64 value; ties go to the even neighbour, and a
magnitude beyond the range becomes infinite. -/
def ofBinary64 (x : Float) : Scalar :=
  match x.toModel.unpack with
  | .finite sign mantissa exponent _ =>
    .ofModel (.pack (Float.Model.UnpackedFloat.round .binary32 sign mantissa exponent))
  | special => .ofModel (.pack special)

end Scalar

end Volley
