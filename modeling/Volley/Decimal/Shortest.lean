/-
# The fewest digits that identify a number

A binary64 number is written with the fewest decimal digits that read back to it, and
with those nearest to it among the shortest. The digits are found by exact integer
arithmetic: for 1, 2, … digits, the two neighbours of the number on that decimal grid
are tested against the interval of reals that round to the number.

Key definitions: `Decimal.Rational`, `Decimal.shortest`, `Decimal.layout`, `Decimal.print`.
-/

namespace Volley
namespace Decimal

/-- The fraction `num / den`, with a positive denominator. -/
structure Rational where
  num : Nat
  den : Nat

namespace Rational

/-- `a < b`. -/
def lt (a b : Rational) : Bool := a.num * b.den < b.num * a.den

/-- `a ≤ b`. -/
def le (a b : Rational) : Bool := a.num * b.den ≤ b.num * a.den

/-- `n · 2 ^ e`. -/
def ofBinary (n : Nat) (e : Int) : Rational :=
  if 0 ≤ e then ⟨n * Nat.pow 2 e.toNat, 1⟩ else ⟨n, Nat.pow 2 (-e).toNat⟩

/-- `n · 10 ^ e`. -/
def ofDecimal (n : Nat) (e : Int) : Rational :=
  if 0 ≤ e then ⟨n * Nat.pow 10 e.toNat, 1⟩ else ⟨n, Nat.pow 10 (-e).toNat⟩

/-- The largest integer that is not above `a · 10 ^ e`. -/
def floorScaled (a : Rational) (e : Int) : Nat :=
  if 0 ≤ e then a.num * Nat.pow 10 e.toNat / a.den
  else a.num / (a.den * Nat.pow 10 (-e).toNat)

/-- The distance of two fractions. -/
def gap (a b : Rational) : Rational :=
  ⟨max (a.num * b.den) (b.num * a.den) - min (a.num * b.den) (b.num * a.den), a.den * b.den⟩

end Rational

/-- The reals that round to a number: its neighbourhood, with or without the ends. -/
structure Interval where
  low : Rational
  high : Rational
  closed : Bool

/-- The fraction lies in the interval. -/
def Interval.contains (i : Interval) (a : Rational) : Bool :=
  if i.closed then i.low.le a && a.le i.high else i.low.lt a && a.lt i.high

/-- The interval of the number `m · 2 ^ e`; `narrow` if the number below it is only half
as far away as the one above. -/
def interval (m : Nat) (e : Int) (narrow : Bool) : Interval where
  low := if narrow then .ofBinary (4 * m - 1) (e - 2) else .ofBinary (2 * m - 1) (e - 1)
  high := .ofBinary (2 * m + 1) (e - 1)
  closed := m % 2 = 0

/-- A decimal number `digits · 10 ^ exponent`. -/
structure Digits where
  digits : Nat
  exponent : Int

/-- The value of a decimal number. -/
def Digits.value (d : Digits) : Rational := .ofDecimal d.digits d.exponent

/-- The same value without a zero as last digit, of which there is at most one. -/
def Digits.tidy (d : Digits) : Digits :=
  if d.digits % 10 = 0 then ⟨d.digits / 10, d.exponent + 1⟩ else d

/-- Of the two neighbours of `v` on the grid of multiples of `10 ^ exponent`, the one in the
interval that is nearer to `v`. -/
def onGrid (i : Interval) (v : Rational) (exponent : Int) : Option Digits :=
  let below : Digits := ⟨v.floorScaled (-exponent), exponent⟩
  let above : Digits := Digits.tidy ⟨below.digits + 1, exponent⟩
  match i.contains below.value, i.contains above.value with
  | true, true =>
    let down := v.gap below.value
    let up := v.gap above.value
    if down.lt up || (down.le up && below.digits % 2 = 0) then some below else some above
  | true, false => some below
  | false, true => some above
  | false, false => none

/-- The first hit on the grids of multiples of `10 ^ exponent`, `10 ^ (exponent - 1)`, …,
`n` grids in all; the last grid decides if none has a hit. -/
def search (i : Interval) (v : Rational) : (n : Nat) → (exponent : Int) → Digits
  | 0, exponent => ⟨v.floorScaled (-exponent), exponent⟩
  | n + 1, exponent =>
    match onGrid i v exponent with
    | some d => d
    | none => search i v n (exponent - 1)

/-- The decimal point position: the exponent `e` with `10 ^ (e - 1) ≤ v < 10 ^ e`, sought
upward from `e` in at most `n` steps. -/
def magnitude (v : Rational) : (n : Nat) → (e : Int) → Int
  | 0, e => e
  | n + 1, e => if v.lt (.ofDecimal 1 e) then e else magnitude v n (e + 1)

/-- The shortest digits of the positive number `m · 2 ^ e`. -/
def shortest (m : Nat) (e : Int) (narrow : Bool) : Digits :=
  let v := Rational.ofBinary m e
  search (interval m e narrow) v 17 (magnitude v 640 (-324) - 1)

/-- Digits, laid out: positional from `10 ^ -5` up to `10 ^ 16`, with at least one digit on
both sides of the point, and with an exponent and its sign otherwise. -/
def layout (d : Digits) : List Char :=
  let ds := Nat.toDigits 10 d.digits
  let point : Int := ds.length + d.exponent
  if 0 ≤ d.exponent ∧ point ≤ 16 then
    ds ++ List.replicate d.exponent.toNat '0' ++ ['.', '0']
  else if 0 < point ∧ point ≤ 16 then
    ds.take point.toNat ++ '.' :: ds.drop point.toNat
  else if -5 < point ∧ point ≤ 0 then
    '0' :: '.' :: List.replicate (-point).toNat '0' ++ ds
  else
    let mantissa := if ds.length = 1 then ds else ds.take 1 ++ '.' :: ds.drop 1
    let sign := if point ≤ 0 then '-' else '+'
    mantissa ++ 'e' :: sign :: Nat.toDigits 10 (point - 1).natAbs

/-- The text of a finite number. -/
def print (x : Float) : String :=
  let bits : Nat := x.toBits.toNat
  let sign := if 0x8000000000000000 ≤ bits then ['-'] else []
  let hidden : Nat := 0x10000000000000
  let fraction : Nat := bits % hidden
  let biased : Nat := bits / hidden % 0x800
  let magnitude :=
    if biased = 0 ∧ fraction = 0 then ['0', '.', '0']
    else if biased = 0 then layout (shortest fraction (-1074) false)
    else layout (shortest (hidden + fraction) ((biased : Int) - 1075) (fraction = 0 && 1 < biased))
  String.ofList (sign ++ magnitude)

end Decimal
end Volley
