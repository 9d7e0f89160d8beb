/-
# JSON numbers

A number without fraction and exponent is an integer if it fits 64 bits (unsigned, or
signed after a minus sign). Every other number, and `-0`, is a binary64 value. Digits
are gathered in an unsigned 64-bit word; those that no longer fit only count as powers
of ten before the point and for nothing after it. The word is then scaled by a power of
ten, with one rounding for the word, one for the power and one for the scaling.

Key definitions: `Json.Number`, `Json.scanNumber`.
-/
import Volley.Json.Fault

namespace Volley
namespace Json

/-- The value of a number. -/
inductive Number where
  | integer (value : Int)
  | real (value : Float)

/-- How a message names the number. -/
def Number.found : Number → Found
  | integer value => .integer value
  | real value => .real value

/-- The value of a decimal digit. -/
def digitValue (c : Char) : Nat := c.toNat - '0'.toNat

/-- Appends digits to `word` as long as the number fits 64 bits. Gives the number and how
many digits were appended. -/
def appendDigits (word : Nat) : List Char → Nat × Nat
  | [] => (word, 0)
  | c :: rest =>
    let next := word * 10 + digitValue c
    if next < UInt64.size then
      let (word, count) := appendDigits next rest
      (word, count + 1)
    else (word, 0)

/-- The power of ten with a given exponent. -/
def powerOfTen (e : Nat) : Float := Float.ofScientific 1 false e

/-- The largest exponent of a finite power of ten. -/
def maxPower : Nat := 308

/-- Divides by a power of ten with a positive exponent, in at most `n` extra steps of the
largest power. -/
def divideByPower : (n : Nat) → Float → (e : Nat) → Float
  | 0, x, _ => x
  | n + 1, x, e =>
    if e ≤ maxPower then x / powerOfTen e
    else if x == 0.0 then x
    else divideByPower n (x / powerOfTen maxPower) (e - maxPower)

/-- The number `word · 10 ^ exponent`, unless it is beyond the range. -/
def scaleWord (word : Nat) (exponent : Int) : Except Fault Float :=
  let x := (UInt64.ofNat word).toFloat
  if 0 ≤ exponent then
    if exponent ≤ maxPower then
      let scaled := x * powerOfTen exponent.toNat
      if scaled.isInf then .error .malformed else .ok scaled
    else if x == 0.0 then .ok x
    else .error .malformed
  else .ok (divideByPower 8 x (-exponent).toNat)

/-- The number with a sign. -/
def signed (negative : Bool) (x : Float) : Float := if negative then -x else x

/-- The largest exponent that is taken into account. -/
def maxExponent : Nat := 2147483647

/-- The number in digits, at most one more than the largest exponent. -/
def exponentValue (ds : List Char) : Nat :=
  ds.foldl (fun e c => min (e * 10 + digitValue c) (maxExponent + 1)) 0

/-- Reads the exponent after its letter, of the number `word · 10 ^ exponent`. -/
def scanExponent (negative : Bool) (word : Nat) (exponent : Int) (cs : List Char) :
    Except Fault (Number × List Char) := do
  let (down, cs) : Bool × List Char :=
    match cs with
    | '+' :: rest => (false, rest)
    | '-' :: rest => (true, rest)
    | _ => (false, cs)
  let (ds, rest) := cs.span Char.isDigit
  if ds.isEmpty then throw .malformed
  let e := exponentValue ds
  if maxExponent < e then
    if word ≠ 0 ∧ !down then throw .malformed
    return (.real (signed negative 0.0), rest)
  let x ← scaleWord word (if down then exponent - e else exponent + e)
  return (.real (signed negative x), rest)

/-- Reads what may follow the digits before the point: a fraction, an exponent, both or
neither. -/
def scanTail (negative : Bool) (word dropped : Nat) (cs : List Char) :
    Except Fault (Number × List Char) := do
  let isExponentMark (c : Char) : Bool := c = 'e' || c = 'E'
  match cs with
  | '.' :: rest =>
    let (ds, rest) := rest.span Char.isDigit
    if ds.isEmpty then throw .malformed
    let (word, count) := appendDigits word ds
    let exponent : Int := (dropped : Int) - count
    match rest with
    | c :: rest' =>
      if isExponentMark c then scanExponent negative word exponent rest'
      else return (.real (signed negative (← scaleWord word exponent)), rest)
    | [] => return (.real (signed negative (← scaleWord word exponent)), rest)
  | c :: rest' =>
    if isExponentMark c then scanExponent negative word dropped rest'
    else scanWhole cs
  | [] => scanWhole cs
where
  /-- The number ends with the digits before the point. -/
  scanWhole (cs : List Char) : Except Fault (Number × List Char) := do
    if dropped ≠ 0 then return (.real (signed negative (← scaleWord word dropped)), cs)
    else if !negative then return (.integer word, cs)
    else if 0 < word ∧ word ≤ 0x8000000000000000 then return (.integer (-word), cs)
    else return (.real (-(UInt64.ofNat word).toFloat), cs)

/-- Reads a number after its minus sign, if it has one. -/
def scanUnsigned (negative : Bool) (cs : List Char) : Except Fault (Number × List Char) :=
  let (ds, rest) := cs.span Char.isDigit
  match ds with
  | [] => .error .malformed
  | '0' :: _ :: _ => .error .malformed
  | _ =>
    let (word, count) := appendDigits 0 ds
    scanTail negative word (ds.length - count) rest

/-- Reads a number. -/
def scanNumber : List Char → Except Fault (Number × List Char)
  | '-' :: rest => scanUnsigned true rest
  | cs => scanUnsigned false cs

end Json
end Volley
