/-
# Reading JSON values

A reader takes characters from the front of a text and fails at the first fault. The
readers here cover numbers, texts and arrays, and pass over values that nobody wants.

Key definitions: `Json.Reader`, `Json.Reader.integer`, `Json.Reader.scalar`,
`Json.Reader.text`, `Json.Reader.array`, `Json.Reader.skipValue`, `Json.Reader.runAll`.
-/
import Volley.Json.Number
import Volley.Scalar
import Volley.Text.Hex

namespace Volley
namespace Json

/-- A computation that takes characters from the front of a text. -/
abbrev Reader (α : Type) := StateT (List Char) (Except Fault) α

namespace Reader

/-- Space between tokens. -/
def isSpace (c : Char) : Bool := c = ' ' || c = '\n' || c = '\t' || c = '\r'

/-- Passes over space. -/
def skipSpace : Reader Unit := modify (·.dropWhile isSpace)

/-- The next character after space; the text must not end here. -/
def peek : Reader Char := do
  skipSpace
  match ← get with
  | c :: _ => return c
  | [] => throw .malformed

/-- Takes the next character. -/
def drop : Reader Unit := modify (·.drop 1)

/-- Takes a given character, after space. -/
def char (c : Char) : Reader Unit := do
  if (← peek) = c then drop else throw .malformed

/-- Takes the given characters. -/
def word : List Char → Reader Unit
  | [] => return ()
  | c :: rest => do
    match ← get with
    | c' :: left => if c' = c then set left; word rest else throw .malformed
    | [] => throw .malformed

/-! ### Texts -/

/-- The value of four hexadecimal digits. -/
def hex4 (a b c d : Char) : Except Fault Nat :=
  match Text.hexValue? a, Text.hexValue? b, Text.hexValue? c, Text.hexValue? d with
  | some a, some b, some c, some d => .ok (((a * 16 + b) * 16 + c) * 16 + d)
  | _, _, _, _ => .error .malformed

/-- The character that a backslash and a letter stand for. -/
def escaped? (c : Char) : Option Char :=
  if c = '"' || c = '\\' || c = '/' then some c
  else if c = 'b' then some '\x08'
  else if c = 'f' then some '\x0c'
  else if c = 'n' then some '\n'
  else if c = 'r' then some '\r'
  else if c = 't' then some '\t'
  else none

/-- The number is a leading half of a pair. -/
def isHighSurrogate (n : Nat) : Bool := 0xd800 ≤ n && n ≤ 0xdbff

/-- The number is a trailing half of a pair. -/
def isLowSurrogate (n : Nat) : Bool := 0xdc00 ≤ n && n ≤ 0xdfff

/-- The character of a pair of halves. -/
def pairChar (high low : Nat) : Char :=
  Char.ofNat (0x10000 + (high - 0xd800) * 0x400 + (low - 0xdc00))

/-- The rest of a text up to its closing mark, and what follows it. A half of a pair must
not stand alone. -/
def scanText : List Char → Except Fault (List Char × List Char)
  | [] => .error .malformed
  | '"' :: rest => .ok ([], rest)
  | '\\' :: 'u' :: a :: b :: c :: d :: '\\' :: 'u' :: e :: f :: g :: h :: rest => do
    let n ← hex4 a b c d
    if isHighSurrogate n then
      let low ← hex4 e f g h
      if isLowSurrogate low then
        let (cs, rest) ← scanText rest
        return (pairChar n low :: cs, rest)
      else throw .malformed
    else if isLowSurrogate n then throw .malformed
    else
      let (cs, rest) ← scanText ('\\' :: 'u' :: e :: f :: g :: h :: rest)
      return (Char.ofNat n :: cs, rest)
  | '\\' :: 'u' :: a :: b :: c :: d :: rest => do
    let n ← hex4 a b c d
    if isHighSurrogate n || isLowSurrogate n then throw .malformed
    else
      let (cs, rest) ← scanText rest
      return (Char.ofNat n :: cs, rest)
  | '\\' :: c :: rest =>
    match escaped? c with
    | some c => do
      let (cs, rest) ← scanText rest
      return (c :: cs, rest)
    | none => .error .malformed
  | c :: rest =>
    if c.toNat < 0x20 || c = '\\' then .error .malformed
    else do
      let (cs, rest) ← scanText rest
      return (c :: cs, rest)

/-- The rest of a text that nobody wants, up to its closing mark. Halves of pairs may stand
alone in it. -/
def passText : List Char → Except Fault (List Char)
  | [] => .error .malformed
  | '"' :: rest => .ok rest
  | '\\' :: 'u' :: a :: b :: c :: d :: rest => do
    let _ ← hex4 a b c d
    passText rest
  | '\\' :: c :: rest => if (escaped? c).isSome then passText rest else .error .malformed
  | c :: rest => if c.toNat < 0x20 || c = '\\' then .error .malformed else passText rest

/-- Takes a text after its opening mark. -/
def textBody : Reader String := do
  let (cs, rest) ← scanText (← get)
  set rest
  return String.ofList cs

/-! ### Values of the wrong kind -/

/-- The character can start a number. -/
def startsNumber (c : Char) : Bool := c = '-' || c.isDigit

/-- Takes a number. -/
def number : Reader Number := do
  let (n, rest) ← scanNumber (← get)
  set rest
  return n

/-- Fails because the next value is not what was expected. -/
def wrongType {α : Type} (expected : String) : Reader α := do
  let c ← peek
  let found : Found ←
    if c = 'n' then do word ['n', 'u', 'l', 'l']; pure .null
    else if c = 't' then do word ['t', 'r', 'u', 'e']; pure (.boolean true)
    else if c = 'f' then do word ['f', 'a', 'l', 's', 'e']; pure (.boolean false)
    else if startsNumber c then do pure (← number).found
    else if c = '"' then do drop; pure (.text (← textBody))
    else if c = '[' then pure .sequence
    else if c = Char.ofNat 0x7b then pure .map
    else throw .malformed
  throw (.wrongType found expected)

/-! ### Numbers and texts -/

/-- The integer that a number is, if it lies between two bounds. -/
def checkInteger (low high : Int) (expected : String) : Number → Reader Int
  | .integer value =>
    if low ≤ value ∧ value ≤ high then return value else throw (.outOfRange value expected)
  | .real value => throw (.wrongType (.real value) expected)

/-- Reads an integer between two bounds. -/
def integer (low high : Int) (expected : String) : Reader Int := do
  if startsNumber (← peek) then checkInteger low high expected (← number)
  else wrongType expected

/-- Reads a signed 32-bit integer. -/
def int32 : Reader Int32 := do
  return Int32.ofInt (← integer (-2147483648) 2147483647 "i32")

/-- Reads an unsigned 32-bit integer. -/
def uint32 : Reader UInt32 := do
  return UInt32.ofNat (← integer 0 4294967295 "u32").toNat

/-- Reads an unsigned 64-bit integer. -/
def uint64 : Reader UInt64 := do
  return UInt64.ofNat (← integer 0 18446744073709551615 "u64").toNat

/-- Reads a size. -/
def size : Reader Nat := do
  return (← integer 0 18446744073709551615 "usize").toNat

/-- The binary32 number nearest to a number. -/
def toScalar : Number → Scalar
  | .integer value =>
    if value < 0 then -(UInt64.ofNat value.natAbs).toFloat32
    else (UInt64.ofNat value.natAbs).toFloat32
  | .real value => Scalar.ofBinary64 value

/-- Reads a binary32 number. -/
def scalar : Reader Scalar := do
  if startsNumber (← peek) then return toScalar (← number)
  else wrongType "f32"

/-- Reads a text. -/
def text (expected : String) : Reader String := do
  if (← peek) = '"' then drop; textBody
  else wrongType expected

/-! ### Arrays -/

/-- Whether another element follows in an array; if so, takes the comma before it. -/
def moreElements (first : Bool) : Reader Bool := do
  let c ← peek
  if c = ']' then return false
  else if first then return true
  else if c = ',' then
    drop
    if (← peek) = ']' then throw .malformed else return true
  else throw .malformed

/-- Reads the elements of an array, at most `fuel` of them. -/
def elements {α : Type} (read : Reader α) : (fuel : Nat) → (first : Bool) → Reader (List α)
  | 0, _ => throw .malformed
  | fuel + 1, first => do
    if ← moreElements first then
      let a ← read
      return a :: (← elements read fuel false)
    else return []

/-- Reads an array. -/
def array {α : Type} (read : Reader α) : Reader (List α) := do
  if (← peek) = '[' then
    drop
    -- Every element takes a character, so the text is long enough as fuel.
    let list ← elements read ((← get).length + 1) true
    char ']'
    return list
  else wrongType "a sequence"

/-! ### Passing over a value -/

/-- An open bracket. -/
inductive Bracket where
  | square
  | curly
deriving DecidableEq

/-- What comes next while a value is passed over. -/
inductive Expect where
  /-- A value. -/
  | value
  /-- A value or the end of the array that was just opened. -/
  | firstElement
  /-- A member, or the end of the object that was just opened. -/
  | firstMember
  /-- A member. -/
  | member
  /-- A comma or a closing bracket. -/
  | afterValue

/-- The number, passed over without looking at its value. -/
def passNumber (cs : List Char) : Except Fault (List Char) := do
  let cs := match cs with
    | '-' :: rest => rest
    | _ => cs
  let (ds, rest) := cs.span Char.isDigit
  match ds with
  | [] => throw .malformed
  | '0' :: _ :: _ => throw .malformed
  | _ => passExponent (← passFraction rest)
where
  /-- Passes over a fraction, if there is one. -/
  passFraction (cs : List Char) : Except Fault (List Char) :=
    match cs with
    | '.' :: rest =>
      let (ds, rest) := rest.span Char.isDigit
      if ds.isEmpty then .error .malformed else .ok rest
    | _ => .ok cs
  /-- Passes over an exponent, if there is one. -/
  passExponent (cs : List Char) : Except Fault (List Char) :=
    match cs with
    | c :: rest =>
      if c = 'e' || c = 'E' then
        let rest := match rest with
          | '+' :: rest => rest
          | '-' :: rest => rest
          | _ => rest
        let (ds, rest) := rest.span Char.isDigit
        if ds.isEmpty then .error .malformed else .ok rest
      else .ok cs
    | [] => .ok cs

/-- Takes a value that is not a bracket. -/
def passScalar (c : Char) : Reader Unit := do
  if c = 'n' then word ['n', 'u', 'l', 'l']
  else if c = 't' then word ['t', 'r', 'u', 'e']
  else if c = 'f' then word ['f', 'a', 'l', 's', 'e']
  else if startsNumber c then set (← passNumber (← get))
  else if c = '"' then
    drop
    set (← passText (← get))
  else throw .malformed

/-- Passes over the rest of a value inside the given open brackets. -/
def skipRest : (fuel : Nat) → Expect → List Bracket → Reader Unit
  | 0, _, _ => throw .malformed
  | _ + 1, .afterValue, [] => return ()
  | fuel + 1, .afterValue, bracket :: outer => do
    let c ← peek
    drop
    match bracket with
    | .square =>
      if c = ',' then skipRest fuel .value (bracket :: outer)
      else if c = ']' then skipRest fuel .afterValue outer
      else throw .malformed
    | .curly =>
      if c = ',' then skipRest fuel .member (bracket :: outer)
      else if c = Char.ofNat 0x7d then skipRest fuel .afterValue outer
      else throw .malformed
  | fuel + 1, .firstElement, stack => do
    if (← peek) = ']' then drop; skipRest fuel .afterValue (stack.drop 1)
    else skipRest fuel .value stack
  | fuel + 1, .firstMember, stack => do
    if (← peek) = Char.ofNat 0x7d then drop; skipRest fuel .afterValue (stack.drop 1)
    else skipRest fuel .member stack
  | fuel + 1, .member, stack => do
    char '"'
    set (← passText (← get))
    char ':'
    skipRest fuel .value stack
  | fuel + 1, .value, stack => do
    let c ← peek
    if c = '[' then drop; skipRest fuel .firstElement (.square :: stack)
    else if c = Char.ofNat 0x7b then drop; skipRest fuel .firstMember (.curly :: stack)
    else
      passScalar c
      skipRest fuel .afterValue stack

/-- Passes over a value of any kind and depth. -/
def skipValue : Reader Unit := do
  -- Of two steps in a row, one takes a character.
  skipRest (2 * (← get).length + 2) .value []

/-! ### Whole texts -/

/-- The value of a text that holds nothing else. -/
def runAll {α : Type} (read : Reader α) (s : String) : Except Fault α := do
  let (a, rest) ← read.run s.toList
  if (rest.dropWhile isSpace).isEmpty then return a else throw .malformed

end Reader
end Json
end Volley
