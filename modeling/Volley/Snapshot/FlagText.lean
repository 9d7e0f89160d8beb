/-
# Behaviours as text

A set of behaviours is written as the names in it, with bars between them; bits without
a name follow as one hexadecimal number. The empty set is the empty text. Reading allows
space around the names and any number of hexadecimal parts, in any order.

Key definitions: `RecordFlags.toText`, `RecordFlags.ofText`.
-/
import Volley.Record
import Volley.Json.Reader
import Volley.Text.Blank
import Volley.Text.Hex

namespace Volley
namespace RecordFlags

/-- The names, in the order in which they are written. -/
def names : List (List Char × RecordFlags) :=
  [("EXPLOSIVE".toList, explosive), ("FREEZE".toList, freeze)]

/-- The bits that have no name. -/
def unnamed (f : RecordFlags) : UInt32 := f.bits &&& ~~~known.bits

/-- The parts of the text of a set. -/
def textParts (f : RecordFlags) : List (List Char) :=
  (names.filter fun entry => f.contains entry.2).map (·.1)
    ++ if f.unnamed = 0 then [] else ['0' :: 'x' :: Nat.toDigits 16 f.unnamed.toNat]

/-- Parts with bars between them. -/
def joinBars : List (List Char) → List Char
  | [] => []
  | [part] => part
  | part :: rest => part ++ ' ' :: '|' :: ' ' :: joinBars rest

/-- The text of a set. -/
def toText (f : RecordFlags) : List Char := joinBars f.textParts

/-- The parts between bars. -/
def splitBars : List Char → List (List Char)
  | [] => [[]]
  | c :: rest =>
    if c = '|' then [] :: splitBars rest
    else
      match splitBars rest with
      | part :: parts => (c :: part) :: parts
      | [] => [[c]]

/-- The number that hexadecimal digits write, if it fits 32 bits. -/
def hexBits? (ds : List Char) : Option UInt32 := do
  if ds.isEmpty then none
  let value ← ds.foldlM (fun n c => do return n * 16 + (← Text.hexValue? c)) 0
  if value < UInt32.size then some (UInt32.ofNat value) else none

/-- The set that one part names. -/
def ofPart (part : List Char) : Except Json.Fault RecordFlags :=
  match Text.trim part with
  | [] => .error .emptyFlag
  | '0' :: 'x' :: ds =>
    -- A plus sign may stand before the digits.
    let ds := match ds with
      | '+' :: rest => rest
      | _ => ds
    match hexBits? ds with
    | some bits => .ok ⟨bits⟩
    | none => .error .badHexFlag
  | name =>
    match names.lookup name with
    | some flags => .ok flags
    | none => .error .unknownFlag

/-- The set that a text describes. -/
def ofText (s : List Char) : Except Json.Fault RecordFlags :=
  if (Text.trim s).isEmpty then .ok empty
  else (splitBars s).foldlM (fun flags part => return flags.union (← ofPart part)) empty

end RecordFlags
end Volley
