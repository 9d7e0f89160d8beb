/-
# What can be wrong with a JSON text

A text is read as a stream, so the first fault in it is the one that is reported. Either
the text is not JSON up to that point, or a value does not have the shape that is read.

Key definitions: `Json.Found`, `Json.Fault`, `Json.Fault.message`.
-/
import Volley.Decimal.Shortest
import Volley.Text.Quoted

namespace Volley
namespace Json

/-- A value that stands where another kind of value was expected. -/
inductive Found where
  | null
  | boolean (value : Bool)
  | integer (value : Int)
  | real (value : Float)
  | text (value : String)
  | sequence
  | map

/-- The value, as a message names it. -/
def Found.describe : Found → String
  | null => "null"
  | boolean value => s!"boolean `{value}`"
  | integer value => s!"integer `{value}`"
  | real value => s!"floating point `{Decimal.print value}`"
  | text value => s!"string {Text.quoteString value}"
  | sequence => "sequence"
  | map => "map"

/-- Why a text could not be read. -/
inductive Fault where
  /-- The text is not JSON, or a number in it is out of range. -/
  | malformed
  /-- A member that must be there is missing. -/
  | missingField (name : String)
  /-- A member is there twice. -/
  | duplicateField (name : String)
  /-- A value is of another kind than expected. -/
  | wrongType (found : Found) (expected : String)
  /-- An integer does not fit its type. -/
  | outOfRange (value : Int) (expected : String)
  /-- An array ends after `length` elements. -/
  | wrongLength (length : Nat) (expected : String)
  /-- A name in a set of flags is empty. -/
  | emptyFlag
  /-- No flag has this name. -/
  | unknownFlag
  /-- Bits of a set of flags are not a hexadecimal number. -/
  | badHexFlag

/-- The text of a fault in the shape of a value; none if the text is not JSON. -/
def Fault.message : Fault → Option String
  | malformed => none
  | missingField name => some s!"missing field `{name}`"
  | duplicateField name => some s!"duplicate field `{name}`"
  | wrongType found expected => some s!"invalid type: {found.describe}, expected {expected}"
  | outOfRange value expected => some s!"invalid value: integer `{value}`, expected {expected}"
  | wrongLength length expected => some s!"invalid length {length}, expected {expected}"
  | emptyFlag => some "encountered empty flag"
  | unknownFlag => some "unrecognized named flag"
  | badHexFlag => some "invalid hex flag"

end Json
end Volley
