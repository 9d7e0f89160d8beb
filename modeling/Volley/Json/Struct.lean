/-
# Reading JSON structures

A structure is written as an object, whose members may come in any order and which may
hold members of other names, or as an array of its fields in their order. Fields are
gathered in a draft, a value in which each may still be missing; at the end the draft is
turned into the structure.

Key definitions: `Json.Field`, `Json.Reader.struct`, `Json.Reader.numberKeyed`.
-/
import Volley.Json.Reader

namespace Volley
namespace Json

/-- One field of a structure with drafts `δ`. -/
structure Field (δ : Type) where
  name : String
  /-- An array must hold the field. -/
  required : Bool
  /-- The draft has the field. -/
  isSet : δ → Bool
  /-- Reads the field into the draft. -/
  read : δ → Reader δ

/-- A field that must be there. -/
def Field.of {δ β : Type} (name : String) (get : δ → Option β) (set : δ → β → δ)
    (read : Reader β) : Field δ where
  name
  required := true
  isSet d := (get d).isSome
  read d := do return set d (← read)

/-- A field that arrays may leave out. -/
def Field.optional {δ β : Type} (name : String) (get : δ → Option β) (set : δ → β → δ)
    (read : Reader β) : Field δ :=
  { Field.of name get set read with required := false }

namespace Reader

/-- Whether another member follows in an object; if so, takes everything before its name,
the opening mark included. -/
def moreMembers (first : Bool) : Reader Bool := do
  let c ← peek
  if c = Char.ofNat 0x7d then return false
  else if first then
    char '"'
    return true
  else
    char ','
    char '"'
    return true

/-- Reads the members of an object into a draft, at most `fuel` of them. Members of other
names are passed over. -/
def members {δ : Type} (fields : List (Field δ)) :
    (fuel : Nat) → (first : Bool) → δ → Reader δ
  | 0, _, _ => throw .malformed
  | fuel + 1, first, draft => do
    if ← moreMembers first then
      let name ← textBody
      match fields.find? (·.name = name) with
      | some field =>
        if field.isSet draft then throw (.duplicateField name)
        char ':'
        members fields fuel false (← field.read draft)
      | none =>
        char ':'
        skipValue
        members fields fuel false draft
    else return draft

/-- Reads the elements of an array into a draft, one for each field from number `i` on. -/
def positional {δ : Type} (expected : String) : (i : Nat) → List (Field δ) → δ → Reader δ
  | _, [], draft => return draft
  | i, field :: rest, draft => do
    if ← moreElements (i = 0) then positional expected (i + 1) rest (← field.read draft)
    else if field.required then throw (.wrongLength i expected)
    else positional expected (i + 1) rest draft

/-- Reads a structure with the given fields. -/
def struct {α δ : Type} (name : String) (fields : List (Field δ)) (start : δ)
    (finish : δ → Except Fault α) : Reader α := do
  let c ← peek
  if c = Char.ofNat 0x7b then
    drop
    -- Every member takes a character, so the text is long enough as fuel.
    let draft ← members fields ((← get).length + 1) true start
    let value ← finish draft
    char (Char.ofNat 0x7d)
    return value
  else if c = '[' then
    drop
    let draft ← positional s!"struct {name} with {fields.length} elements" 0 fields start
    let value ← finish draft
    char ']'
    return value
  else wrongType s!"struct {name}"

/-- The value of a field that must be there. -/
def need {α : Type} (name : String) : Option α → Except Fault α
  | some a => .ok a
  | none => .error (.missingField name)

/-- Reads null, or a value. -/
def nullable {α : Type} (read : Reader α) : Reader (Option α) := do
  if (← peek) = 'n' then
    word ['n', 'u', 'l', 'l']
    return none
  else return some (← read)

/-- Reads a number that is the name of a member, after its opening mark. -/
def numberName : Reader UInt32 := do
  match ← get with
  | c :: _ =>
    if !startsNumber c then throw .malformed
    let n ← uint32
    match ← get with
    | '"' :: rest => set rest; return n
    | _ => throw .malformed
  | [] => throw .malformed

/-- Reads the members of an object whose names are numbers, at most `fuel` of them. -/
def numberedMembers {α : Type} (read : Reader α) : (fuel : Nat) → (first : Bool) →
    Reader (List (UInt32 × α))
  | 0, _ => throw .malformed
  | fuel + 1, first => do
    if ← moreMembers first then
      let key ← numberName
      char ':'
      let a ← read
      return (key, a) :: (← numberedMembers read fuel false)
    else return []

/-- Reads an object whose member names are numbers. -/
def numberKeyed {α : Type} (read : Reader α) : Reader (List (UInt32 × α)) := do
  if (← peek) = Char.ofNat 0x7b then
    drop
    let entries ← numberedMembers read ((← get).length + 1) true
    char (Char.ofNat 0x7d)
    return entries
  else wrongType "a map"

end Reader
end Json
end Volley
