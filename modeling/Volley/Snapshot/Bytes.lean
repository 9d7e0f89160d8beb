/-
# Bytes of the wire format

Numbers travel as big-endian words of fixed width. A writer is a list of bytes; a
reader takes bytes from the front of what is left. Before a reader takes bytes it makes
sure that there are enough of them (`ByteReader.need`), so that taking never fails
(`WireError.pastEnd`).

Key definitions: `WireError`, `WireError.message`, `Bytes.word32`, `Bytes.word64`,
`ByteReader`, `ByteReader.need`.
-/
import Volley.Identity

namespace Volley

/-- The parts of an encoded snapshot that may turn out too short. -/
inductive WirePart where
  | header
  | items
  | item
  | extraMarker
  | extraBlock
deriving DecidableEq

/-- The part, as an error names it. -/
def WirePart.name : WirePart → String
  | header => "header"
  | items => "items"
  | item => "item"
  | extraMarker => "extra marker"
  | extraBlock => "extra block"

/-- Why a snapshot cannot be encoded or decoded. -/
inductive WireError where
  /-- There is no protocol with this number. -/
  | unsupportedVersion (version : UInt32)
  /-- The number of items does not fit its field. -/
  | tooManyItems
  /-- A part needs more bytes than are left. -/
  | truncated (part : WirePart) (needed left : Nat)
  /-- The marker before an extension block is neither 0 nor 1. -/
  | badMarker (marker : UInt8) (id : EntityId)
  /-- Bytes are left after the last item. -/
  | trailing (count : Nat)
  /-- A word was read beyond the end of the bytes. -/
  | pastEnd
deriving DecidableEq

/-- The text of an error. -/
def WireError.message : WireError → String
  | unsupportedVersion version => s!"unsupported snapshot protocol {version.toNat}"
  | tooManyItems => "out of range integral type conversion attempted"
  | truncated part needed left =>
    s!"truncated snapshot: {part.name} needs {needed} bytes, {left} left"
  | badMarker marker id => s!"bad extra marker {marker.toNat} for item EntityId({id.val.toNat})"
  | trailing count => s!"{count} trailing bytes after snapshot"
  | pastEnd => "read past the end of the snapshot"

namespace Bytes

/-- The four bytes of a word. -/
def word32 (n : UInt32) : List UInt8 :=
  [(n >>> 24).toUInt8, (n >>> 16).toUInt8, (n >>> 8).toUInt8, n.toUInt8]

/-- The eight bytes of a long word. -/
def word64 (n : UInt64) : List UInt8 := word32 (n >>> 32).toUInt32 ++ word32 n.toUInt32

/-- The four bytes of a signed word, in two's complement. -/
def int32 (n : Int32) : List UInt8 := word32 n.toUInt32

/-- The word with the given bytes. -/
def toWord32 (a b c d : UInt8) : UInt32 :=
  a.toUInt32 <<< 24 ||| b.toUInt32 <<< 16 ||| c.toUInt32 <<< 8 ||| d.toUInt32

/-- At least `n` bytes are left. -/
def hasAtLeast : Nat → List UInt8 → Bool
  | 0, _ => true
  | _ + 1, [] => false
  | n + 1, _ :: rest => hasAtLeast n rest

theorem hasAtLeast_eq : ∀ (n : Nat) (bytes : List UInt8),
    hasAtLeast n bytes = decide (n ≤ bytes.length)
  | 0, _ => by simp [hasAtLeast]
  | _ + 1, [] => by simp [hasAtLeast]
  | n + 1, _ :: rest => by simp [hasAtLeast, hasAtLeast_eq n rest]

@[simp] theorem length_word32 (n : UInt32) : (word32 n).length = 4 := rfl
@[simp] theorem length_word64 (n : UInt64) : (word64 n).length = 8 := rfl
@[simp] theorem length_int32 (n : Int32) : (int32 n).length = 4 := rfl

end Bytes

/-- A computation that takes bytes from the front of those that are left. -/
abbrev ByteReader (α : Type) := StateT (List UInt8) (Except WireError) α

namespace ByteReader

/-- Fails unless `n` bytes are left for `part`. -/
def need (part : WirePart) (n : Nat) : ByteReader Unit := do
  let left ← get
  unless Bytes.hasAtLeast n left do
    throw (.truncated part n left.length)

/-- Takes a byte. -/
def byte : ByteReader UInt8 := do
  match ← get with
  | a :: rest => set rest; return a
  | _ => throw .pastEnd

/-- Takes a word. -/
def word32 : ByteReader UInt32 := do
  match ← get with
  | a :: b :: c :: d :: rest => set rest; return Bytes.toWord32 a b c d
  | _ => throw .pastEnd

/-- Takes a long word. -/
def word64 : ByteReader UInt64 := do
  let high ← word32
  let low ← word32
  return high.toUInt64 <<< 32 ||| low.toUInt64

/-- Takes a signed word. -/
def int32 : ByteReader Int32 := do
  return (← word32).toInt32

end ByteReader

end Volley
