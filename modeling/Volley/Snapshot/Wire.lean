/-
# The wire format of snapshots

An encoded snapshot is a header of twelve bytes (protocol, tick, number of items) and
the items, each with 52 bytes of base fields. In the current protocol a marker byte
follows, and after the marker 1 an extension block of 20 bytes; the legacy protocol ends
an item at its base fields. Nothing follows the last item.

Reading is strict about the layout and lenient about the flags: bits without a name are
dropped.

Key definitions: `Snapshot.encode`, `Snapshot.decode`.
-/
import Volley.Snapshot
import Volley.Snapshot.Bytes

namespace Volley

namespace Wire

/-- The protocol in which a record may carry an extension block. -/
def currentVersion : UInt32 := 2

/-- The protocol without extension blocks. -/
def legacyVersion : UInt32 := 1

/-- The protocols that can be written and read. -/
def supported (version : UInt32) : Bool := version = currentVersion || version = legacyVersion

/-- Bytes of the header. -/
def headerLength : Nat := 12

/-- Bytes of the base fields of an item. -/
def itemLength : Nat := 52

/-- Bytes of an extension block. -/
def extraLength : Nat := 20

/-- The base fields of an item. -/
def writeBase (item : SnapshotItem) : List UInt8 :=
  let r := item.record
  Bytes.word64 item.id.val ++ Bytes.int32 r.weapon ++ Bytes.int32 r.startTick
    ++ Bytes.int32 r.owner ++ Bytes.int32 r.x ++ Bytes.int32 r.y
    ++ Bytes.int32 r.dirX ++ Bytes.int32 r.dirY ++ Bytes.int32 r.lifespan
    ++ Bytes.word32 r.flags.bits ++ Bytes.int32 r.force ++ Bytes.int32 r.impactSound

/-- An extension block without its marker. -/
def writeBlock (e : RecordExtra) : List UInt8 :=
  Bytes.int32 e.layer ++ Bytes.int32 e.number ++ Bytes.word32 e.tuneZone
    ++ Bytes.word32 e.bounces ++ Bytes.int32 e.launchOffset

/-- An optional extension block behind its marker. -/
def writeExtra : Option RecordExtra → List UInt8
  | some e => 1 :: writeBlock e
  | none => [0]

/-- An item in a given protocol. -/
def writeItem (version : UInt32) (item : SnapshotItem) : List UInt8 :=
  if version = legacyVersion then writeBase item
  else writeBase item ++ writeExtra item.record.extra

/-- The header of a snapshot with `count` items. -/
def writeHeader (version : UInt32) (tick : Tick) (count : UInt32) : List UInt8 :=
  Bytes.word32 version ++ Bytes.int32 tick ++ Bytes.word32 count

/-- Takes the base fields of an item. -/
def readBase : ByteReader SnapshotItem := do
  let id ← ByteReader.word64
  let weapon ← ByteReader.int32
  let startTick ← ByteReader.int32
  let owner ← ByteReader.int32
  let x ← ByteReader.int32
  let y ← ByteReader.int32
  let dirX ← ByteReader.int32
  let dirY ← ByteReader.int32
  let lifespan ← ByteReader.int32
  let flags ← ByteReader.word32
  let force ← ByteReader.int32
  let impactSound ← ByteReader.int32
  let flags := RecordFlags.truncate ⟨flags⟩
  let extra := none
  let record : Record :=
    { weapon, startTick, owner, x, y, dirX, dirY, lifespan, flags, force, impactSound, extra }
  return ⟨⟨id⟩, record⟩

/-- Takes an extension block without its marker. -/
def readBlock : ByteReader RecordExtra := do
  let layer ← ByteReader.int32
  let number ← ByteReader.int32
  let tuneZone ← ByteReader.word32
  let bounces ← ByteReader.word32
  let launchOffset ← ByteReader.int32
  return { layer, number, tuneZone, bounces, launchOffset }

/-- Takes an optional extension block and its marker. -/
def readExtra (id : EntityId) : ByteReader (Option RecordExtra) := do
  ByteReader.need .extraMarker 1
  let marker ← ByteReader.byte
  if marker = 0 then return none
  else if marker = 1 then
    ByteReader.need .extraBlock extraLength
    return some (← readBlock)
  else throw (.badMarker marker id)

/-- Takes an item in a given protocol. -/
def readItem (version : UInt32) : ByteReader SnapshotItem := do
  ByteReader.need .item itemLength
  let item ← readBase
  if version = legacyVersion then return item
  else
    let extra ← readExtra item.id
    return { item with record := { item.record with extra } }

/-- Takes `n` items in a given protocol. -/
def readItems (version : UInt32) : Nat → ByteReader (List SnapshotItem)
  | 0 => return []
  | n + 1 => do
    let item ← readItem version
    let rest ← readItems version n
    return item :: rest

/-- Takes a snapshot. A number of items for which there cannot be enough bytes is
refused before the first item. -/
def readSnapshot : ByteReader Snapshot := do
  ByteReader.need .header headerLength
  let version ← ByteReader.word32
  unless supported version do
    throw (.unsupportedVersion version)
  let tick ← ByteReader.int32
  let count ← ByteReader.word32
  ByteReader.need .items (count.toNat * itemLength)
  let items ← readItems version count.toNat
  return { tick, items }

end Wire

namespace Snapshot

/-- The snapshot in a given protocol. The legacy protocol drops every extension block. -/
def encode (s : Snapshot) (version : UInt32) : Except WireError (List UInt8) :=
  if !Wire.supported version then .error (.unsupportedVersion version)
  else if UInt32.size ≤ s.items.length then .error .tooManyItems
  else .ok (Wire.writeHeader version s.tick (UInt32.ofNat s.items.length)
    ++ (s.items.map (Wire.writeItem version)).flatten)

/-- The snapshot that the given bytes encode, in either protocol. -/
def decode (bytes : List UInt8) : Except WireError Snapshot := do
  let (s, left) ← Wire.readSnapshot.run bytes
  match left with
  | [] => return s
  | _ => throw (.trailing left.length)

end Snapshot

end Volley
