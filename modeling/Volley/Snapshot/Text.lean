/-
# Snapshots as JSON text

A snapshot is an object of its fields, in the order in which they are declared; the
behaviours of a record are a text, and a missing extension block is null. Unlike the
wire format the text keeps behaviours without a name.

Key definitions: `Snapshot.toJson`, `Snapshot.ofJson`.
-/
import Volley.Snapshot
import Volley.Snapshot.FlagText
import Volley.Json.Struct
import Volley.Json.Writer

namespace Volley

namespace RecordExtra

/-- An extension block with fields missing. -/
structure Draft where
  layer : Option Int32 := none
  number : Option Int32 := none
  tuneZone : Option UInt32 := none
  bounces : Option UInt32 := none
  launchOffset : Option Int32 := none

open Json in
/-- The fields of an extension block. -/
def fields : List (Json.Field Draft) :=
  [.of "layer" (·.layer) (fun d v => { d with layer := some v }) Reader.int32,
   .of "number" (·.number) (fun d v => { d with number := some v }) Reader.int32,
   .of "tune_zone" (·.tuneZone) (fun d v => { d with tuneZone := some v }) Reader.uint32,
   .of "bounces" (·.bounces) (fun d v => { d with bounces := some v }) Reader.uint32,
   .of "launch_offset" (·.launchOffset) (fun d v => { d with launchOffset := some v })
     Reader.int32]

open Json Reader in
/-- The block of a draft. -/
def finish (d : Draft) : Except Fault RecordExtra := do
  let layer ← need "layer" d.layer
  let number ← need "number" d.number
  let tuneZone ← need "tune_zone" d.tuneZone
  let bounces ← need "bounces" d.bounces
  let launchOffset ← need "launch_offset" d.launchOffset
  return { layer, number, tuneZone, bounces, launchOffset }

/-- Reads an extension block. -/
def read : Json.Reader RecordExtra := Json.Reader.struct "RecordExtra" fields {} finish

/-- Writes an extension block. -/
def write (e : RecordExtra) : List Char :=
  Json.writeObject
    [("layer", Json.writeInt e.layer.toInt),
     ("number", Json.writeInt e.number.toInt),
     ("tune_zone", Json.writeInt e.tuneZone.toNat),
     ("bounces", Json.writeInt e.bounces.toNat),
     ("launch_offset", Json.writeInt e.launchOffset.toInt)]

end RecordExtra

/-- Reads a set of behaviours. -/
def RecordFlags.read : Json.Reader RecordFlags := do
  let s ← Json.Reader.text "a string value of `|` separated flags"
  RecordFlags.ofText s.toList

namespace Record

/-- A record with fields missing. -/
structure Draft where
  weapon : Option Int32 := none
  startTick : Option Int32 := none
  owner : Option Int32 := none
  x : Option Int32 := none
  y : Option Int32 := none
  dirX : Option Int32 := none
  dirY : Option Int32 := none
  lifespan : Option Int32 := none
  flags : Option RecordFlags := none
  force : Option Int32 := none
  impactSound : Option Int32 := none
  extra : Option (Option RecordExtra) := none

open Json in
/-- The fields of a record. -/
def fields : List (Json.Field Draft) :=
  [.of "weapon" (·.weapon) (fun d v => { d with weapon := some v }) Reader.int32,
   .of "start_tick" (·.startTick) (fun d v => { d with startTick := some v }) Reader.int32,
   .of "owner" (·.owner) (fun d v => { d with owner := some v }) Reader.int32,
   .of "x" (·.x) (fun d v => { d with x := some v }) Reader.int32,
   .of "y" (·.y) (fun d v => { d with y := some v }) Reader.int32,
   .of "dir_x" (·.dirX) (fun d v => { d with dirX := some v }) Reader.int32,
   .of "dir_y" (·.dirY) (fun d v => { d with dirY := some v }) Reader.int32,
   .of "lifespan" (·.lifespan) (fun d v => { d with lifespan := some v }) Reader.int32,
   .of "flags" (·.flags) (fun d v => { d with flags := some v }) RecordFlags.read,
   .of "force" (·.force) (fun d v => { d with force := some v }) Reader.int32,
   .of "sound_impact" (·.impactSound) (fun d v => { d with impactSound := some v }) Reader.int32,
   .of "extra" (·.extra) (fun d v => { d with extra := some v })
     (Reader.nullable RecordExtra.read)]

open Json Reader in
/-- The record of a draft. Only the extension block may be missing. -/
def finish (d : Draft) : Except Fault Record := do
  let weapon ← need "weapon" d.weapon
  let startTick ← need "start_tick" d.startTick
  let owner ← need "owner" d.owner
  let x ← need "x" d.x
  let y ← need "y" d.y
  let dirX ← need "dir_x" d.dirX
  let dirY ← need "dir_y" d.dirY
  let lifespan ← need "lifespan" d.lifespan
  let flags ← need "flags" d.flags
  let force ← need "force" d.force
  let impactSound ← need "sound_impact" d.impactSound
  let extra := d.extra.getD none
  return { weapon, startTick, owner, x, y, dirX, dirY, lifespan, flags, force, impactSound, extra }

/-- Reads a record. -/
def read : Json.Reader Record := Json.Reader.struct "ProjectileRecord" fields {} finish

/-- Writes a record. -/
def write (r : Record) : List Char :=
  Json.writeObject
    [("weapon", Json.writeInt r.weapon.toInt),
     ("start_tick", Json.writeInt r.startTick.toInt),
     ("owner", Json.writeInt r.owner.toInt),
     ("x", Json.writeInt r.x.toInt),
     ("y", Json.writeInt r.y.toInt),
     ("dir_x", Json.writeInt r.dirX.toInt),
     ("dir_y", Json.writeInt r.dirY.toInt),
     ("lifespan", Json.writeInt r.lifespan.toInt),
     ("flags", Json.writeText r.flags.toText),
     ("force", Json.writeInt r.force.toInt),
     ("sound_impact", Json.writeInt r.impactSound.toInt),
     ("extra", (r.extra.map RecordExtra.write).getD ['n', 'u', 'l', 'l'])]

end Record

namespace SnapshotItem

/-- An item with fields missing. -/
structure Draft where
  id : Option UInt64 := none
  record : Option Record := none

open Json in
/-- The fields of an item. -/
def fields : List (Json.Field Draft) :=
  [.of "id" (·.id) (fun d v => { d with id := some v }) Reader.uint64,
   .of "record" (·.record) (fun d v => { d with record := some v }) Record.read]

open Json Reader in
/-- The item of a draft. -/
def finish (d : Draft) : Except Fault SnapshotItem := do
  let id ← need "id" d.id
  let record ← need "record" d.record
  return { id := ⟨id⟩, record }

/-- Reads an item. -/
def read : Json.Reader SnapshotItem := Json.Reader.struct "SnapshotItem" fields {} finish

/-- Writes an item. -/
def write (item : SnapshotItem) : List Char :=
  Json.writeObject [("id", Json.writeInt item.id.val.toNat), ("record", item.record.write)]

end SnapshotItem

namespace Snapshot

/-- A snapshot with fields missing. -/
structure Draft where
  tick : Option Int32 := none
  items : Option (List SnapshotItem) := none

open Json in
/-- The fields of a snapshot. -/
def fields : List (Json.Field Draft) :=
  [.of "tick" (·.tick) (fun d v => { d with tick := some v }) Reader.int32,
   .of "items" (·.items) (fun d v => { d with items := some v }) (Reader.array SnapshotItem.read)]

open Json Reader in
/-- The snapshot of a draft. -/
def finish (d : Draft) : Except Fault Snapshot := do
  let tick ← need "tick" d.tick
  let items ← need "items" d.items
  return { tick, items }

/-- Reads a snapshot. -/
def read : Json.Reader Snapshot := Json.Reader.struct "ProjectileSnapshot" fields {} finish

/-- Writes a snapshot. -/
def write (s : Snapshot) : List Char :=
  Json.writeObject
    [("tick", Json.writeInt s.tick.toInt),
     ("items", Json.writeArray (s.items.map SnapshotItem.write))]

/-- The JSON text of a snapshot. -/
def toJson (s : Snapshot) : String := String.ofList s.write

/-- The snapshot that a JSON text describes. -/
def ofJson (text : String) : Except Json.Fault Snapshot := Json.Reader.runAll read text

end Snapshot

end Volley
