/-
# A snapshot survives its text

Every structure is written as an object of all its fields, and each member fills the field of
its name (`Json.Reader.Fills`), so each structure is read from what was written for it. A
snapshot comes back from its text as it was, with all 64 bits of the numbers of its items and
all flags, whether they have a name or not. The wire drops the flags without a name, so a
snapshot with such a flag does not come back from there.

Key theorems: `RecordExtra.reads_write`, `Record.reads_write`, `SnapshotItem.reads_write`,
`Snapshot.reads_write`, `Snapshot.ofJson_toJson`.
-/
import Volley.Proofs.Snapshot.FlagText
import Volley.Proofs.Wire.Exact

namespace Volley

open Json.Reader

theorem RecordExtra.reads_write (e : RecordExtra) : Reads RecordExtra.read e.write e := by
  refine reads_struct "RecordExtra" {
    layer := some e.layer
    number := some e.number
    tuneZone := some e.tuneZone
    bounces := some e.bounces
    launchOffset := some e.launchOffset } (by simp [fields, Json.Field.of, Json.IsPlain]) ?_ rfl
  refine .member rfl rfl (reads_field (reads_int32 e.layer) _) ?_
  refine .member rfl rfl (reads_field (reads_int32 e.number) _) ?_
  refine .member rfl rfl (reads_field (reads_uint32 e.tuneZone) _) ?_
  refine .member rfl rfl (reads_field (reads_uint32 e.bounces) _) ?_
  refine .member rfl rfl (reads_field (reads_int32 e.launchOffset) _) ?_
  exact .done _

theorem Record.reads_write (r : Record) : Reads Record.read r.write r := by
  refine reads_struct "ProjectileRecord" {
    weapon := some r.weapon
    startTick := some r.startTick
    owner := some r.owner
    x := some r.x
    y := some r.y
    dirX := some r.dirX
    dirY := some r.dirY
    lifespan := some r.lifespan
    flags := some r.flags
    force := some r.force
    impactSound := some r.impactSound
    extra := some r.extra } (by simp [fields, Json.Field.of, Json.IsPlain]) ?_ rfl
  refine .member rfl rfl (reads_field (reads_int32 r.weapon) _) ?_
  refine .member rfl rfl (reads_field (reads_int32 r.startTick) _) ?_
  refine .member rfl rfl (reads_field (reads_int32 r.owner) _) ?_
  refine .member rfl rfl (reads_field (reads_int32 r.x) _) ?_
  refine .member rfl rfl (reads_field (reads_int32 r.y) _) ?_
  refine .member rfl rfl (reads_field (reads_int32 r.dirX) _) ?_
  refine .member rfl rfl (reads_field (reads_int32 r.dirY) _) ?_
  refine .member rfl rfl (reads_field (reads_int32 r.lifespan) _) ?_
  refine .member rfl rfl (reads_field r.flags.reads_toText _) ?_
  refine .member rfl rfl (reads_field (reads_int32 r.force) _) ?_
  refine .member rfl rfl (reads_field (reads_int32 r.impactSound) _) ?_
  refine .member rfl rfl (reads_field (reads_nullable r.extra fun e _ => ?_) _) ?_
  · exact ⟨e.reads_write, Json.startsValue_writeObject _⟩
  · exact .done _

theorem SnapshotItem.reads_write (item : SnapshotItem) :
    Reads SnapshotItem.read item.write item := by
  refine reads_struct "SnapshotItem" {
    id := some item.id.val
    record := some item.record } (by simp [fields, Json.Field.of, Json.IsPlain]) ?_ rfl
  refine .member rfl rfl (reads_field (reads_uint64 item.id.val) _) ?_
  refine .member rfl rfl (reads_field item.record.reads_write _) ?_
  exact .done _

namespace Snapshot

theorem reads_write (s : Snapshot) : Reads Snapshot.read s.write s := by
  refine reads_struct "ProjectileSnapshot" {
    tick := some s.tick
    items := some s.items } (by simp [fields, Json.Field.of, Json.IsPlain]) ?_ rfl
  refine .member rfl rfl (reads_field (reads_int32 s.tick) _) ?_
  refine .member rfl rfl (reads_field (reads_array fun item _ => ?_) _) ?_
  · exact ⟨item.reads_write, Json.startsValue_writeObject _⟩
  · exact .done _

theorem ofJson_toJson (s : Snapshot) : ofJson s.toJson = .ok s := by
  have hread := s.reads_write [] trivial
  rw [List.append_nil] at hread
  rw [ofJson, toJson, runAll, String.toList_ofList, hread]
  rfl

/-- What comes off the wire has no flags without a name. -/
theorem unnamed_of_decode {bytes : List UInt8} {s : Snapshot} (h : decode bytes = .ok s)
    {item : SnapshotItem} (hitem : item ∈ s.items) : item.record.flags.unnamed = 0 := by
  obtain ⟨version, raw, -, rfl, -⟩ := encode_of_decode h
  obtain ⟨sent, -, rfl⟩ := List.mem_map.mp hitem
  show sent.record.flags.bits &&& RecordFlags.known.bits &&& ~~~RecordFlags.known.bits = 0
  rw [UInt32.and_assoc, UInt32.and_not_self, UInt32.and_zero]

/-- **A snapshot survives its text**, bit for bit. Off the wire, no snapshot comes with a flag
that has no name, so of the two forms only the text keeps such flags. -/
theorem survives_text :
    (∀ s : Snapshot, ofJson s.toJson = .ok s) ∧
    ∀ bytes s, decode bytes = .ok s → ∀ item ∈ s.items, item.record.flags.unnamed = 0 :=
  ⟨ofJson_toJson, fun _ _ h _ => unnamed_of_decode h⟩

/-- An item with the largest number and with all flags: the text keeps them, and the wire only
those with a name. -/
theorem survives_text_all_flags :
    let item (bits : UInt32) : SnapshotItem :=
      ⟨⟨18446744073709551615⟩, { (default : Record) with flags := ⟨bits⟩, extra := some {} }⟩
    let s : Snapshot := { tick := -130, items := [item 0xffffffff, item 0x80000000] }
    let named : Snapshot := { tick := -130, items := [item 0x3, item 0x0] }
    ofJson s.toJson = .ok s ∧ ∃ bytes, s.encode 2 = .ok bytes ∧ decode bytes = .ok named ∧
      ∀ item ∈ named.items, item.record.flags.unnamed = 0 := by
  intro item s named
  have hencode : s.encode 2 = .ok _ := encode_eq_ok.mpr ⟨rfl, by decide, rfl⟩
  have hnamed : s.onWire 2 = named := by decide
  have hdecode := decode_encode hencode
  rw [hnamed] at hdecode
  exact ⟨survives_text.1 s, _, hencode, hdecode, survives_text.2 _ named hdecode⟩

end Snapshot

end Volley
