/-
# What is encoded is decoded

`Reads p bytes a` says that a reader takes exactly these bytes from the front of whatever
follows, and gets `a`. Every part of the format is read from what its writer wrote, so a
snapshot comes back from its encoding. What does not travel is the flags without a name and,
in the legacy protocol, the extension blocks (`Snapshot.onWire`).

Key definitions: `ByteReader.Reads`, `Record.onWire`, `Snapshot.onWire`.
Key theorems: `Wire.reads_item`, `Wire.reads_snapshot`, `Snapshot.decode_encode`.
-/
import Mathlib.Data.Nat.Bitwise
import Volley.Snapshot.Wire

namespace Volley

/-! ### Words -/

theorem lt_of_testBit {m k i : Nat} (hm : m < 2 ^ k) (h : m.testBit i = true) : i < k := by
  by_contra hi
  have hlt : m < 2 ^ i := Nat.lt_of_lt_of_le hm (Nat.pow_le_pow_right (by decide) (by omega))
  rw [Nat.testBit_lt_two_pow hlt] at h
  cases h

/-- A word is put together again from its four bytes. -/
theorem Bytes.toWord32_word32 (n : UInt32) :
    toWord32 (n >>> 24).toUInt8 (n >>> 16).toUInt8 (n >>> 8).toUInt8 n.toUInt8 = n := by
  refine UInt32.toNat_inj.mp (Nat.eq_of_testBit_eq fun i => ?_)
  have hlt := @lt_of_testBit n.toNat 32 i n.toNat_lt
  simp only [toWord32, UInt32.toNat_or, UInt32.toNat_shiftLeft, UInt8.toNat_toUInt32,
    UInt32.toNat_toUInt8, UInt32.toNat_shiftRight, UInt32.reduceToNat, Nat.reduceMod,
    Nat.testBit_or, Nat.testBit_mod_two_pow, Nat.testBit_shiftLeft, Nat.testBit_shiftRight]
  grind

/-- A long word is put together again from its two halves. -/
theorem Bytes.halves_word64 (n : UInt64) :
    (n >>> 32).toUInt32.toUInt64 <<< 32 ||| n.toUInt32.toUInt64 = n := by
  refine UInt64.toNat_inj.mp (Nat.eq_of_testBit_eq fun i => ?_)
  have hlt := @lt_of_testBit n.toNat 64 i n.toNat_lt
  simp only [UInt64.toNat_or, UInt64.toNat_shiftLeft, UInt32.toNat_toUInt64,
    UInt64.toNat_toUInt32, UInt64.toNat_shiftRight, UInt64.reduceToNat, Nat.reduceMod,
    Nat.testBit_or, Nat.testBit_mod_two_pow, Nat.testBit_shiftLeft, Nat.testBit_shiftRight]
  grind

/-! ### Readers -/

namespace ByteReader

section

variable {α β : Type}

/-- An error of the first reader ends both. -/
theorem run_bind_error {p : ByteReader α} {f : α → ByteReader β} {bytes : List UInt8}
    {e : WireError} (h : p.run bytes = .error e) : (p >>= f).run bytes = .error e := by
  rw [StateT.run_bind, h]
  rfl

theorem run_bind_ok {p : ByteReader α} {f : α → ByteReader β} {bytes rest : List UInt8} {a : α}
    (h : p.run bytes = .ok (a, rest)) : (p >>= f).run bytes = (f a).run rest := by
  rw [StateT.run_bind, h]
  rfl

/-- What making sure of enough bytes does. -/
theorem run_need (part : WirePart) (n : Nat) (bytes : List UInt8) :
    (need part n).run bytes =
      if n ≤ bytes.length then .ok ((), bytes) else .error (.truncated part n bytes.length) := by
  by_cases h : n ≤ bytes.length
  · simp [need, Bytes.hasAtLeast_eq, h]
    rfl
  · simp [need, Bytes.hasAtLeast_eq, h]
    rfl

end

/-- The reader takes exactly `bytes` from the front of whatever follows, and gets `a`. -/
def Reads {α : Type} (p : ByteReader α) (bytes : List UInt8) (a : α) : Prop :=
  ∀ rest, p.run (bytes ++ rest) = .ok (a, rest)

namespace Reads

variable {α β : Type}

theorem pure (a : α) : Reads (Pure.pure a : ByteReader α) [] a := fun _ => rfl

theorem bind {p : ByteReader α} {f : α → ByteReader β} {first second : List UInt8} {a : α} {b : β}
    (hp : Reads p first a) (hf : Reads (f a) second b) : Reads (p >>= f) (first ++ second) b := by
  intro rest
  rw [List.append_assoc, run_bind_ok (hp (second ++ rest))]
  exact hf rest

/-- The result of a reader goes through a function. -/
theorem map {p : ByteReader α} {bytes : List UInt8} {a : α} (h : Reads p bytes a) (f : α → β) :
    Reads (p >>= fun x => Pure.pure (f x)) bytes (f a) := by
  have hread := h.bind (f := fun x => Pure.pure (f x)) (Reads.pure (f a))
  rw [List.append_nil] at hread
  exact hread

/-- A reader that first makes sure that enough bytes are left. -/
theorem need {part : WirePart} {n : Nat} {p : ByteReader α} {bytes : List UInt8} {a : α}
    (h : Reads p bytes a) (enough : n ≤ bytes.length) :
    Reads (ByteReader.need part n >>= fun _ => p) bytes a := by
  intro rest
  have hneed := run_need part n (bytes ++ rest)
  rw [if_pos (by rw [List.length_append]; omega)] at hneed
  rw [run_bind_ok hneed]
  exact h rest

end Reads

theorem reads_byte (b : UInt8) : Reads byte [b] b := fun _ => rfl

theorem reads_word32 (n : UInt32) : Reads word32 (Bytes.word32 n) n := by
  intro rest
  have hread : word32.run (Bytes.word32 n ++ rest) = .ok (Bytes.toWord32 (n >>> 24).toUInt8
      (n >>> 16).toUInt8 (n >>> 8).toUInt8 n.toUInt8, rest) := rfl
  rw [hread, Bytes.toWord32_word32]

theorem reads_word64 (n : UInt64) : Reads word64 (Bytes.word64 n) n := by
  have hlow := (reads_word32 n.toUInt32).map
    fun low => (n >>> 32).toUInt32.toUInt64 <<< 32 ||| low.toUInt64
  rw [Bytes.halves_word64] at hlow
  exact (reads_word32 (n >>> 32).toUInt32).bind hlow

theorem reads_int32 (n : Int32) : Reads int32 (Bytes.int32 n) n :=
  (reads_word32 n.toUInt32).map UInt32.toInt32

end ByteReader

/-! ### Snapshots -/

/-- The record as it comes off the wire. -/
def Record.onWire (version : UInt32) (r : Record) : Record :=
  { r with
    flags := r.flags.truncate
    extra := if version = Wire.legacyVersion then none else r.extra }

/-- The item as it comes off the wire. -/
def SnapshotItem.onWire (version : UInt32) (item : SnapshotItem) : SnapshotItem :=
  { item with record := item.record.onWire version }

/-- The snapshot as it comes off the wire. -/
def Snapshot.onWire (version : UInt32) (s : Snapshot) : Snapshot :=
  { s with items := s.items.map (·.onWire version) }

namespace Wire

open ByteReader

theorem length_writeBase (item : SnapshotItem) : (writeBase item).length = itemLength := rfl

theorem length_writeBlock (e : RecordExtra) : (writeBlock e).length = extraLength := rfl

theorem reads_base (item : SnapshotItem) :
    Reads readBase (writeBase item) { item with record := { item.record with
      flags := item.record.flags.truncate
      extra := none } } := by
  unfold readBase writeBase
  simp only [List.append_assoc]
  refine (reads_word64 _).bind ?_
  refine (reads_int32 _).bind ?_
  refine (reads_int32 _).bind ?_
  refine (reads_int32 _).bind ?_
  refine (reads_int32 _).bind ?_
  refine (reads_int32 _).bind ?_
  refine (reads_int32 _).bind ?_
  refine (reads_int32 _).bind ?_
  refine (reads_int32 _).bind ?_
  refine (reads_word32 _).bind ?_
  refine (reads_int32 _).bind ?_
  exact (reads_int32 _).map _

theorem reads_block (e : RecordExtra) : Reads readBlock (writeBlock e) e := by
  unfold readBlock writeBlock
  simp only [List.append_assoc]
  refine (reads_int32 _).bind ?_
  refine (reads_int32 _).bind ?_
  refine (reads_word32 _).bind ?_
  refine (reads_word32 _).bind ?_
  exact (reads_int32 _).map _

theorem reads_extra (id : EntityId) (extra : Option RecordExtra) :
    Reads (readExtra id) (writeExtra extra) extra := by
  cases extra with
  | none =>
    refine Reads.need ?_ (Nat.le_refl 1)
    exact (reads_byte 0).map fun _ => none
  | some e =>
    refine Reads.need ?_ (Nat.succ_le_succ (Nat.zero_le _))
    have hblock : Reads (ByteReader.need .extraBlock extraLength >>= fun _ => do
        return some (← readBlock)) (writeBlock e) (some e) :=
      Reads.need ((reads_block e).map some) (Nat.le_of_eq (length_writeBlock e).symm)
    exact (reads_byte 1).bind hblock

/-- An item is read from what was written for it. -/
theorem reads_item (version : UInt32) (item : SnapshotItem) :
    Reads (readItem version) (writeItem version item) (item.onWire version) := by
  unfold readItem writeItem SnapshotItem.onWire Record.onWire
  by_cases h : version = legacyVersion
  · simp only [h, if_true]
    refine Reads.need ?_ (Nat.le_of_eq (length_writeBase item).symm)
    exact (reads_base item).map fun item => item
  · simp only [h, if_false]
    refine Reads.need ?_ ?_
    · exact (reads_base item).bind ((reads_extra _ item.record.extra).map _)
    · rw [List.length_append, length_writeBase]
      omega

theorem reads_items (version : UInt32) (items : List SnapshotItem) :
    Reads (readItems version items.length) (items.map (writeItem version)).flatten
      (items.map (·.onWire version)) := by
  induction items with
  | nil => exact Reads.pure []
  | cons item rest ih => exact (reads_item version item).bind (ih.map _)

theorem itemLength_le (version : UInt32) (items : List SnapshotItem) :
    items.length * itemLength ≤ (items.map (writeItem version)).flatten.length := by
  induction items with
  | nil => simp
  | cons item rest ih =>
    have hitem : itemLength ≤ (writeItem version item).length := by
      unfold writeItem
      split
      · exact Nat.le_of_eq (length_writeBase item).symm
      · rw [List.length_append, length_writeBase]
        omega
    simp only [List.length_cons, List.map_cons, List.flatten_cons, List.length_append]
    rw [Nat.succ_mul]
    omega

/-- A snapshot is read from what was written for it. -/
theorem reads_snapshot {s : Snapshot} {version : UInt32} (known : supported version = true)
    (few : s.items.length < UInt32.size) :
    Reads readSnapshot (writeHeader version s.tick (UInt32.ofNat s.items.length)
      ++ (s.items.map (writeItem version)).flatten) (s.onWire version) := by
  have hcount : (UInt32.ofNat s.items.length).toNat = s.items.length :=
    UInt32.toNat_ofNat_of_lt' few
  have hitems : Reads (ByteReader.need .items ((UInt32.ofNat s.items.length).toNat * itemLength)
      >>= fun _ => do
        let items ← readItems version (UInt32.ofNat s.items.length).toNat
        return ({ tick := s.tick, items } : Snapshot))
      (s.items.map (writeItem version)).flatten (s.onWire version) := by
    rw [hcount]
    exact Reads.need ((reads_items version s.items).map _) (itemLength_le version s.items)
  unfold readSnapshot writeHeader
  refine Reads.need ?_ ?_
  · simp only [List.append_assoc]
    refine (reads_word32 _).bind ?_
    rw [if_pos known]
    refine (reads_int32 _).bind ?_
    exact (reads_word32 _).bind hitems
  · simp only [List.length_append, Bytes.length_word32, Bytes.length_int32, headerLength]
    omega

end Wire

/-- When a snapshot can be encoded, and as what. -/
theorem Snapshot.encode_eq_ok {s : Snapshot} {version : UInt32} {bytes : List UInt8} :
    s.encode version = .ok bytes ↔ Wire.supported version = true ∧
      s.items.length < UInt32.size ∧
      bytes = Wire.writeHeader version s.tick (UInt32.ofNat s.items.length)
        ++ (s.items.map (Wire.writeItem version)).flatten := by
  unfold encode
  cases hsupported : Wire.supported version with
  | false => simp
  | true =>
    by_cases hfew : UInt32.size ≤ s.items.length
    · simp [hfew]
    · simp [hfew, Nat.not_le.mp hfew, eq_comm]

/-- **A snapshot survives the wire.** What is encoded is decoded, but for flags without a
name and, in the legacy protocol, extension blocks. -/
theorem Snapshot.decode_encode {s : Snapshot} {version : UInt32} {bytes : List UInt8}
    (h : s.encode version = .ok bytes) : Snapshot.decode bytes = .ok (s.onWire version) := by
  obtain ⟨known, few, rfl⟩ := encode_eq_ok.mp h
  have hread := Wire.reads_snapshot known few []
  rw [List.append_nil] at hread
  rw [decode, hread]
  rfl

end Volley
