/-
# What is decoded was encoded

The other half of the round trip. `Takes p R` says of every result of a reader in which relation
it stands to the bytes that were taken for it; an `Exact` reader takes just what its writer
makes of the result. The base fields are read exactly but for flags without a name, which the
reader drops; so behind every item that is read stands an item that was written
(`Wire.takes_item`).

So bytes are accepted just if they are the encoding of a snapshot, and two encodings in one
protocol that are read as the same snapshot differ in nothing but flags without a name
(`Snapshot.decode_exact`).

Key definitions: `ByteReader.Takes`, `ByteReader.Exact`.
Key theorems: `Wire.takes_item`, `Wire.takes_snapshot`, `Snapshot.encode_of_decode`,
`Snapshot.decode_exact`.
-/
import Volley.Proofs.Wire.RoundTrip

namespace Volley

/-! ### Words -/

/-- The four bytes of the word that four bytes make. -/
theorem Bytes.word32_toWord32 (a b c d : UInt8) : word32 (toWord32 a b c d) = [a, b, c, d] := by
  have ha := fun i => @lt_of_testBit a.toNat 8 i a.toNat_lt
  have hb := fun i => @lt_of_testBit b.toNat 8 i b.toNat_lt
  have hc := fun i => @lt_of_testBit c.toNat 8 i c.toNat_lt
  have hd := fun i => @lt_of_testBit d.toNat 8 i d.toNat_lt
  simp only [word32, List.cons.injEq, and_true]
  refine ⟨?_, ?_, ?_, ?_⟩
  all_goals
    refine UInt8.toNat_inj.mp (Nat.eq_of_testBit_eq fun i => ?_)
    simp only [toWord32, UInt32.toNat_or, UInt32.toNat_shiftLeft, UInt8.toNat_toUInt32,
      UInt32.toNat_toUInt8, UInt32.toNat_shiftRight, UInt32.reduceToNat, Nat.reduceMod,
      Nat.testBit_or, Nat.testBit_mod_two_pow, Nat.testBit_shiftLeft, Nat.testBit_shiftRight]
    grind

/-- The eight bytes of the long word that two words make. -/
theorem Bytes.word64_halves (high low : UInt32) :
    word64 (high.toUInt64 <<< 32 ||| low.toUInt64) = word32 high ++ word32 low := by
  have hhigh := fun i => @lt_of_testBit high.toNat 32 i high.toNat_lt
  have hlow := fun i => @lt_of_testBit low.toNat 32 i low.toNat_lt
  have hhalves : ((high.toUInt64 <<< 32 ||| low.toUInt64) >>> 32).toUInt32 = high ∧
      (high.toUInt64 <<< 32 ||| low.toUInt64).toUInt32 = low := by
    constructor
    all_goals
      refine UInt32.toNat_inj.mp (Nat.eq_of_testBit_eq fun i => ?_)
      simp only [UInt64.toNat_or, UInt64.toNat_shiftLeft, UInt32.toNat_toUInt64,
        UInt64.toNat_toUInt32, UInt64.toNat_shiftRight, UInt64.reduceToNat, Nat.reduceMod,
        Nat.testBit_or, Nat.testBit_mod_two_pow, Nat.testBit_shiftLeft, Nat.testBit_shiftRight]
      grind
  rw [word64, hhalves.1, hhalves.2]

theorem Bytes.word32_inj {m n : UInt32} (h : word32 m = word32 n) : m = n := by
  rw [← toWord32_word32 m, ← toWord32_word32 n]
  simp only [word32, List.cons.injEq] at h
  rw [h.1, h.2.1, h.2.2.1, h.2.2.2.1]

/-! ### Readers -/

namespace ByteReader

variable {α β : Type}

/-- Whatever the reader accepts with the result `a`, it has taken bytes from the front that
stand in the relation `R` to `a`. -/
def Takes (p : ByteReader α) (R : List UInt8 → α → Prop) : Prop :=
  ∀ bytes a rest, p.run bytes = .ok (a, rest) → ∃ taken, bytes = taken ++ rest ∧ R taken a

/-- The reader takes just what `write` makes of its result. -/
def Exact (p : ByteReader α) (write : α → List UInt8) : Prop :=
  Takes p fun taken a => taken = write a

namespace Takes

theorem pure {a : α} {R : List UInt8 → α → Prop} (h : R [] a) :
    Takes (Pure.pure a : ByteReader α) R := by
  intro bytes b rest hrun
  cases hrun
  exact ⟨[], rfl, h⟩

theorem throw {e : WireError} {R : List UInt8 → α → Prop} :
    Takes (MonadExcept.throw e : ByteReader α) R := by
  intro bytes b rest hrun
  cases hrun

/-- Two readers take one after the other. -/
theorem bind {p : ByteReader α} {f : α → ByteReader β} {P : List UInt8 → α → Prop}
    {R : List UInt8 → β → Prop} (hp : Takes p P)
    (hf : ∀ first a, P first a → Takes (f a) fun second b => R (first ++ second) b) :
    Takes (p >>= f) R := by
  intro bytes b rest hrun
  cases hfirst : p.run bytes with
  | error e =>
    rw [run_bind_error hfirst] at hrun
    cases hrun
  | ok out =>
    rw [run_bind_ok hfirst] at hrun
    obtain ⟨first, rfl, hP⟩ := hp bytes out.1 out.2 hfirst
    obtain ⟨second, hsecond, hR⟩ := hf first out.1 hP out.2 b rest hrun
    exact ⟨first ++ second, by rw [hsecond, List.append_assoc], hR⟩

/-- Making sure that enough bytes are left takes none. -/
theorem need {part : WirePart} {n : Nat} {p : ByteReader α} {R : List UInt8 → α → Prop}
    (h : Takes p R) : Takes (ByteReader.need part n >>= fun _ => p) R := by
  have hneed : Takes (ByteReader.need part n) fun taken _ => taken = [] := by
    intro bytes a rest hrun
    rw [run_need] at hrun
    split at hrun
    · cases hrun
      exact ⟨[], rfl, rfl⟩
    · cases hrun
  refine hneed.bind fun first _ hfirst => ?_
  rw [hfirst]
  exact h

end Takes

/-- An exact reader first: what the next one takes comes after what is written. -/
theorem Exact.bind {p : ByteReader α} {write : α → List UInt8} {f : α → ByteReader β}
    {R : List UInt8 → β → Prop} (hp : Exact p write)
    (hf : ∀ a, Takes (f a) fun second b => R (write a ++ second) b) : Takes (p >>= f) R :=
  Takes.bind hp fun first a hfirst => by
    rw [hfirst]
    exact hf a

theorem exact_byte : Exact byte fun b => [b] := by
  intro bytes b rest hrun
  cases bytes with
  | nil => cases hrun
  | cons a bytes =>
    cases hrun
    exact ⟨[b], rfl, rfl⟩

theorem exact_word32 : Exact word32 Bytes.word32 := by
  intro bytes n rest hrun
  match bytes with
  | [] | [_] | [_, _] | [_, _, _] => cases hrun
  | a :: b :: c :: d :: bytes =>
    cases hrun
    exact ⟨[a, b, c, d], rfl, (Bytes.word32_toWord32 a b c d).symm⟩

theorem exact_word64 : Exact word64 Bytes.word64 := by
  refine exact_word32.bind fun high => ?_
  refine exact_word32.bind fun low => ?_
  refine Takes.pure ?_
  rw [Bytes.word64_halves, List.append_nil]

theorem exact_int32 : Exact int32 Bytes.int32 := by
  refine exact_word32.bind fun word => ?_
  refine Takes.pure ?_
  rw [Bytes.int32, UInt32.toUInt32_toInt32, List.append_nil]

end ByteReader

/-! ### Snapshots -/

namespace Wire

open ByteReader

/-- The base fields were written for an item that may have had more flags. -/
theorem takes_base : Takes readBase fun taken item =>
    ∃ raw : SnapshotItem, taken = writeBase raw ∧ raw.record.extra = none ∧
      raw.onWire currentVersion = item := by
  unfold readBase
  refine exact_word64.bind fun id => ?_
  refine exact_int32.bind fun weapon => ?_
  refine exact_int32.bind fun startTick => ?_
  refine exact_int32.bind fun owner => ?_
  refine exact_int32.bind fun x => ?_
  refine exact_int32.bind fun y => ?_
  refine exact_int32.bind fun dirX => ?_
  refine exact_int32.bind fun dirY => ?_
  refine exact_int32.bind fun lifespan => ?_
  refine exact_word32.bind fun flags => ?_
  refine exact_int32.bind fun force => ?_
  refine exact_int32.bind fun impactSound => ?_
  let record : Record :=
    { weapon, startTick, owner, x, y, dirX, dirY, lifespan, flags := ⟨flags⟩, force, impactSound
      extra := none }
  refine Takes.pure ⟨⟨⟨id⟩, record⟩, ?_, rfl, rfl⟩
  simp only [writeBase, record, List.append_assoc, List.append_nil]

theorem exact_block : Exact readBlock writeBlock := by
  unfold readBlock
  refine exact_int32.bind fun layer => ?_
  refine exact_int32.bind fun number => ?_
  refine exact_word32.bind fun tuneZone => ?_
  refine exact_word32.bind fun bounces => ?_
  refine exact_int32.bind fun launchOffset => ?_
  refine Takes.pure ?_
  simp only [writeBlock, List.append_assoc, List.append_nil]

theorem exact_extra (id : EntityId) : Exact (readExtra id) writeExtra := by
  refine Takes.need ?_
  refine exact_byte.bind fun marker => ?_
  split
  · rename_i hmarker
    refine Takes.pure ?_
    rw [hmarker]
    rfl
  split
  · rename_i hmarker
    refine Takes.need ?_
    refine exact_block.bind fun block => ?_
    refine Takes.pure ?_
    rw [hmarker, List.append_nil]
    rfl
  · exact Takes.throw

/-- An item that is read was written, perhaps with more flags. -/
theorem takes_item (version : UInt32) : Takes (readItem version) fun taken item =>
    ∃ raw : SnapshotItem, taken = writeItem version raw ∧ raw.onWire version = item ∧
      raw.onWire currentVersion = item := by
  refine Takes.need ?_
  refine takes_base.bind ?_
  rintro _ _ ⟨raw, rfl, hnone, rfl⟩
  by_cases hlegacy : version = legacyVersion
  · rw [if_pos hlegacy]
    refine Takes.pure ⟨raw, ?_, ?_, rfl⟩
    · rw [writeItem, if_pos hlegacy, List.append_nil]
    · simp only [SnapshotItem.onWire, Record.onWire, hlegacy, hnone, ite_self]
  · rw [if_neg hlegacy]
    refine (exact_extra _).bind fun extra => ?_
    refine Takes.pure ⟨{ raw with record := { raw.record with extra } }, ?_, ?_, rfl⟩
    · rw [writeItem, if_neg hlegacy, List.append_nil]
      rfl
    · simp only [SnapshotItem.onWire, Record.onWire, hlegacy, if_false]

/-- The items that are read were written, perhaps with more flags. -/
theorem takes_items (version : UInt32) (n : Nat) : Takes (readItems version n) fun taken items =>
    ∃ raws : List SnapshotItem, raws.length = n ∧
      taken = (raws.map (writeItem version)).flatten ∧ raws.map (·.onWire version) = items ∧
      raws.map (·.onWire currentVersion) = items := by
  induction n with
  | zero => exact Takes.pure ⟨[], rfl, rfl, rfl, rfl⟩
  | succ n ih =>
    refine (takes_item version).bind ?_
    rintro _ item ⟨raw, rfl, hraw, hraw'⟩
    refine ih.bind ?_
    rintro _ items ⟨raws, hlength, rfl, hraws, hraws'⟩
    refine Takes.pure ⟨raw :: raws, ?_, ?_, ?_, ?_⟩
    · rw [List.length_cons, hlength]
    · rw [List.map_cons, List.flatten_cons, List.append_nil]
    · rw [List.map_cons, hraw, hraws]
    · rw [List.map_cons, hraw', hraws']

/-- A snapshot that is read was written, perhaps with more flags. -/
theorem takes_snapshot : Takes readSnapshot fun taken s =>
    ∃ version raw, Snapshot.encode raw version = .ok taken ∧ raw.onWire version = s ∧
      raw.onWire currentVersion = s := by
  refine Takes.need ?_
  refine exact_word32.bind fun version => ?_
  by_cases hsupported : supported version = true
  · rw [if_pos hsupported]
    refine exact_int32.bind fun tick => ?_
    refine exact_word32.bind fun count => ?_
    refine Takes.need ?_
    refine (takes_items version count.toNat).bind ?_
    rintro _ items ⟨raws, hlength, rfl, hraws, hraws'⟩
    refine Takes.pure ⟨version, { tick, items := raws }, ?_, ?_, ?_⟩
    · refine Snapshot.encode_eq_ok.mpr ⟨hsupported, ?_, ?_⟩
      · rw [hlength]
        exact count.toNat_lt
      · rw [hlength, UInt32.ofNat_toNat]
        simp only [writeHeader, List.append_assoc, List.append_nil]
    · rw [Snapshot.onWire, hraws]
    · rw [Snapshot.onWire, hraws']
  · rw [if_neg hsupported]
    exact Takes.throw

end Wire

namespace Snapshot

/-- What is decoded was encoded, perhaps with more flags. -/
theorem encode_of_decode {bytes : List UInt8} {s : Snapshot} (h : decode bytes = .ok s) :
    ∃ version raw, encode raw version = .ok bytes ∧ raw.onWire version = s ∧
      raw.onWire Wire.currentVersion = s := by
  unfold decode at h
  cases hrun : Wire.readSnapshot.run bytes with
  | error e =>
    rw [hrun] at h
    cases h
  | ok out =>
    obtain ⟨s', left⟩ := out
    rw [hrun] at h
    obtain ⟨taken, hbytes, hwritten⟩ := Wire.takes_snapshot bytes s' left hrun
    cases left with
    | nil =>
      cases h
      rw [hbytes, List.append_nil]
      exact hwritten
    | cons => cases h

theorem supported_iff {version : UInt32} :
    Wire.supported version = true ↔ version = 1 ∨ version = 2 := by
  rw [Wire.supported, Bool.or_eq_true, decide_eq_true_iff, decide_eq_true_iff]
  exact or_comm

/-- The encoding starts with the number of the protocol. -/
theorem take_of_encode {s : Snapshot} {version : UInt32} {bytes : List UInt8}
    (h : s.encode version = .ok bytes) : bytes.take 4 = Bytes.word32 version := by
  obtain ⟨-, -, rfl⟩ := encode_eq_ok.mp h
  rfl

/-- Flags that all have a name travel unchanged. -/
theorem truncate_of_known {flags : RecordFlags} (h : RecordFlags.known.contains flags = true) :
    flags.truncate = flags := by
  simp only [RecordFlags.contains, decide_eq_true_eq] at h
  rw [RecordFlags.truncate, UInt32.and_comm, h]

/-- In the current protocol a snapshot whose flags all have a name travels unchanged. -/
theorem onWire_of_known {s : Snapshot}
    (known : ∀ item ∈ s.items, RecordFlags.known.contains item.record.flags = true) :
    s.onWire Wire.currentVersion = s := by
  have hitems : s.items.map (·.onWire Wire.currentVersion) = s.items := by
    refine (List.map_congr_left fun item hitem => ?_).trans (List.map_id _)
    have hflags := truncate_of_known (known item hitem)
    simp [SnapshotItem.onWire, Record.onWire, hflags, Wire.currentVersion, Wire.legacyVersion]
  rw [onWire, hitems]

/-- **Just the encodings are decoded.** Bytes are accepted as `s` if and only if they are the
encoding of a snapshot that is `s` after the wire has taken the flags without a name and, in
the legacy protocol, the extension blocks. In the current protocol a snapshot whose flags all
have a name comes back itself. Two byte strings of one protocol that are read as the same
snapshot are encodings of it that differ in nothing but flags without a name. -/
theorem decode_exact :
    (∀ bytes s, decode bytes = .ok s ↔
      ∃ version s', (version = 1 ∨ version = 2) ∧ s'.items.length < UInt32.size ∧
        encode s' version = .ok bytes ∧ s = s'.onWire version) ∧
    (∀ s : Snapshot, s.items.length < UInt32.size →
      (∀ item ∈ s.items, RecordFlags.known.contains item.record.flags = true) →
      ∃ bytes, s.encode 2 = .ok bytes ∧ decode bytes = .ok s) ∧
    ∀ bytes bytes' s, decode bytes = .ok s → decode bytes' = .ok s →
      bytes.take 4 = bytes'.take 4 →
      ∃ version s₁ s₂, encode s₁ version = .ok bytes ∧ encode s₂ version = .ok bytes' ∧
        s₁.onWire 2 = s ∧ s₂.onWire 2 = s := by
  refine ⟨fun bytes s => ⟨fun h => ?_, ?_⟩, fun s few known => ?_,
    fun bytes bytes' s h h' same => ?_⟩
  · obtain ⟨version, raw, hraw, hs, -⟩ := encode_of_decode h
    obtain ⟨hsupported, hfew, -⟩ := encode_eq_ok.mp hraw
    exact ⟨version, raw, supported_iff.mp hsupported, hfew, hraw, hs.symm⟩
  · rintro ⟨version, s', -, -, hs', rfl⟩
    exact decode_encode hs'
  · have hencode : s.encode 2 = .ok _ := encode_eq_ok.mpr ⟨rfl, few, rfl⟩
    have hdecode := decode_encode hencode
    have hsame : s.onWire 2 = s := onWire_of_known known
    rw [hsame] at hdecode
    exact ⟨_, hencode, hdecode⟩
  · obtain ⟨version, raw, hraw, -, hs⟩ := encode_of_decode h
    obtain ⟨version', raw', hraw', -, hs'⟩ := encode_of_decode h'
    rw [take_of_encode hraw, take_of_encode hraw'] at same
    obtain rfl := Bytes.word32_inj same
    exact ⟨version, raw, raw', hraw, hraw', hs, hs'⟩

/-- Two encodings of an exploding, freezing shot with three bounces left, one of them with a
flag that has no name. -/
theorem decode_exact_unnamed :
    let item (bits : UInt32) : SnapshotItem :=
      ⟨⟨9⟩, { (default : Record) with flags := ⟨bits⟩, extra := some { bounces := 3 } }⟩
    let s : Snapshot := { tick := 130, items := [item 0x3] }
    let s' : Snapshot := { tick := 130, items := [item 0x83] }
    ∃ bytes bytes', s.encode 2 = .ok bytes ∧ s'.encode 2 = .ok bytes' ∧ bytes ≠ bytes' ∧
      decode bytes = .ok s ∧ decode bytes' = .ok s ∧ bytes.take 4 = bytes'.take 4 ∧
      ∃ version s₁ s₂, encode s₁ version = .ok bytes ∧ encode s₂ version = .ok bytes' ∧
        s₁.onWire 2 = s ∧ s₂.onWire 2 = s := by
  intro item s s'
  obtain ⟨hexact, hknown, hunnamed⟩ := decode_exact
  obtain ⟨bytes, hencode, hdecode⟩ := hknown s (by decide) (by decide)
  have hencode' : s'.encode 2 = .ok _ := encode_eq_ok.mpr ⟨rfl, by decide, rfl⟩
  have hdecode' := (hexact _ s).mpr ⟨2, s', Or.inr rfl, by decide, hencode', by decide⟩
  have hstart := (take_of_encode hencode).trans (take_of_encode hencode').symm
  refine ⟨bytes, _, hencode, hencode', ?_, hdecode, hdecode', hstart,
    hunnamed _ _ s hdecode hdecode' hstart⟩
  obtain ⟨-, -, rfl⟩ := encode_eq_ok.mp hencode
  decide

end Snapshot

end Volley
