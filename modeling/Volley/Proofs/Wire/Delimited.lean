/-
# The wire format delimits itself

An encoded snapshot says where it ends. Whatever is cut off its end, some part turns out too
short and the decoder says so (`Wire.cut_snapshot`); whatever is added at its end is counted
as trailing. And whatever the bytes are, the decoder makes sure of every word before it takes
it (`Wire.within_snapshot`), so it never reads past the end.

Both follow the layout. `CutFrom n p bytes` and `Within n p` speak of a reader that may rely on
`n` bytes; a check relieves it of that (`need`), and what a reader takes uses it up (`bind`).

Key definitions: `Truncated`, `ByteReader.CutFrom`, `ByteReader.Fits`, `ByteReader.Within`.
Key theorems: `Wire.cut_snapshot`, `Wire.within_snapshot`, `Snapshot.self_delimiting`.
-/
import Volley.Proofs.Wire.Exact

namespace Volley

/-- The bytes ended before a part did. -/
def Truncated {α : Type} (result : Except WireError α) : Prop :=
  ∃ part needed left, left < needed ∧ result = .error (.truncated part needed left)

namespace ByteReader

variable {α β : Type}

/-! ### Too few bytes -/

/-- The reader finds `bytes` too short if any of them are cut off at the end, as long as the
first `n` are left. -/
def CutFrom (n : Nat) (p : ByteReader α) (bytes : List UInt8) : Prop :=
  ∀ start, start <+: bytes → start.length < bytes.length → n ≤ start.length →
    Truncated (p.run start)

namespace CutFrom

variable {m n : Nat} {p : ByteReader α} {f : α → ByteReader β} {first second : List UInt8} {a : α}

/-- No cut leaves as many bytes as there were. -/
theorem of_length_le {bytes : List UInt8} (h : bytes.length ≤ n) : CutFrom n p bytes := by
  intro start _ hlt hn
  omega

/-- Where a check comes first, nothing need be left. -/
theorem need {part : WirePart} {bytes : List UInt8} (h : CutFrom n p bytes) :
    CutFrom 0 (ByteReader.need part n >>= fun _ => p) bytes := by
  intro start hstart hlt _
  have hneed := run_need part n start
  by_cases hn : n ≤ start.length
  · rw [if_pos hn] at hneed
    rw [run_bind_ok hneed]
    exact h start hstart hlt hn
  · rw [if_neg hn] at hneed
    rw [run_bind_error hneed]
    exact ⟨part, n, start.length, Nat.lt_of_not_le hn, rfl⟩

/-- A cut behind what the first reader takes is a cut in what the second one takes. -/
theorem bind (hp : Reads p first a) (hf : CutFrom n (f a) second)
    (enough : first.length + n ≤ m) : CutFrom m (p >>= f) (first ++ second) := by
  intro start hstart hlt hm
  have hfirst : first <+: start :=
    List.prefix_of_prefix_length_le (List.prefix_append first second) hstart (by omega)
  obtain ⟨rest, rfl⟩ := hfirst
  rw [List.length_append, List.length_append] at hlt
  rw [List.length_append] at hm
  rw [run_bind_ok (hp rest)]
  exact hf rest ((List.prefix_append_right_inj first).mp hstart) (by omega) (by omega)

/-- If the first reader finds every cut in its own bytes, so do the two together. -/
theorem seq (hcut : CutFrom 0 p first) (hp : Reads p first a) (hf : CutFrom 0 (f a) second) :
    CutFrom 0 (p >>= f) (first ++ second) := by
  intro start hstart hlt hn
  by_cases hlong : first.length ≤ start.length
  · exact bind hp hf (Nat.le_refl _) start hstart hlt hlong
  · have hshort : start <+: first :=
      List.prefix_of_prefix_length_le hstart (List.prefix_append first second) (by omega)
    obtain ⟨part, needed, left, hless, hrun⟩ := hcut start hshort (by omega) hn
    exact ⟨part, needed, left, hless, run_bind_error hrun⟩

/-- What becomes of the result afterwards does not matter. -/
theorem map {bytes : List UInt8} (h : CutFrom n p bytes) (g : α → β) :
    CutFrom n (p >>= fun x => pure (g x)) bytes := by
  intro start hstart hlt hn
  obtain ⟨part, needed, left, hless, hrun⟩ := h start hstart hlt hn
  exact ⟨part, needed, left, hless, run_bind_error hrun⟩

theorem mono {bytes : List UInt8} (h : CutFrom m p bytes) (hle : m ≤ n) :
    CutFrom n p bytes :=
  fun start hstart hlt hn => h start hstart hlt (Nat.le_trans hle hn)

end CutFrom

/-! ### Never past the end -/

/-- The reader takes `n` bytes, whatever they are. -/
def Fits (n : Nat) (p : ByteReader α) : Prop :=
  ∀ bytes, n ≤ bytes.length → ∃ a rest, p.run bytes = .ok (a, rest) ∧ rest.length + n = bytes.length

/-- As long as `n` bytes are left to begin with, the reader never reads past the end. -/
def Within (n : Nat) (p : ByteReader α) : Prop :=
  ∀ bytes, n ≤ bytes.length → p.run bytes ≠ .error .pastEnd

namespace Fits

variable {m n : Nat} {p : ByteReader α} {f : α → ByteReader β}

theorem pure (a : α) : Fits 0 (Pure.pure a : ByteReader α) := fun bytes _ => ⟨a, bytes, rfl, rfl⟩

theorem bind (hp : Fits m p) (hf : ∀ a, Fits n (f a)) : Fits (m + n) (p >>= f) := by
  intro bytes hlength
  obtain ⟨a, middle, hfirst, hmiddle⟩ := hp bytes (by omega)
  obtain ⟨b, rest, hsecond, hrest⟩ := hf a middle (by omega)
  exact ⟨b, rest, (run_bind_ok hfirst).trans hsecond, by omega⟩

end Fits

namespace Within

variable {m n : Nat} {p : ByteReader α} {f : α → ByteReader β}

theorem pure (a : α) : Within n (Pure.pure a : ByteReader α) := fun _ _ h => nomatch h

theorem throw {e : WireError} (h : e ≠ .pastEnd) :
    Within n (MonadExcept.throw e : ByteReader α) := by
  intro bytes _ hrun
  cases hrun
  exact h rfl

/-- What the first reader takes is no longer left for the second one. -/
theorem bind (hp : Fits m p) (hf : ∀ a, Within n (f a)) : Within (m + n) (p >>= f) := by
  intro bytes hlength
  obtain ⟨a, middle, hfirst, hmiddle⟩ := hp bytes (by omega)
  rw [run_bind_ok hfirst]
  exact hf a middle (by omega)

/-- If the second reader relies on nothing, the first one may take any number of bytes. -/
theorem seq (hp : Within n p) (hf : ∀ a, Within 0 (f a)) : Within n (p >>= f) := by
  intro bytes hlength
  cases hrun : p.run bytes with
  | error e =>
    rw [run_bind_error hrun]
    rintro ⟨rfl⟩
    exact hp bytes hlength hrun
  | ok out =>
    rw [run_bind_ok hrun]
    exact hf out.1 out.2 (Nat.zero_le _)

/-- Where a check comes first, nothing need be left. -/
theorem need {part : WirePart} (h : Within n p) :
    Within 0 (ByteReader.need part n >>= fun _ => p) := by
  intro bytes _
  have hneed := run_need part n bytes
  by_cases hn : n ≤ bytes.length
  · rw [if_pos hn] at hneed
    rw [run_bind_ok hneed]
    exact h bytes hn
  · rw [if_neg hn] at hneed
    rw [run_bind_error hneed]
    rintro ⟨⟩

end Within

theorem fits_byte : Fits 1 byte := by
  intro bytes hlength
  match bytes with
  | a :: rest => exact ⟨a, rest, rfl, rfl⟩

theorem fits_word32 : Fits 4 word32 := by
  intro bytes hlength
  match bytes with
  | [] | [_] | [_, _] | [_, _, _] => simp at hlength
  | a :: b :: c :: d :: rest => exact ⟨Bytes.toWord32 a b c d, rest, rfl, rfl⟩

theorem fits_word64 : Fits 8 word64 :=
  fits_word32.bind fun _ => fits_word32.bind fun _ => Fits.pure _

theorem fits_int32 : Fits 4 int32 := fits_word32.bind fun _ => Fits.pure _

end ByteReader

namespace Wire

open ByteReader

/-! ### Snapshots -/

theorem fits_base : Fits itemLength readBase := by
  unfold readBase
  refine fits_word64.bind (n := 44) fun _ => ?_
  refine fits_int32.bind (n := 40) fun _ => ?_
  refine fits_int32.bind (n := 36) fun _ => ?_
  refine fits_int32.bind (n := 32) fun _ => ?_
  refine fits_int32.bind (n := 28) fun _ => ?_
  refine fits_int32.bind (n := 24) fun _ => ?_
  refine fits_int32.bind (n := 20) fun _ => ?_
  refine fits_int32.bind (n := 16) fun _ => ?_
  refine fits_int32.bind (n := 12) fun _ => ?_
  refine fits_word32.bind (n := 8) fun _ => ?_
  refine fits_int32.bind (n := 4) fun _ => ?_
  exact fits_int32.bind fun _ => Fits.pure _

theorem fits_block : Fits extraLength readBlock := by
  unfold readBlock
  refine fits_int32.bind (n := 16) fun _ => ?_
  refine fits_int32.bind (n := 12) fun _ => ?_
  refine fits_word32.bind (n := 8) fun _ => ?_
  refine fits_word32.bind (n := 4) fun _ => ?_
  exact fits_int32.bind fun _ => Fits.pure _

theorem within_extra (id : EntityId) : Within 0 (readExtra id) := by
  refine Within.need (Within.bind (n := 0) fits_byte fun marker => ?_)
  by_cases hnone : marker = 0
  · rw [if_pos hnone]
    exact Within.pure none
  rw [if_neg hnone]
  by_cases hsome : marker = 1
  · rw [if_pos hsome]
    exact Within.need (Within.bind (n := 0) fits_block fun _ => Within.pure _)
  · rw [if_neg hsome]
    exact Within.throw nofun

theorem within_item (version : UInt32) : Within 0 (readItem version) := by
  refine Within.need (Within.bind (n := 0) fits_base fun item => ?_)
  by_cases hlegacy : version = legacyVersion
  · rw [if_pos hlegacy]
    exact Within.pure item
  · rw [if_neg hlegacy]
    exact (within_extra item.id).seq fun _ => Within.pure _

theorem within_items (version : UInt32) (n : Nat) : Within 0 (readItems version n) := by
  induction n with
  | zero => exact Within.pure []
  | succ n ih => exact (within_item version).seq fun _ => ih.seq fun _ => Within.pure _

/-- Every word of a snapshot is taken from bytes that are there. -/
theorem within_snapshot : Within 0 readSnapshot := by
  refine Within.need (Within.bind (n := 8) fits_word32 fun version => ?_)
  by_cases hsupported : supported version = true
  · rw [if_pos hsupported]
    refine Within.bind (n := 4) fits_int32 fun tick => ?_
    refine Within.bind (n := 0) fits_word32 fun count => ?_
    refine Within.need fun bytes _ => ?_
    exact (within_items version count.toNat).seq (fun _ => Within.pure _) bytes (Nat.zero_le _)
  · rw [if_neg hsupported]
    exact Within.throw nofun

theorem cut_extra (id : EntityId) (extra : Option RecordExtra) :
    CutFrom 0 (readExtra id) (writeExtra extra) := by
  cases extra with
  | none => exact CutFrom.need (CutFrom.of_length_le (Nat.le_refl 1))
  | some e =>
    have hblock : CutFrom 0 (ByteReader.need .extraBlock extraLength >>= fun _ => do
        return some (← readBlock)) (writeBlock e) :=
      CutFrom.need (CutFrom.of_length_le (Nat.le_of_eq (length_writeBlock e)))
    exact CutFrom.need (CutFrom.bind (reads_byte 1) hblock (Nat.le_refl 1))

theorem cut_item (version : UInt32) (item : SnapshotItem) :
    CutFrom 0 (readItem version) (writeItem version item) := by
  unfold readItem writeItem
  by_cases hlegacy : version = legacyVersion
  · simp only [hlegacy, if_true]
    exact CutFrom.need (CutFrom.of_length_le (Nat.le_of_eq (length_writeBase item)))
  · simp only [hlegacy, if_false]
    refine CutFrom.need (CutFrom.bind (n := 0) (reads_base item) ?_ ?_)
    · exact (cut_extra item.id item.record.extra).map _
    · exact Nat.le_of_eq (length_writeBase item)

theorem cut_items (version : UInt32) (items : List SnapshotItem) :
    CutFrom 0 (readItems version items.length) (items.map (writeItem version)).flatten := by
  induction items with
  | nil => exact CutFrom.of_length_le (Nat.le_refl 0)
  | cons item rest ih => exact (cut_item version item).seq (reads_item version item) (ih.map _)

/-- An encoded snapshot that has lost bytes at its end is found too short, wherever the cut is. -/
theorem cut_snapshot {s : Snapshot} {version : UInt32} {bytes : List UInt8}
    (h : s.encode version = .ok bytes) : CutFrom 0 readSnapshot bytes := by
  obtain ⟨hsupported, hfew, rfl⟩ := Snapshot.encode_eq_ok.mp h
  have hcount : (UInt32.ofNat s.items.length).toNat = s.items.length :=
    UInt32.toNat_ofNat_of_lt' hfew
  have hitems : CutFrom 0 (ByteReader.need .items ((UInt32.ofNat s.items.length).toNat * itemLength)
      >>= fun _ => do
        let items ← readItems version (UInt32.ofNat s.items.length).toNat
        return ({ tick := s.tick, items } : Snapshot))
      (s.items.map (writeItem version)).flatten := by
    rw [hcount]
    exact CutFrom.need (((cut_items version s.items).map _).mono (Nat.zero_le _))
  unfold readSnapshot writeHeader
  refine CutFrom.need ?_
  simp only [List.append_assoc]
  refine CutFrom.bind (n := 8) (reads_word32 _) ?_ (Nat.le_refl 12)
  rw [if_pos hsupported]
  refine CutFrom.bind (n := 4) (reads_int32 _) ?_ (Nat.le_refl 8)
  exact CutFrom.bind (reads_word32 _) hitems (Nat.le_refl 4)

end Wire

namespace Snapshot

theorem decode_of_error {bytes : List UInt8} {e : WireError}
    (h : Wire.readSnapshot.run bytes = .error e) : decode bytes = .error e := by
  rw [decode, h]
  rfl

/-- What is left after a snapshot is not accepted. -/
theorem decode_of_left {bytes left : List UInt8} {s : Snapshot}
    (h : Wire.readSnapshot.run bytes = .ok (s, left)) (hne : left ≠ []) :
    decode bytes = .error (.trailing left.length) := by
  rw [decode, h]
  cases left with
  | nil => exact absurd rfl hne
  | cons => rfl

/-- The decoder never takes a word that is not there. -/
theorem decode_ne_pastEnd (bytes : List UInt8) : decode bytes ≠ .error .pastEnd := by
  intro h
  cases hrun : Wire.readSnapshot.run bytes with
  | error e =>
    rw [decode_of_error hrun] at h
    cases h
    exact Wire.within_snapshot bytes (Nat.zero_le _) hrun
  | ok out =>
    obtain ⟨s, left⟩ := out
    cases left with
    | nil =>
      rw [decode, hrun] at h
      cases h
    | cons b left =>
      rw [decode_of_left hrun (List.cons_ne_nil b left)] at h
      cases h

/-- **An encoded snapshot delimits itself.** With any bytes cut off at its end it is refused as
truncated, with any bytes added it is refused as having just so many trailing ones. And
whatever the bytes are, no word is read past their end. -/
theorem self_delimiting :
    (∀ (s : Snapshot) version bytes, s.encode version = .ok bytes →
      (∀ start, start <+: bytes → start ≠ bytes →
        ∃ part needed left, left < needed ∧
          decode start = .error (.truncated part needed left)) ∧
      ∀ more, more ≠ [] →
        decode (bytes ++ more) = .error (.trailing more.length) ∧
          (WireError.trailing more.length).message =
            s!"{more.length} trailing bytes after snapshot") ∧
    ∀ bytes, decode bytes ≠ .error .pastEnd := by
  refine ⟨fun s version bytes h => ⟨fun start hstart hne => ?_, fun more hmore => ?_⟩,
    decode_ne_pastEnd⟩
  · have hlt : start.length < bytes.length :=
      Nat.lt_of_le_of_ne hstart.length_le fun heq => hne (hstart.eq_of_length heq)
    obtain ⟨part, needed, left, hless, hrun⟩ :=
      Wire.cut_snapshot h start hstart hlt (Nat.zero_le _)
    exact ⟨part, needed, left, hless, decode_of_error hrun⟩
  · obtain ⟨hsupported, hfew, rfl⟩ := encode_eq_ok.mp h
    have hrun := Wire.reads_snapshot hsupported hfew more
    exact ⟨decode_of_left hrun hmore, rfl⟩

/-- A snapshot of one shot with an extension block, cut between its marker and the block, and
with two more bytes. -/
theorem self_delimiting_marked :
    let s : Snapshot :=
      { tick := 130, items := [⟨⟨9⟩, { (default : Record) with extra := some { bounces := 3 } }⟩] }
    ∃ bytes, s.encode 2 = .ok bytes ∧ bytes.take 65 <+: bytes ∧ bytes.take 65 ≠ bytes ∧
      (∃ part needed left, left < needed ∧
        decode (bytes.take 65) = .error (.truncated part needed left)) ∧
      decode (bytes ++ [0, 0]) = .error (.trailing 2) := by
  intro s
  have hencode : s.encode 2 = .ok _ := encode_eq_ok.mpr ⟨rfl, by decide, rfl⟩
  obtain ⟨hcut, hmore⟩ := self_delimiting.1 s 2 _ hencode
  refine ⟨_, hencode, List.take_prefix .., by decide, hcut _ (List.take_prefix ..) (by decide), ?_⟩
  exact (hmore [0, 0] (by decide)).1

end Snapshot

end Volley
