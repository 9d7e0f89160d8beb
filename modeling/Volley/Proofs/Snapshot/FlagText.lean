/-
# A set of behaviours survives its text

The parts of the text are words of letters and digits (`IsWord`): the names of the behaviours
and the number of the bits without one. Words hold neither bars nor space, so the text is
taken apart at the bars into the same words again, each with space around it
(`map_trim_splitBars`). Each word is read as what it was written for (`ofPart_of_mem_pieces`),
and together they are the set (`union_pieces`), whichever of its bits have a name.

Key definitions: `RecordFlags.IsWord`, `RecordFlags.pieces`.
Key theorems: `RecordFlags.map_trim_splitBars`, `RecordFlags.hexBits?_toDigits`,
`RecordFlags.ofText_toText`, `RecordFlags.reads_toText`.
-/
import Mathlib.Data.List.TakeWhile
import Mathlib.Data.Nat.Bitwise
import Mathlib.Tactic.IntervalCases
import Volley.Proofs.Json.Reading
import Volley.Snapshot.Text

namespace Volley

namespace RecordFlags

/-! ### Words -/

/-- A text of letters and digits. -/
def IsWord (s : List Char) : Prop := s ≠ [] ∧ ∀ c ∈ s, c.isAlphanum = true

section

variable {c : Char}

/-- Letters and digits lie between `0` and `z`. -/
theorem toNat_of_isAlphanum (h : c.isAlphanum = true) : 48 ≤ c.toNat ∧ c.toNat ≤ 122 := by
  have hval : c.toNat = c.val.toNat := rfl
  delta Char.isAlphanum Char.isAlpha Char.isUpper Char.isLower Char.isDigit at h
  simp only [Bool.or_eq_true, Bool.and_eq_true, decide_eq_true_eq, ge_iff_le,
    UInt32.le_iff_toNat_le, Char.reduceVal, UInt32.reduceToNat] at h
  omega

theorem isBlank_of_isAlphanum (h : c.isAlphanum = true) : Text.isBlank c = false := by
  obtain ⟨hlow, hhigh⟩ := toNat_of_isAlphanum h
  by_contra hblank
  simp [Text.isBlank, Text.inRanges, Text.blankRanges] at hblank
  omega

theorem isPlain_of_isAlphanum (h : c.isAlphanum = true) : Json.IsPlain c := by
  have hlow := (toNat_of_isAlphanum h).1
  refine ⟨?_, ?_, by omega⟩ <;> rintro rfl <;> cases h

/-- The digits of a number are letters and digits. -/
theorem isAlphanum_of_mem_toDigits {n : Nat} (h : c ∈ Nat.toDigits 16 n) :
    c.isAlphanum = true := by
  obtain ⟨d, hd, rfl⟩ := exists_of_mem_toDigits (by decide) h
  interval_cases d <;> rfl

end

section

variable {w : List Char}

theorem IsWord.bar (h : IsWord w) : '|' ∉ w := fun hmem => nomatch h.2 '|' hmem

theorem IsWord.reverse (h : IsWord w) : IsWord w.reverse :=
  ⟨fun hnil => h.1 (List.reverse_eq_nil_iff.mp hnil), fun c hc => h.2 c (List.mem_reverse.mp hc)⟩

theorem IsWord.dropWhile (h : IsWord w) (rest : List Char) :
    (w ++ rest).dropWhile Text.isBlank = w ++ rest := by
  obtain ⟨hne, hchars⟩ := h
  cases w with
  | nil => exact absurd rfl hne
  | cons c w =>
    have hblank := isBlank_of_isAlphanum (hchars c List.mem_cons_self)
    rw [List.cons_append, List.dropWhile_cons_of_neg (by rw [hblank]; decide)]

/-- Space after a word is trimmed. -/
theorem IsWord.trim_append (h : IsWord w) {tail : List Char}
    (hblank : ∀ c ∈ tail, Text.isBlank c = true) : Text.trim (w ++ tail) = w := by
  have hrest := h.reverse.dropWhile []
  rw [List.append_nil] at hrest
  rw [Text.trim, h.dropWhile, List.reverse_append,
    List.dropWhile_append_of_pos fun c hc => hblank c (List.mem_reverse.mp hc), hrest,
    List.reverse_reverse]

theorem IsWord.trim (h : IsWord w) : Text.trim w = w := by
  have htrim : Text.trim (w ++ []) = w := h.trim_append fun _ hc => nomatch hc
  rwa [List.append_nil] at htrim

end

theorem isBlank_space : Text.isBlank ' ' = true := by
  simp [Text.isBlank, Text.inRanges, Text.blankRanges]

/-- Space before a text is trimmed. -/
theorem trim_space (s : List Char) : Text.trim (' ' :: s) = Text.trim s := by
  rw [Text.trim, List.dropWhile_cons_of_pos isBlank_space]
  rfl

theorem isBlank_of_trim_eq_nil {s : List Char} (h : Text.trim s = []) :
    ∀ c ∈ s, Text.isBlank c = true := by
  have hdrop : ∀ c ∈ s.dropWhile Text.isBlank, Text.isBlank c = true := fun c hc =>
    List.dropWhile_eq_nil_iff.mp (List.reverse_eq_nil_iff.mp h) c (List.mem_reverse.mpr hc)
  intro c hc
  rw [← List.takeWhile_append_dropWhile (p := Text.isBlank) (l := s)] at hc
  obtain hc | hc := List.mem_append.mp hc
  · exact List.mem_takeWhile_imp hc
  · exact hdrop c hc

/-! ### Bars -/

theorem splitBars_ne_nil (s : List Char) : splitBars s ≠ [] := by
  cases s with
  | nil => exact List.cons_ne_nil _ _
  | cons c s =>
    rw [splitBars]
    split
    · exact List.cons_ne_nil _ _
    · split <;> exact List.cons_ne_nil _ _

/-- A character that is not a bar belongs to the first part. -/
theorem splitBars_cons {c : Char} (hc : c ≠ '|') (s : List Char) :
    ∃ part parts, splitBars s = part :: parts ∧ splitBars (c :: s) = (c :: part) :: parts := by
  obtain ⟨part, parts, hsplit⟩ := List.exists_cons_of_ne_nil (splitBars_ne_nil s)
  exact ⟨part, parts, hsplit, by rw [splitBars, if_neg hc, hsplit]⟩

theorem splitBars_of_not_mem {w : List Char} (h : '|' ∉ w) : splitBars w = [w] := by
  induction w with
  | nil => rfl
  | cons c w ih =>
    obtain ⟨hc, hw⟩ : '|' ≠ c ∧ '|' ∉ w := by simpa using h
    obtain ⟨part, parts, hsplit, hcons⟩ := splitBars_cons (Ne.symm hc) w
    rw [ih hw] at hsplit
    cases hsplit
    exact hcons

theorem splitBars_append {w : List Char} (h : '|' ∉ w) (s : List Char) :
    splitBars (w ++ '|' :: s) = w :: splitBars s := by
  induction w with
  | nil => rfl
  | cons c w ih =>
    obtain ⟨hc, hw⟩ : '|' ≠ c ∧ '|' ∉ w := by simpa using h
    obtain ⟨part, parts, hsplit, hcons⟩ := splitBars_cons (Ne.symm hc) (w ++ '|' :: s)
    rw [ih hw] at hsplit
    cases hsplit
    exact hcons

/-- Space before a text does not change its parts but for space. -/
theorem map_trim_splitBars_space (s : List Char) :
    (splitBars (' ' :: s)).map Text.trim = (splitBars s).map Text.trim := by
  obtain ⟨part, parts, hsplit, hcons⟩ := splitBars_cons (c := ' ') (by decide) s
  rw [hsplit, hcons, List.map_cons, List.map_cons, trim_space]

theorem joinBars_cons (w : List Char) {words : List (List Char)} (h : words ≠ []) :
    joinBars (w :: words) = w ++ ' ' :: '|' :: ' ' :: joinBars words := by
  rw [joinBars]
  exact h

/-- Joined words are the parts of the text, but for space. -/
theorem map_trim_splitBars {words : List (List Char)} (hne : words ≠ [])
    (h : ∀ w ∈ words, IsWord w) : (splitBars (joinBars words)).map Text.trim = words := by
  induction words with
  | nil => exact absurd rfl hne
  | cons w words ih =>
    obtain ⟨hw, hwords⟩ := List.forall_mem_cons.mp h
    by_cases hlast : words = []
    · rw [hlast, joinBars, splitBars_of_not_mem hw.bar, List.map_singleton, hw.trim]
    · have hjoin : joinBars (w :: words) = (w ++ [' ']) ++ '|' :: ' ' :: joinBars words := by
        simp [joinBars_cons w hlast]
      have hbar : '|' ∉ w ++ [' '] := by simp [hw.bar]
      rw [hjoin, splitBars_append hbar, List.map_cons, map_trim_splitBars_space,
        ih hlast hwords, hw.trim_append (by simp [isBlank_space])]

theorem mem_joinBars_of_mem {w : List Char} {c : Char} (h : c ∈ w) (words : List (List Char)) :
    c ∈ joinBars (w :: words) := by
  by_cases hlast : words = []
  · rwa [hlast, joinBars]
  · rw [joinBars_cons w hlast]
    exact List.mem_append_left _ h

/-- Text with a word in it does not consist of space. -/
theorem trim_joinBars_ne_nil {words : List (List Char)} (hne : words ≠ [])
    (h : ∀ w ∈ words, IsWord w) : Text.trim (joinBars words) ≠ [] := by
  obtain ⟨w, words, rfl⟩ := List.exists_cons_of_ne_nil hne
  obtain ⟨hchar, halphanum⟩ := h w List.mem_cons_self
  obtain ⟨c, hc⟩ := List.exists_mem_of_ne_nil w hchar
  intro htrim
  have hblank := isBlank_of_trim_eq_nil htrim c (mem_joinBars_of_mem hc words)
  rw [isBlank_of_isAlphanum (halphanum c hc)] at hblank
  cases hblank

/-- Joined words consist of the characters of the words, space and bars. -/
theorem mem_joinBars {words : List (List Char)} {c : Char} (h : c ∈ joinBars words) :
    c = ' ' ∨ c = '|' ∨ ∃ w ∈ words, c ∈ w := by
  induction words with
  | nil => cases h
  | cons w words ih =>
    by_cases hlast : words = []
    · rw [hlast, joinBars] at h
      exact .inr (.inr ⟨w, List.mem_cons_self, h⟩)
    · rw [joinBars_cons w hlast] at h
      simp only [List.mem_append, List.mem_cons] at h
      obtain h | rfl | rfl | rfl | h := h
      · exact .inr (.inr ⟨w, List.mem_cons_self, h⟩)
      · exact .inl rfl
      · exact .inr (.inl rfl)
      · exact .inl rfl
      · obtain hspace | hbar | ⟨v, hv, hc⟩ := ih h
        · exact .inl hspace
        · exact .inr (.inl hbar)
        · exact .inr (.inr ⟨v, List.mem_cons_of_mem w hv, hc⟩)

/-! ### Numbers -/

theorem hexValue?_digitChar {d : Nat} (h : d < 16) : Text.hexValue? d.digitChar = some d := by
  interval_cases d <;> rfl

theorem foldlM_hexValue? (n : Nat) :
    (Nat.toDigits 16 n).foldlM (fun n c => do return n * 16 + (← Text.hexValue? c)) 0 =
      some n := by
  induction n using Nat.base_induction 16 (by decide) with
  | single m hm =>
    rw [Nat.toDigits_of_lt_base hm, List.foldlM_cons, hexValue?_digitChar hm]
    simp
  | digit m k hk hm ih =>
    rw [← Nat.toDigits_append_toDigits (by decide) hm hk, List.foldlM_append, ih,
      Nat.toDigits_of_lt_base hk]
    simp [hexValue?_digitChar hk, Nat.mul_comm]

/-- A number of 32 bits is read from its hexadecimal digits. -/
theorem hexBits?_toDigits (n : UInt32) : hexBits? (Nat.toDigits 16 n.toNat) = some n := by
  have hne : (Nat.toDigits 16 n.toNat).isEmpty = false :=
    List.isEmpty_eq_false_iff.mpr Nat.toDigits_ne_nil
  have hlt : n.toNat < UInt32.size := n.toNat_lt
  simp only [hexBits?, foldlM_hexValue?, hne]
  show (if n.toNat < UInt32.size then some (UInt32.ofNat n.toNat) else none) = some n
  rw [if_pos hlt, UInt32.ofNat_toNat]

/-! ### Sets -/

/-- The words of a set and what each of them stands for. -/
def pieces (f : RecordFlags) : List (List Char × RecordFlags) :=
  names.filter (fun entry => f.contains entry.2)
    ++ if f.unnamed = 0 then []
      else [('0' :: 'x' :: Nat.toDigits 16 f.unnamed.toNat, ⟨f.unnamed⟩)]

theorem toText_eq (f : RecordFlags) : f.toText = joinBars (f.pieces.map (·.1)) := by
  unfold toText textParts pieces
  rw [List.map_append]
  split <;> rfl

theorem mem_pieces {f : RecordFlags} {piece : List Char × RecordFlags} (h : piece ∈ f.pieces) :
    piece ∈ names ∨ piece = ('0' :: 'x' :: Nat.toDigits 16 f.unnamed.toNat, ⟨f.unnamed⟩) := by
  obtain h | h := List.mem_append.mp h
  · exact .inl (List.mem_filter.mp h).1
  · split at h
    · cases h
    · exact .inr (List.mem_singleton.mp h)

theorem isWord_hex (n : Nat) : IsWord ('0' :: 'x' :: Nat.toDigits 16 n) := by
  refine ⟨List.cons_ne_nil _ _, fun c hc => ?_⟩
  obtain rfl | rfl | hc : c = '0' ∨ c = 'x' ∨ c ∈ Nat.toDigits 16 n := by simpa using hc
  · rfl
  · rfl
  · exact isAlphanum_of_mem_toDigits hc

theorem isWord_of_mem_names {entry : List Char × RecordFlags} (h : entry ∈ names) :
    IsWord entry.1 := by
  have hnames : ∀ entry ∈ names, IsWord entry.1 := by simp [names, IsWord]
  exact hnames entry h

theorem isWord_of_mem_pieces {f : RecordFlags} {w : List Char}
    (h : w ∈ f.pieces.map (·.1)) : IsWord w := by
  obtain ⟨piece, hpiece, rfl⟩ := List.mem_map.mp h
  obtain hname | rfl := mem_pieces hpiece
  · exact isWord_of_mem_names hname
  · exact isWord_hex _

theorem ofPart_hex (n : UInt32) :
    ofPart ('0' :: 'x' :: Nat.toDigits 16 n.toNat) = .ok ⟨n⟩ := by
  have hsign : ∀ rest, Nat.toDigits 16 n.toNat ≠ '+' :: rest := by
    intro rest hdigits
    have hplus : '+' ∈ Nat.toDigits 16 n.toNat := by rw [hdigits]; exact List.mem_cons_self
    exact nomatch isAlphanum_of_mem_toDigits hplus
  unfold ofPart
  rw [(isWord_hex n.toNat).trim]
  simp only
  rw [hexBits?_toDigits]

/-- Every word is read as what it stands for. -/
theorem ofPart_of_mem_pieces {f : RecordFlags} {piece : List Char × RecordFlags}
    (h : piece ∈ f.pieces) : ofPart piece.1 = .ok piece.2 := by
  obtain h | rfl := mem_pieces h
  · unfold ofPart
    rw [(isWord_of_mem_names h).trim]
    obtain rfl | rfl : piece = ("EXPLOSIVE".toList, explosive) ∨
        piece = ("FREEZE".toList, freeze) := by simpa [names] using h
    · rfl
    · rfl
  · exact ofPart_hex f.unnamed

/-- A flag with one bit is in a set or has nothing in common with it. -/
theorem and_eq_of_two_pow {m : UInt32} {i : Nat} (hm : m.toNat = 2 ^ i) (b : UInt32) :
    b &&& m = 0 ∨ b &&& m = m := by
  have hand : (b &&& m).toNat = (b.toNat.testBit i).toNat * 2 ^ i := by
    rw [UInt32.toNat_and, hm, Nat.and_two_pow]
  cases hbit : b.toNat.testBit i with
  | false =>
    refine .inl (UInt32.toNat_inj.mp ?_)
    rw [hand, hbit]
    exact Nat.zero_mul _
  | true =>
    refine .inr (UInt32.toNat_inj.mp ?_)
    rw [hand, hbit, hm]
    exact Nat.one_mul _

/-- A set consists of its behaviours and the bits without a name. -/
theorem bits_eq (f : RecordFlags) :
    f.bits &&& explosive.bits ||| f.bits &&& freeze.bits ||| f.unnamed = f.bits := by
  have hall : explosive.bits ||| freeze.bits ||| ~~~known.bits = -1 := by decide
  have hbits : f.bits &&& (explosive.bits ||| freeze.bits ||| ~~~known.bits) = f.bits := by
    rw [hall, UInt32.and_neg_one]
  rw [← UInt32.toBitVec_inj] at hbits ⊢
  simp only [UInt32.toBitVec_and, UInt32.toBitVec_or, BitVec.and_or_distrib_left] at hbits
  exact hbits

/-- Adding a behaviour if it is in the set adds what the two have in common. -/
theorem union_if_contains {f m : RecordFlags} {i : Nat} (hm : m.bits.toNat = 2 ^ i)
    (flags : RecordFlags) :
    (if f.contains m then flags.union m else flags) = ⟨flags.bits ||| f.bits &&& m.bits⟩ := by
  by_cases hmem : f.bits &&& m.bits = m.bits
  · rw [if_pos (by simpa [contains] using hmem), hmem]
    rfl
  · have hzero := (and_eq_of_two_pow hm f.bits).resolve_right hmem
    rw [if_neg (by simpa [contains] using hmem), hzero, UInt32.or_zero]

/-- All the words together are the set. -/
theorem union_pieces (f : RecordFlags) :
    f.pieces.foldl (fun flags piece => flags.union piece.2) empty = f := by
  have hnames : (names.filter fun entry => f.contains entry.2).foldl
      (fun flags piece => flags.union piece.2) empty =
      ⟨f.bits &&& explosive.bits ||| f.bits &&& freeze.bits⟩ := by
    rw [List.foldl_filter]
    simp only [names, List.foldl_cons, List.foldl_nil]
    rw [union_if_contains (m := explosive) (i := 0) rfl,
      union_if_contains (m := freeze) (i := 1) rfl]
    simp [empty]
  unfold pieces
  rw [List.foldl_append, hnames]
  split
  · rename_i hzero
    have hbits := bits_eq f
    rw [hzero, UInt32.or_zero] at hbits
    rw [List.foldl_nil, hbits]
  · exact congrArg RecordFlags.mk (bits_eq f)

/-! ### The text -/

theorem foldlM_ofPart {parts : List (List Char)} {pieces : List (List Char × RecordFlags)}
    (hparts : parts.map Text.trim = pieces.map (·.1))
    (hread : ∀ piece ∈ pieces, IsWord piece.1 ∧ ofPart piece.1 = .ok piece.2)
    (start : RecordFlags) :
    parts.foldlM (fun flags part => return flags.union (← ofPart part)) start =
      (.ok (pieces.foldl (fun flags piece => flags.union piece.2) start) :
        Except Json.Fault RecordFlags) := by
  induction pieces generalizing parts start with
  | nil =>
    rw [List.map_nil, List.map_eq_nil_iff] at hparts
    rw [hparts]
    rfl
  | cons piece pieces ih =>
    obtain ⟨part, parts, rfl⟩ : ∃ part rest, parts = part :: rest := by
      cases parts with
      | nil => cases hparts
      | cons part parts => exact ⟨part, parts, rfl⟩
    obtain ⟨htrim, hrest⟩ := List.cons.inj hparts
    obtain ⟨⟨hword, hpiece⟩, hpieces⟩ := List.forall_mem_cons.mp hread
    have hpart : ofPart part = .ok piece.2 := by
      rw [← hpiece]
      unfold ofPart
      rw [htrim, hword.trim]
    rw [List.foldlM_cons, hpart]
    exact ih hrest hpieces _

/-- **A set survives its text**, its bits without a name included. -/
theorem ofText_toText (f : RecordFlags) : ofText f.toText = .ok f := by
  rw [toText_eq]
  by_cases hnone : f.pieces = []
  · have hempty := union_pieces f
    rw [hnone, List.foldl_nil] at hempty
    rw [hnone, ← hempty]
    rfl
  · have hne : f.pieces.map (·.1) ≠ [] := fun hnil => hnone (List.map_eq_nil_iff.mp hnil)
    have hwords : ∀ w ∈ f.pieces.map (·.1), IsWord w := fun w => isWord_of_mem_pieces
    have htext := List.isEmpty_eq_false_iff.mpr (trim_joinBars_ne_nil hne hwords)
    unfold ofText
    rw [htext, if_neg (by decide), foldlM_ofPart (map_trim_splitBars hne hwords), union_pieces]
    intro piece hpiece
    exact ⟨hwords piece.1 (List.mem_map_of_mem hpiece), ofPart_of_mem_pieces hpiece⟩

/-- The names come first, and then one number for all bits without a name. -/
example : toText ⟨0x82000001⟩ = "EXPLOSIVE | 0x82000000".toList := by decide

theorem isPlain_of_mem_toText {f : RecordFlags} {c : Char} (h : c ∈ f.toText) :
    Json.IsPlain c := by
  rw [toText_eq] at h
  obtain rfl | rfl | ⟨w, hw, hc⟩ := mem_joinBars h
  · decide
  · decide
  · exact isPlain_of_isAlphanum ((isWord_of_mem_pieces hw).2 c hc)

open Json.Reader in
/-- A set is read from its text. -/
theorem reads_toText (f : RecordFlags) : Reads RecordFlags.read (Json.writeText f.toText) f := by
  intro rest hrest
  have htext := reads_text (s := f.toText) (fun _ => isPlain_of_mem_toText)
  rw [RecordFlags.read, run_bind_ok (htext _ rest hrest), String.toList_ofList, ofText_toText]
  rfl

end RecordFlags

end Volley
