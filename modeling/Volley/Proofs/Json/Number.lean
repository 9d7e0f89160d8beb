/-
# Written integers are read

An integer of at most 64 bits comes back from its decimal digits, unsigned or after a minus
sign, whatever follows them: all that is asked is that what follows does not go on with the
number (`EndsNumber`).

Two facts carry this. Written digits do not begin with a needless zero (`toDigits_head`), and a
number that fits the word still fits it after each of its digits, so none is dropped
(`appendDigits_eq`).

Key definitions: `Json.EndsNumber`.
Key theorems: `Json.scanUnsigned_toDigits`, `Json.scanNumber_writeInt`.
-/
import Mathlib.Data.List.TakeDrop
import Volley.Json.Number
import Volley.Json.Writer

namespace Volley

/-! ### Digits -/

/-- Every digit of a number is the character of a number below the base. -/
theorem exists_of_mem_toDigits {b n : Nat} (hb : 1 < b) {c : Char} (h : c ∈ Nat.toDigits b n) :
    ∃ d < b, c = d.digitChar := by
  induction n using Nat.base_induction b hb with
  | single m hm =>
    rw [Nat.toDigits_of_lt_base hm, List.mem_singleton] at h
    exact ⟨m, hm, h⟩
  | digit m k hk hm ih =>
    rw [← Nat.toDigits_append_toDigits hb hm hk, Nat.toDigits_of_lt_base hk] at h
    obtain h | h := List.mem_append.mp h
    · exact ih h
    · exact ⟨k, hk, List.mem_singleton.mp h⟩

/-- A number is written without a zero before its other digits. -/
theorem toDigits_head {b n : Nat} (hb : 1 < b) (hn : 0 < n) :
    ∃ c rest, Nat.toDigits b n = c :: rest ∧ c ≠ '0' := by
  induction n using Nat.base_induction b hb with
  | single m hm =>
    refine ⟨m.digitChar, [], Nat.toDigits_of_lt_base hm, fun hzero => ?_⟩
    exact Nat.ne_of_gt hn (Nat.digitChar_eq_zero.mp hzero)
  | digit m k hk hm ih =>
    obtain ⟨c, rest, hdigits, hc⟩ := ih hm
    refine ⟨c, rest ++ Nat.toDigits b k, ?_, hc⟩
    rw [← Nat.toDigits_append_toDigits hb hm hk, hdigits, List.cons_append]

namespace Json

theorem le_ofDigitChars (word : Nat) (ds : List Char) : word ≤ Nat.ofDigitChars 10 ds word := by
  induction ds generalizing word with
  | nil => exact Nat.le_of_eq Nat.ofDigitChars_nil.symm
  | cons c ds ih =>
    rw [Nat.ofDigitChars_cons]
    refine Nat.le_trans ?_ (ih _)
    omega

/-- As long as the number fits the word, all digits are appended. -/
theorem appendDigits_eq {word : Nat} {ds : List Char}
    (h : Nat.ofDigitChars 10 ds word < UInt64.size) :
    appendDigits word ds = (Nat.ofDigitChars 10 ds word, ds.length) := by
  induction ds generalizing word with
  | nil => rw [Nat.ofDigitChars_nil]; rfl
  | cons c ds ih =>
    have hcons : Nat.ofDigitChars 10 (c :: ds) word =
        Nat.ofDigitChars 10 ds (word * 10 + digitValue c) := by
      rw [Nat.ofDigitChars_cons, Nat.mul_comm 10]
      rfl
    rw [hcons] at h ⊢
    -- The digits after this one make the number larger still, so it fits the word already.
    have hnext : word * 10 + digitValue c < UInt64.size :=
      Nat.lt_of_le_of_lt (le_ofDigitChars _ ds) h
    rw [appendDigits]
    simp only [if_pos hnext, ih h]
    rfl

theorem appendDigits_toDigits {n : Nat} (h : n < UInt64.size) :
    appendDigits 0 (Nat.toDigits 10 n) = (n, (Nat.toDigits 10 n).length) := by
  have hvalue : Nat.ofDigitChars 10 (Nat.toDigits 10 n) 0 = n := Nat.ofDigitChars_ten_toDigits
  rw [appendDigits_eq (by rwa [hvalue]), hvalue]

/-! ### Numbers -/

/-- What follows does not go on with a number. -/
def EndsNumber : List Char → Prop
  | [] => True
  | c :: _ => c.isDigit = false ∧ c ≠ '.' ∧ c ≠ 'e' ∧ c ≠ 'E'

theorem span_toDigits (n : Nat) {rest : List Char} (h : EndsNumber rest) :
    (Nat.toDigits 10 n ++ rest).span Char.isDigit = (Nat.toDigits 10 n, rest) := by
  have hdigits : ∀ c ∈ Nat.toDigits 10 n, c.isDigit = true := fun c hc =>
    Nat.isDigit_of_mem_toDigits (by decide) (Nat.le_refl 10) hc
  rw [List.span_eq_takeWhile_dropWhile, List.takeWhile_append_of_pos hdigits,
    List.dropWhile_append_of_pos hdigits]
  cases rest with
  | nil => rw [List.takeWhile_nil, List.dropWhile_nil, List.append_nil]
  | cons c rest =>
    rw [List.takeWhile_cons_of_neg (by simp [h.1]), List.dropWhile_cons_of_neg (by simp [h.1]),
      List.append_nil]

theorem scanTail_eq {negative : Bool} {word dropped : Nat} {rest : List Char}
    (h : EndsNumber rest) :
    scanTail negative word dropped rest = scanTail.scanWhole negative word dropped rest := by
  cases rest with
  | nil => rfl
  | cons c rest =>
    obtain ⟨-, hpoint, hsmall, hlarge⟩ := h
    unfold scanTail
    split
    · rename_i heq
      exact absurd (List.cons.inj heq).1 hpoint
    · rename_i heq
      cases heq
      simp [hsmall, hlarge]
    · rfl

/-- Digits without a needless zero are read to the end of the number. -/
theorem scanUnsigned_toDigits (negative : Bool) {n : Nat} (hn : n < UInt64.size)
    {rest : List Char} (h : EndsNumber rest) :
    scanUnsigned negative (Nat.toDigits 10 n ++ rest) =
      scanTail.scanWhole negative n 0 rest := by
  unfold scanUnsigned
  rw [span_toDigits n h]
  simp only
  split
  · exact absurd ‹_› Nat.toDigits_ne_nil
  · rename_i c tail hdigits
    obtain rfl | hpos := Nat.eq_zero_or_pos n
    · rw [Nat.toDigits_zero] at hdigits
      cases hdigits
    · obtain ⟨d, rest', hhead, hd⟩ := toDigits_head (b := 10) (by decide) hpos
      rw [hhead] at hdigits
      exact absurd (List.cons.inj hdigits).1 hd
  · rw [appendDigits_toDigits hn]
    simp only [Nat.sub_self]
    exact scanTail_eq h

/-- A written number begins with a digit. -/
theorem exists_toDigits_eq_cons (n : Nat) :
    ∃ c tail, Nat.toDigits 10 n = c :: tail ∧ c.isDigit = true := by
  cases hdigits : Nat.toDigits 10 n with
  | nil => exact absurd hdigits Nat.toDigits_ne_nil
  | cons c tail =>
    have hmem : c ∈ Nat.toDigits 10 n := by rw [hdigits]; exact List.mem_cons_self
    exact ⟨c, tail, rfl, Nat.isDigit_of_mem_toDigits (by decide) (Nat.le_refl 10) hmem⟩

theorem scanNumber_toDigits (n : Nat) (rest : List Char) :
    scanNumber (Nat.toDigits 10 n ++ rest) = scanUnsigned false (Nat.toDigits 10 n ++ rest) := by
  obtain ⟨c, tail, hdigits, hc⟩ := exists_toDigits_eq_cons n
  rw [hdigits, List.cons_append]
  unfold scanNumber
  split
  · rename_i heq
    rw [(List.cons.inj heq).1] at hc
    cases hc
  · rfl

/-- An integer of 64 bits, with a sign or without, is read from its digits. -/
theorem scanNumber_writeInt {n : Int} (low : -0x8000000000000000 ≤ n)
    (high : n < 0x10000000000000000) {rest : List Char} (h : EndsNumber rest) :
    scanNumber (writeInt n ++ rest) = .ok (.integer n, rest) := by
  have hsize : n.natAbs < UInt64.size := by
    have : UInt64.size = 2 ^ 64 := rfl
    omega
  unfold writeInt
  split
  · rename_i hneg
    have hread : scanNumber ('-' :: Nat.toDigits 10 n.natAbs ++ rest) =
        scanUnsigned true (Nat.toDigits 10 n.natAbs ++ rest) := rfl
    have hword : 0 < n.natAbs ∧ n.natAbs ≤ 0x8000000000000000 := by omega
    have hvalue : -(n.natAbs : Int) = n := by omega
    rw [hread, scanUnsigned_toDigits true hsize h, scanTail.scanWhole,
      if_neg (not_not_intro rfl), if_neg (by decide), if_pos hword, hvalue]
    rfl
  · rename_i hpos
    have hvalue : (n.natAbs : Int) = n := by omega
    rw [scanNumber_toDigits, scanUnsigned_toDigits false hsize h, scanTail.scanWhole,
      if_neg (not_not_intro rfl), if_pos (by decide), hvalue]
    rfl

end Json

end Volley
