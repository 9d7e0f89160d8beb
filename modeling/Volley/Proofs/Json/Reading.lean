/-
# Written values are read

`Reads p text a` says that a reader takes exactly this text from the front of whatever can
follow a value (a comma, a closing bracket or nothing, `Ends`), and gets `a`. Integers, plain
texts, null and arrays are read from what was written for them.

The members of an object are read one after the other, each into the field of its name. So a
structure is read from members that lead from the empty draft to its own, each by filling a
field that was still empty (`Fills`). The loops over elements and members have fuel enough,
since there are no more of them than characters (`length_le_separated`).

Key definitions: `Json.Ends`, `Json.separated`, `Json.Reader.Reads`, `Json.Reader.Fills`.
Key theorems: `Json.Reader.reads_integer`, `Json.Reader.reads_text`, `Json.Reader.reads_array`,
`Json.Reader.reads_struct`.
-/
import Volley.Json.Struct
import Volley.Proofs.Json.Number

namespace Volley
namespace Json

/-- What can follow a value. -/
def Ends : List Char → Prop
  | [] => True
  | c :: _ => c = ',' ∨ c = ']' ∨ c = Char.ofNat 0x7d

theorem Ends.endsNumber {rest : List Char} (h : Ends rest) : EndsNumber rest := by
  cases rest with
  | nil => trivial
  | cons c rest => obtain rfl | rfl | rfl := h <;> simp [EndsNumber]

/-- A character that a text holds as it is. -/
def IsPlain (c : Char) : Prop := c ≠ '"' ∧ c ≠ '\\' ∧ 0x20 ≤ c.toNat
deriving Decidable

/-- The beginning of a value that is not null. -/
def StartsValue : List Char → Prop
  | [] => False
  | c :: _ => Reader.isSpace c = false ∧ c ≠ ']' ∧ c ≠ 'n'

theorem StartsValue.ne_nil {text : List Char} (h : StartsValue text) : text ≠ [] := by
  rintro rfl
  exact h

theorem startsValue_writeObject (fields : List (String × List Char)) :
    StartsValue (writeObject fields) := ⟨rfl, by decide, by decide⟩

/-! ### Pieces between commas -/

/-- Pieces with commas before all of them, or before all but the first. -/
def separated : (first : Bool) → List (List Char) → List Char
  | _, [] => []
  | first, piece :: rest => (if first then piece else ',' :: piece) ++ separated false rest

theorem joinCommas_eq (pieces : List (List Char)) : joinCommas pieces = separated true pieces := by
  induction pieces with
  | nil => rfl
  | cons piece rest ih =>
    cases rest with
    | nil => exact (List.append_nil piece).symm
    | cons next rest =>
      rw [joinCommas, ih]
      · rfl
      · exact List.cons_ne_nil next rest

theorem length_le_separated (first : Bool) {pieces : List (List Char)}
    (h : ∀ piece ∈ pieces, piece ≠ []) : pieces.length ≤ (separated first pieces).length := by
  induction pieces generalizing first with
  | nil => exact Nat.zero_le _
  | cons piece rest ih =>
    obtain ⟨hpiece, hrest⟩ := List.forall_mem_cons.mp h
    have hlength := ih false hrest
    have hpos := List.length_pos_iff.mpr hpiece
    rw [separated, List.length_append, List.length_cons]
    split
    · omega
    · rw [List.length_cons]
      omega

/-- There are fewer pieces than steps of fuel. -/
theorem length_lt_fuel (first : Bool) {pieces : List (List Char)} (rest : List Char)
    (h : ∀ piece ∈ pieces, piece ≠ []) :
    pieces.length < (separated first pieces ++ rest).length + 1 := by
  have hlength := length_le_separated first h
  rw [List.length_append]
  omega

namespace Reader

variable {α β : Type}

theorem run_bind_ok {p : Reader α} {f : α → Reader β} {text rest : List Char} {a : α}
    (h : p.run text = .ok (a, rest)) : (p >>= f).run text = (f a).run rest := by
  rw [StateT.run_bind, h]
  rfl

theorem run_get (text : List Char) : (get : Reader (List Char)).run text = .ok (text, text) := rfl

theorem run_drop (c : Char) (rest : List Char) : drop.run (c :: rest) = .ok ((), rest) := rfl

theorem run_peek {c : Char} (hc : isSpace c = false) (rest : List Char) :
    peek.run (c :: rest) = .ok (c, c :: rest) := by
  have hspace : skipSpace.run (c :: rest) = .ok ((), c :: rest) := by
    show Except.ok ((), (c :: rest).dropWhile isSpace) = _
    rw [List.dropWhile_cons_of_neg (by rw [hc]; decide)]
  rw [peek, run_bind_ok hspace]
  rfl

theorem run_char {c : Char} (hc : isSpace c = false) (rest : List Char) :
    (char c).run (c :: rest) = .ok ((), rest) := by
  rw [char, run_bind_ok (run_peek hc rest), if_pos rfl]
  rfl

/-! ### Texts -/

theorem scanText_cons {c : Char} (hc : IsPlain c) (rest : List Char) :
    scanText (c :: rest) = (scanText rest).map fun read => (c :: read.1, read.2) := by
  obtain ⟨hquote, hslash, hvisible⟩ := hc
  rw [scanText.eq_def]
  -- A plain character is the last case. All before it begin with the closing mark or a backslash.
  split
  case h_6 heq =>
    cases heq
    have hvisible' : ¬c.toNat < 0x20 := Nat.not_lt.mpr hvisible
    rw [if_neg (by simp [hvisible', hslash])]
    cases scanText rest <;> rfl
  case h_1 heq => cases heq
  case h_2 heq => exact absurd (List.cons.inj heq).1 hquote
  all_goals
    rename_i heq
    exact absurd (List.cons.inj heq).1 hslash

theorem scanText_plain {s : List Char} (h : ∀ c ∈ s, IsPlain c) (rest : List Char) :
    scanText (s ++ '"' :: rest) = .ok (s, rest) := by
  induction s with
  | nil => rfl
  | cons c s ih =>
    obtain ⟨hc, hs⟩ := List.forall_mem_cons.mp h
    rw [List.cons_append, scanText_cons hc, ih hs]
    rfl

theorem run_textBody {s : List Char} (h : ∀ c ∈ s, IsPlain c) (rest : List Char) :
    textBody.run (s ++ '"' :: rest) = .ok (String.ofList s, rest) := by
  rw [textBody, run_bind_ok (run_get _), scanText_plain h]
  rfl

/-! ### Values -/

/-- The reader takes exactly `text` from the front of whatever can follow a value, and gets `a`. -/
def Reads (p : Reader α) (text : List Char) (a : α) : Prop :=
  ∀ rest, Ends rest → p.run (text ++ rest) = .ok (a, rest)

/-- The result of a reader goes through a function. -/
theorem Reads.map {p : Reader α} {text : List Char} {a : α} (h : Reads p text a) (f : α → β) :
    Reads (p >>= fun x => pure (f x)) text (f a) := by
  intro rest hrest
  rw [run_bind_ok (h rest hrest)]
  rfl

theorem isSpace_of_isDigit {c : Char} (h : c.isDigit = true) : isSpace c = false := by
  unfold isSpace
  by_contra hspace
  simp only [Bool.not_eq_false, Bool.or_eq_true, decide_eq_true_eq, or_assoc] at hspace
  obtain rfl | rfl | rfl | rfl := hspace <;> cases h

/-- The first character of a written integer starts a number. -/
theorem exists_writeInt_eq_cons (n : Int) :
    ∃ c tail, writeInt n = c :: tail ∧ isSpace c = false ∧ startsNumber c = true := by
  obtain ⟨c, tail, hdigits, hc⟩ := exists_toDigits_eq_cons n.natAbs
  unfold writeInt
  split
  · exact ⟨'-', _, rfl, rfl, rfl⟩
  · exact ⟨c, tail, hdigits, isSpace_of_isDigit hc, by rw [startsNumber, hc, Bool.or_true]⟩

/-- An integer between the bounds is read, if the bounds lie in the range of numbers. -/
theorem reads_integer {low high n : Int} (expected : String) (hlow : -0x8000000000000000 ≤ low)
    (hhigh : high < 0x10000000000000000) (hn : low ≤ n ∧ n ≤ high) :
    Reads (integer low high expected) (writeInt n) n := by
  intro rest hrest
  have hscan : scanNumber (writeInt n ++ rest) = .ok (.integer n, rest) :=
    scanNumber_writeInt (by omega) (by omega) hrest.endsNumber
  have hnumber : number.run (writeInt n ++ rest) = .ok (.integer n, rest) := by
    rw [number, run_bind_ok (run_get _), hscan]
    rfl
  obtain ⟨c, tail, htext, hspace, hstart⟩ := exists_writeInt_eq_cons n
  rw [htext, List.cons_append] at hnumber ⊢
  rw [integer, run_bind_ok (run_peek hspace _), if_pos hstart, run_bind_ok hnumber,
    checkInteger, if_pos hn]
  rfl

theorem reads_int32 (n : Int32) : Reads int32 (writeInt n.toInt) n := by
  have hn : -2147483648 ≤ n.toInt ∧ n.toInt ≤ 2147483647 := ⟨n.le_toInt, n.toInt_le⟩
  have hread := (reads_integer "i32" (by decide) (by decide) hn).map Int32.ofInt
  rwa [Int32.ofInt_toInt] at hread

theorem reads_uint32 (n : UInt32) : Reads uint32 (writeInt n.toNat) n := by
  have hn : (0 : Int) ≤ n.toNat ∧ (n.toNat : Int) ≤ 4294967295 := by
    have := n.toNat_lt
    omega
  have hread := (reads_integer "u32" (by decide) (by decide) hn).map
    fun value => UInt32.ofNat value.toNat
  rwa [Int.toNat_natCast, UInt32.ofNat_toNat] at hread

theorem reads_uint64 (n : UInt64) : Reads uint64 (writeInt n.toNat) n := by
  have hn : (0 : Int) ≤ n.toNat ∧ (n.toNat : Int) ≤ 18446744073709551615 := by
    have := n.toNat_lt
    omega
  have hread := (reads_integer "u64" (by decide) (by decide) hn).map
    fun value => UInt64.ofNat value.toNat
  rwa [Int.toNat_natCast, UInt64.ofNat_toNat] at hread

/-- A text of plain characters is read. -/
theorem reads_text {s : List Char} (h : ∀ c ∈ s, IsPlain c) (expected : String) :
    Reads (text expected) (writeText s) (String.ofList s) := by
  intro rest _
  have hwritten : writeText s ++ rest = '"' :: (s ++ '"' :: rest) := by simp [writeText]
  rw [hwritten, text, run_bind_ok (run_peek rfl _), if_pos rfl, run_bind_ok (run_drop _ _)]
  exact run_textBody h rest

/-- Null is read as nothing, and any other value as itself. -/
theorem reads_nullable {read : Reader α} {write : α → List Char} (a : Option α)
    (hread : ∀ b, a = some b → Reads read (write b) b ∧ StartsValue (write b)) :
    Reads (nullable read) ((a.map write).getD ['n', 'u', 'l', 'l']) a := by
  intro rest hrest
  cases a with
  | none =>
    have hword : (word ['n', 'u', 'l', 'l']).run ('n' :: 'u' :: 'l' :: 'l' :: rest) =
        .ok ((), rest) := rfl
    show (nullable read).run ('n' :: 'u' :: 'l' :: 'l' :: rest) = _
    rw [nullable, run_bind_ok (run_peek rfl _), if_pos rfl, run_bind_ok hword]
    rfl
  | some b =>
    obtain ⟨hb, hstart⟩ := hread b rfl
    have hmap := (hb.map some) rest hrest
    rw [Option.map_some, Option.getD_some]
    cases htext : write b with
    | nil => rw [htext] at hstart; exact hstart.elim
    | cons c tail =>
      rw [htext] at hstart hmap
      rw [List.cons_append] at hmap ⊢
      rw [nullable, run_bind_ok (run_peek hstart.1 _), if_neg hstart.2.2]
      exact hmap

/-! ### Arrays -/

theorem run_moreElements_end (first : Bool) (rest : List Char) :
    (moreElements first).run (']' :: rest) = .ok (false, ']' :: rest) := by
  rw [moreElements, run_bind_ok (run_peek rfl _), if_pos rfl]
  rfl

theorem run_moreElements (first : Bool) {text : List Char} (h : StartsValue text)
    (rest : List Char) :
    (moreElements first).run ((if first then text else ',' :: text) ++ rest) =
      .ok (true, text ++ rest) := by
  cases text with
  | nil => exact h.elim
  | cons c tail =>
    obtain ⟨hspace, hend, -⟩ := h
    cases first with
    | true =>
      show (moreElements true).run (c :: (tail ++ rest)) = _
      rw [moreElements, run_bind_ok (run_peek hspace _), if_neg hend, if_pos rfl]
      rfl
    | false =>
      show (moreElements false).run (',' :: c :: (tail ++ rest)) = _
      rw [moreElements, run_bind_ok (run_peek rfl _), if_neg (by decide), if_neg (by decide),
        if_pos rfl, run_bind_ok (run_drop _ _), run_bind_ok (run_peek hspace _), if_neg hend]
      rfl

theorem ends_separated (pieces : List (List Char)) {c : Char} (rest : List Char)
    (hc : c = ']' ∨ c = Char.ofNat 0x7d) : Ends (separated false pieces ++ c :: rest) := by
  cases pieces with
  | nil => exact .inr hc
  | cons piece pieces => exact .inl rfl

theorem run_elements {read : Reader α} {write : α → List Char} {list : List α}
    (hread : ∀ a ∈ list, Reads read (write a) a ∧ StartsValue (write a)) {fuel : Nat}
    (enough : list.length < fuel) (first : Bool) (rest : List Char) :
    (elements read fuel first).run (separated first (list.map write) ++ ']' :: rest) =
      .ok (list, ']' :: rest) := by
  induction list generalizing fuel first with
  | nil =>
    obtain ⟨fuel, rfl⟩ := Nat.exists_eq_add_one_of_ne_zero (Nat.ne_zero_of_lt enough)
    show (elements read (fuel + 1) first).run (']' :: rest) = _
    rw [elements, run_bind_ok (run_moreElements_end first rest)]
    rfl
  | cons a list ih =>
    obtain ⟨fuel, rfl⟩ := Nat.exists_eq_add_one_of_ne_zero (Nat.ne_zero_of_lt enough)
    obtain ⟨⟨ha, hstart⟩, hlist⟩ := List.forall_mem_cons.mp hread
    rw [List.map_cons, separated, List.append_assoc, elements,
      run_bind_ok (run_moreElements first hstart _), if_pos rfl,
      run_bind_ok (ha _ (ends_separated _ rest (.inl rfl))),
      run_bind_ok (ih hlist (Nat.lt_of_succ_lt_succ enough) false)]
    rfl

/-- An array is read, if each of its elements is. -/
theorem reads_array {read : Reader α} {write : α → List Char} {list : List α}
    (hread : ∀ a ∈ list, Reads read (write a) a ∧ StartsValue (write a)) :
    Reads (array read) (writeArray (list.map write)) list := by
  intro rest _
  let body := separated true (list.map write) ++ ']' :: rest
  have hwritten : writeArray (list.map write) ++ rest = '[' :: body := by
    simp [body, writeArray, joinCommas_eq]
  have hne : ∀ piece ∈ list.map write, piece ≠ [] := by
    intro piece hpiece
    obtain ⟨a, ha, rfl⟩ := List.mem_map.mp hpiece
    exact (hread a ha).2.ne_nil
  have enough := length_lt_fuel true (']' :: rest) hne
  rw [List.length_map] at enough
  rw [hwritten, array, run_bind_ok (run_peek rfl _), if_pos rfl, run_bind_ok (run_drop _ _),
    run_bind_ok (run_get _), run_bind_ok (run_elements hread enough true rest),
    run_bind_ok (run_char rfl rest)]
  rfl

/-! ### Structures -/

theorem run_moreMembers_end (first : Bool) (rest : List Char) :
    (moreMembers first).run (Char.ofNat 0x7d :: rest) = .ok (false, Char.ofNat 0x7d :: rest) := by
  rw [moreMembers, run_bind_ok (run_peek rfl _), if_pos rfl]
  rfl

theorem run_moreMembers (first : Bool) (text rest : List Char) :
    (moreMembers first).run ((if first then '"' :: text else ',' :: '"' :: text) ++ rest) =
      .ok (true, text ++ rest) := by
  cases first with
  | true =>
    show (moreMembers true).run ('"' :: (text ++ rest)) = _
    rw [moreMembers, run_bind_ok (run_peek rfl _), if_neg (by decide), if_pos rfl,
      run_bind_ok (run_char rfl _)]
    rfl
  | false =>
    show (moreMembers false).run (',' :: '"' :: (text ++ rest)) = _
    rw [moreMembers, run_bind_ok (run_peek rfl _), if_neg (by decide), if_neg (by decide),
      run_bind_ok (run_char rfl _), run_bind_ok (run_char rfl _)]
    rfl

/-- The members fill the fields of a draft, one after the other and none of them twice. -/
inductive Fills {δ : Type} (fields : List (Field δ)) : δ → List (String × List Char) → δ → Prop
  | done (draft : δ) : Fills fields draft [] draft
  | member {draft next final : δ} {name : String} {value : List Char}
    {rest : List (String × List Char)} {field : Field δ}
    (found : fields.find? (·.name = name) = some field) (fresh : field.isSet draft = false)
    (value_reads : Reads (field.read draft) value next) (more : Fills fields next rest final) :
    Fills fields draft ((name, value) :: rest) final

theorem Fills.run_members {δ : Type} {fields : List (Field δ)} {draft final : δ}
    {entries : List (String × List Char)} (h : Fills fields draft entries final)
    (plain : ∀ field ∈ fields, ∀ c ∈ field.name.toList, IsPlain c) {fuel : Nat}
    (enough : entries.length < fuel) (first : Bool) (rest : List Char) :
    (members fields fuel first draft).run
      (separated first (entries.map fun f => writeMember f.1 f.2) ++ Char.ofNat 0x7d :: rest) =
      .ok (final, Char.ofNat 0x7d :: rest) := by
  -- Along the members: each is read up to the comma or bracket after it, and the rest follows.
  induction h generalizing fuel first with
  | done draft =>
    obtain ⟨fuel, rfl⟩ := Nat.exists_eq_add_one_of_ne_zero (Nat.ne_zero_of_lt enough)
    show (members fields (fuel + 1) first draft).run (Char.ofNat 0x7d :: rest) = _
    rw [members, run_bind_ok (run_moreMembers_end first rest)]
    rfl
  | @member draft next final name value entries field found fresh value_reads more ih =>
    obtain ⟨fuel, rfl⟩ := Nat.exists_eq_add_one_of_ne_zero (Nat.ne_zero_of_lt enough)
    let tail := separated false (entries.map fun f => writeMember f.1 f.2) ++
      Char.ofNat 0x7d :: rest
    have hpiece : writeMember name value = '"' :: (name.toList ++ '"' :: ':' :: value) := by
      simp [writeMember, writeText]
    have hname : textBody.run ((name.toList ++ '"' :: ':' :: value) ++ tail) =
        .ok (name, ':' :: (value ++ tail)) := by
      have hfield : field.name = name := of_decide_eq_true (List.find?_some found :)
      have hplain := plain field (List.mem_of_find?_eq_some found)
      rw [hfield] at hplain
      have hread := run_textBody hplain (':' :: (value ++ tail))
      rw [String.ofList_toList] at hread
      rw [List.append_assoc]
      exact hread
    rw [List.map_cons, separated, List.append_assoc, hpiece, members,
      run_bind_ok (run_moreMembers first _ _), if_pos rfl, run_bind_ok hname]
    simp only [found, fresh]
    rw [if_neg (by decide), run_bind_ok (run_char rfl _),
      run_bind_ok (value_reads tail (ends_separated _ rest (.inr rfl)))]
    exact ih (Nat.lt_of_succ_lt_succ enough) false

/-- A member that must be there is read into its field. -/
theorem reads_field {δ : Type} {name : String} {get : δ → Option β} {set : δ → β → δ}
    {read : Reader β} {value : List Char} {b : β} (h : Reads read value b) (draft : δ) :
    Reads ((Field.of name get set read).read draft) value (set draft b) :=
  h.map (set draft)

/-- A structure is read, if its members fill a draft of it. -/
theorem reads_struct {α δ : Type} {fields : List (Field δ)} {start : δ}
    {finish : δ → Except Fault α} {entries : List (String × List Char)} {a : α} (name : String)
    (draft : δ) (plain : ∀ field ∈ fields, ∀ c ∈ field.name.toList, IsPlain c)
    (h : Fills fields start entries draft) (finished : finish draft = .ok a) :
    Reads (struct name fields start finish) (writeObject entries) a := by
  intro rest _
  let body := separated true (entries.map fun f => writeMember f.1 f.2) ++ Char.ofNat 0x7d :: rest
  have hwritten : writeObject entries ++ rest = Char.ofNat 0x7b :: body := by
    simp [body, writeObject, joinCommas_eq]
  have hne : ∀ piece ∈ entries.map fun f => writeMember f.1 f.2, piece ≠ [] := by
    intro piece hpiece
    obtain ⟨f, -, rfl⟩ := List.mem_map.mp hpiece
    exact List.cons_ne_nil _ _
  have enough := length_lt_fuel true (Char.ofNat 0x7d :: rest) hne
  rw [List.length_map] at enough
  rw [hwritten, struct, run_bind_ok (run_peek rfl _), if_pos rfl, run_bind_ok (run_drop _ _),
    run_bind_ok (run_get _), run_bind_ok (h.run_members plain enough true rest)]
  have hfinish : (liftM (finish draft) : Reader α).run (Char.ofNat 0x7d :: rest) =
      .ok (a, Char.ofNat 0x7d :: rest) := by
    rw [finished]
    rfl
  rw [run_bind_ok hfinish, run_bind_ok (run_char rfl rest)]
  rfl

end Reader
end Json
end Volley
