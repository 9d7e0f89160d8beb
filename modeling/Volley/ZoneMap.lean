/-
# Maps of zones

A zone map lists some tune zones, each with a value, once and in ascending order. What is
found after a change is said by one lemma for each change.

Key definitions: `ZoneMap`, `ZoneMap.get?`, `ZoneMap.insert`, `ZoneMap.orInsert`,
`ZoneMap.modify`, `ZoneMap.ofList`.
Key theorems: `ZoneMap.get?_insert`, `ZoneMap.get?_orInsert`, `ZoneMap.get?_modify`.
-/

namespace Volley

/-- Zones with their values, each once and in ascending order. -/
structure ZoneMap (α : Type) where
  entries : List (UInt32 × α)
  ascending : entries.Pairwise (·.1 < ·.1)

namespace ZoneMap

variable {α : Type}

instance [BEq α] : BEq (ZoneMap α) := ⟨fun m m' => m.entries == m'.entries⟩

/-- The map without zones. -/
def empty : ZoneMap α := ⟨[], .nil⟩

/-- The value that is listed for a zone. -/
def get? (m : ZoneMap α) (zone : UInt32) : Option α := m.entries.lookup zone

/-- The zone is listed. -/
def contains (m : ZoneMap α) (zone : UInt32) : Bool := (m.get? zone).isSome

/-! ### Ascending entries -/

/-- Ascending entries, with `zone` set to `value`. -/
def insertEntry (zone : UInt32) (value : α) : List (UInt32 × α) → List (UInt32 × α)
  | [] => [(zone, value)]
  | entry :: rest =>
    if zone < entry.1 then (zone, value) :: entry :: rest
    else if zone = entry.1 then (zone, value) :: rest
    else entry :: insertEntry zone value rest

/-- Entries, with the value of `zone` changed by `f` if it is among them. -/
def modifyEntry (zone : UInt32) (f : α → α) (entries : List (UInt32 × α)) : List (UInt32 × α) :=
  entries.map fun entry => if entry.1 = zone then (entry.1, f entry.2) else entry

theorem mem_insertEntry {zone : UInt32} {value : α} {entry : UInt32 × α} :
    ∀ {entries : List (UInt32 × α)}, entry ∈ insertEntry zone value entries →
      entry.1 = zone ∨ entry ∈ entries
  | [], h => Or.inl (congrArg Prod.fst (List.mem_singleton.mp h))
  | first :: rest, h => by
    unfold insertEntry at h
    split at h
    · rcases List.mem_cons.mp h with rfl | h
      · exact Or.inl rfl
      · exact Or.inr h
    split at h
    · rcases List.mem_cons.mp h with rfl | h
      · exact Or.inl rfl
      · exact Or.inr (List.mem_cons_of_mem _ h)
    · rcases List.mem_cons.mp h with rfl | h
      · exact Or.inr List.mem_cons_self
      · exact (mem_insertEntry h).imp_right (List.mem_cons_of_mem _)

theorem pairwise_insertEntry (zone : UInt32) (value : α) :
    ∀ {entries : List (UInt32 × α)}, entries.Pairwise (·.1 < ·.1) →
      (insertEntry zone value entries).Pairwise (·.1 < ·.1)
  | [], _ => List.pairwise_singleton _ _
  | first :: rest, h => by
    obtain ⟨hfirst, hrest⟩ := List.pairwise_cons.mp h
    unfold insertEntry
    split
    · rename_i hbefore
      refine List.pairwise_cons.mpr ⟨fun entry hentry => ?_, h⟩
      rcases List.mem_cons.mp hentry with rfl | hentry
      · exact hbefore
      · exact UInt32.lt_trans hbefore (hfirst entry hentry)
    split
    · rename_i hsame
      refine List.pairwise_cons.mpr ⟨fun entry hentry => ?_, hrest⟩
      rw [hsame]
      exact hfirst entry hentry
    · rename_i hbefore hother
      refine List.pairwise_cons.mpr ⟨fun entry hentry => ?_, pairwise_insertEntry zone value hrest⟩
      rcases mem_insertEntry hentry with hzone | hentry
      · rw [hzone]
        exact UInt32.lt_of_le_of_ne (UInt32.not_lt.mp hbefore) (Ne.symm hother)
      · exact hfirst entry hentry

theorem pairwise_modifyEntry (zone : UInt32) (f : α → α) {entries : List (UInt32 × α)}
    (h : entries.Pairwise (·.1 < ·.1)) :
    (modifyEntry zone f entries).Pairwise (·.1 < ·.1) := by
  have hzone (entry : UInt32 × α) :
      (if entry.1 = zone then (entry.1, f entry.2) else entry).1 = entry.1 := by
    split <;> rfl
  refine List.pairwise_map.mpr (h.imp fun hlt => ?_)
  rw [hzone, hzone]
  exact hlt

theorem lookup_entry (zone : UInt32) (value : α) (rest : List (UInt32 × α)) (asked : UInt32) :
    List.lookup asked ((zone, value) :: rest) =
      if asked = zone then some value else rest.lookup asked := by
  rw [List.lookup_cons]
  by_cases h : asked = zone
  · rw [if_pos h, beq_iff_eq.mpr h]
  · rw [if_neg h, beq_false_of_ne h]

theorem lookup_insertEntry (zone : UInt32) (value : α) (entries : List (UInt32 × α))
    (asked : UInt32) :
    (insertEntry zone value entries).lookup asked =
      if asked = zone then some value else entries.lookup asked := by
  induction entries with
  | nil => exact lookup_entry zone value [] asked
  | cons entry rest ih =>
    obtain ⟨first, old⟩ := entry
    unfold insertEntry
    split
    · exact lookup_entry zone value ((first, old) :: rest) asked
    split
    · rename_i hsame
      have hsame : zone = first := hsame
      rw [lookup_entry, lookup_entry, ← hsame]
      by_cases hasked : asked = zone
      · rw [if_pos hasked, if_pos hasked]
      · rw [if_neg hasked, if_neg hasked, if_neg hasked]
    · rename_i hother
      have hother : zone ≠ first := hother
      rw [lookup_entry, lookup_entry, ih]
      by_cases hasked : asked = zone
      · rw [if_pos hasked, if_pos hasked, hasked, if_neg hother]
      · rw [if_neg hasked, if_neg hasked]

theorem lookup_modifyEntry (zone : UInt32) (f : α → α) (entries : List (UInt32 × α))
    (asked : UInt32) :
    (modifyEntry zone f entries).lookup asked =
      if asked = zone then (entries.lookup asked).map f else entries.lookup asked := by
  induction entries with
  | nil => simp [modifyEntry]
  | cons entry rest ih =>
    obtain ⟨first, old⟩ := entry
    have hcons : modifyEntry zone f ((first, old) :: rest) =
        (first, if first = zone then f old else old) :: modifyEntry zone f rest := by
      unfold modifyEntry
      rw [List.map_cons]
      split <;> rfl
    rw [hcons, lookup_entry, lookup_entry, ih]
    by_cases hasked : asked = first
    · rw [if_pos hasked, if_pos hasked, hasked]
      split <;> rfl
    · rw [if_neg hasked, if_neg hasked]

/-! ### Changes -/

/-- Lists a zone, in place of the entry that it may have had. -/
def insert (m : ZoneMap α) (zone : UInt32) (value : α) : ZoneMap α :=
  ⟨insertEntry zone value m.entries, pairwise_insertEntry zone value m.ascending⟩

/-- Lists a zone if it is not listed. -/
def orInsert (m : ZoneMap α) (zone : UInt32) (value : α) : ZoneMap α :=
  if m.contains zone then m else m.insert zone value

/-- Changes the value of a zone by `f`, if it is listed. -/
def modify (m : ZoneMap α) (zone : UInt32) (f : α → α) : ZoneMap α :=
  ⟨modifyEntry zone f m.entries, pairwise_modifyEntry zone f m.ascending⟩

/-- The map of some entries; of two for a zone the later one counts. -/
def ofList (entries : List (UInt32 × α)) : ZoneMap α :=
  entries.foldl (fun m entry => m.insert entry.1 entry.2) empty

variable (m : ZoneMap α) (zone : UInt32) (value : α) (f : α → α) (asked : UInt32)

@[simp] theorem get?_insert :
    (m.insert zone value).get? asked = if asked = zone then some value else m.get? asked :=
  lookup_insertEntry zone value m.entries asked

@[simp] theorem get?_orInsert :
    (m.orInsert zone value).get? asked =
      if asked = zone then some ((m.get? zone).getD value) else m.get? asked := by
  unfold orInsert contains
  cases hlisted : m.get? zone with
  | some own =>
    by_cases hasked : asked = zone
    · rw [if_pos hasked, hasked]
      exact hlisted
    · rw [if_neg hasked]
      rfl
  | none => exact get?_insert ..

@[simp] theorem get?_modify :
    (m.modify zone f).get? asked =
      if asked = zone then (m.get? asked).map f else m.get? asked :=
  lookup_modifyEntry zone f m.entries asked

@[simp] theorem contains_insert :
    (m.insert zone value).contains asked = (m.contains asked || asked = zone) := by
  rw [contains, get?_insert, contains]
  by_cases h : asked = zone <;> simp [h]

@[simp] theorem contains_orInsert :
    (m.orInsert zone value).contains asked = (m.contains asked || asked = zone) := by
  rw [contains, get?_orInsert, contains]
  by_cases h : asked = zone <;> simp [h]

@[simp] theorem contains_modify : (m.modify zone f).contains asked = m.contains asked := by
  rw [contains, get?_modify, contains]
  by_cases h : asked = zone <;> simp [h]

end ZoneMap

end Volley
