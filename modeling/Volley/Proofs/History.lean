/-
# What a history remembers

A history looks at its newest snapshot alone to tell whether another one is new. That is
enough: the newest one is never forgotten, not even by a history that keeps a single
snapshot, and it is later than all that came before. So a history knows about every snapshot
that it ever took (`Remembers.accepts_iff`). Clearing it starts this over, so what it holds
after any run is the end of what it took since it was last cleared (`keeps_newest`).

Key definitions: `History.Remembers`, `History.takenIn`.
Key theorems: `History.interpolate_concat`, `History.Remembers.accepts_iff`,
`History.Remembers.push`, `History.remembers_play`, `History.keeps_newest`.
-/
import Mathlib.Data.List.Basic
import Volley.History

namespace Volley

namespace History

/-- The history of a given capacity has taken the snapshots `taken`, each later than those
before it, and holds the last ones of them. -/
structure Remembers (capacity : Nat) (h : History) (taken : List Snapshot) : Prop where
  kept : h.capacity = max capacity 1
  held : h.snapshots = taken.drop (taken.length - max capacity 1)
  rising : taken.Pairwise (·.tick < ·.tick)

theorem remembers_new (capacity : Nat) : Remembers capacity (History.new capacity) [] where
  kept := rfl
  held := List.drop_nil.symm
  rising := List.Pairwise.nil

/-- What a full history forgets when it takes one more is what it would have forgotten of all
that it ever took. -/
theorem drop_concat {α : Type} {taken held : List α} {n : Nat}
    (h : held = taken.drop (taken.length - n)) (a : α) :
    (held ++ [a]).drop ((held ++ [a]).length - n) =
      (taken ++ [a]).drop ((taken ++ [a]).length - n) := by
  have hsplit : held ++ [a] = (taken ++ [a]).drop (taken.length - n) := by
    rw [h, List.drop_append_of_le_length (Nat.sub_le _ _)]
  rw [hsplit, List.drop_drop]
  congr 1
  simp only [List.length_drop, List.length_append, List.length_singleton]
  omega

/-- Between its two newest snapshots a history interpolates a shot that both list. -/
theorem interpolate_concat {h : History} {earlier : List Snapshot} {newest : Snapshot}
    (held : h.snapshots = earlier ++ [newest]) (id : EntityId) (t : Scalar) :
    h.interpolate id t = (earlier.getLast?.bind (·.find? id)).bind fun a =>
      (newest.find? id).map fun b => a.position.lerp b.position t := by
  unfold interpolate
  rw [held, List.reverse_append, List.reverse_singleton, List.singleton_append]
  rcases List.eq_nil_or_concat earlier with rfl | ⟨before, older, rfl⟩
  · rfl
  · rw [List.concat_eq_append, List.reverse_append, List.reverse_singleton,
      List.singleton_append, List.getLast?_concat, Option.bind_some]
    show ((older.find? id).bind fun a => (newest.find? id).bind fun b =>
      some (a.position.lerp b.position t)) = _
    simp only [Option.map_eq_bind, Function.comp_def]

theorem record?_concat {h : History} {earlier : List Snapshot} {newest : Snapshot}
    (held : h.snapshots = earlier ++ [newest]) (id : EntityId) :
    h.record? id = newest.find? id := by
  rw [record?, History.latest?, held, List.getLast?_concat, Option.bind_some]

namespace Remembers

variable {capacity : Nat} {h : History} {taken : List Snapshot}

/-- The newest snapshot is never forgotten. -/
theorem latest? (r : Remembers capacity h taken) : h.latest? = taken.getLast? := by
  rw [History.latest?, r.held, List.getLast?_drop]
  split
  · rename_i hshort
    have hnil : taken = [] := List.length_eq_zero_iff.mp (by omega)
    rw [hnil, List.getLast?_nil]
  · rfl

/-- **A history refuses whatever is not later than all that it ever took.** -/
theorem accepts_iff (r : Remembers capacity h taken) (s : Snapshot) :
    h.accepts s = true ↔ ∀ t ∈ taken, t.tick < s.tick := by
  rw [History.accepts, r.latest?]
  cases hlast : taken.getLast? with
  | none =>
    rw [List.getLast?_eq_none_iff] at hlast
    simp [hlast]
  | some newest =>
    obtain ⟨earlier, rfl⟩ := List.getLast?_eq_some_iff.mp hlast
    have hrising := (List.pairwise_append.mp r.rising).2.2
    constructor
    · intro hnew t ht
      have hnew : newest.tick < s.tick := by simpa using hnew
      rcases List.mem_append.mp ht with ht | ht
      · exact Int32.lt_trans (hrising t ht newest (List.mem_singleton_self _)) hnew
      · rw [List.mem_singleton.mp ht]
        exact hnew
    · intro hall
      have hnew : newest.tick < s.tick := hall newest (by simp)
      simpa using hnew

/-- What a history takes, it remembers. -/
theorem push (r : Remembers capacity h taken) {s : Snapshot} (accepted : h.accepts s = true) :
    Remembers capacity (h.push s).2 (taken ++ [s]) where
  kept := by
    rw [History.push, if_pos accepted]
    exact r.kept
  held := by
    rw [History.push, if_pos accepted]
    simp only [r.kept]
    exact drop_concat r.held s
  rising := by
    refine List.pairwise_append.mpr ⟨r.rising, List.pairwise_singleton _ _, fun t ht s' hs' => ?_⟩
    rw [List.mem_singleton.mp hs']
    exact (r.accepts_iff s).mp accepted t ht

/-- What a history does not take, it does not change for. -/
theorem refuse (r : Remembers capacity h taken) {s : Snapshot} (refused : ¬ h.accepts s = true) :
    Remembers capacity (h.push s).2 taken := by
  rw [History.push, if_neg refused]
  exact r

/-- A cleared history has taken nothing, and may take any tick again. -/
theorem clear (r : Remembers capacity h taken) : Remembers capacity h.clear [] where
  kept := r.kept
  held := List.drop_nil.symm
  rising := List.Pairwise.nil

/-- What is held is the end of what was taken. -/
theorem suffix (r : Remembers capacity h taken) : h.snapshots <:+ taken := by
  rw [r.held]
  exact List.drop_suffix _ _

theorem length_eq (r : Remembers capacity h taken) :
    h.snapshots.length = min taken.length (max capacity 1) := by
  rw [r.held, List.length_drop]
  omega

end Remembers

/-! ### Runs -/

theorem push_fst (h : History) (s : Snapshot) : (h.push s).1 = h.accepts s := by
  unfold push
  split <;> simp [*]

/-- What can be done with a history. -/
inductive Action where
  | push (s : Snapshot)
  | clear

/-- The history after an action. -/
def act (h : History) : Action → History
  | .push s => (h.push s).2
  | .clear => h.clear

/-- The history after a run. -/
def play (h : History) (as : List Action) : History := as.foldl act h

/-- What a history says that it took since it was last cleared, after an action. -/
def taking (h : History) (taken : List Snapshot) : Action → List Snapshot
  | .push s => if (h.push s).1 then taken ++ [s] else taken
  | .clear => []

/-- What a history says that it took since it was last cleared, after a run. -/
def takenIn : History → List Snapshot → List Action → List Snapshot
  | _, taken, [] => taken
  | h, taken, a :: as => takenIn (h.act a) (h.taking taken a) as

variable {capacity : Nat} {h : History} {taken : List Snapshot}

/-- One action. -/
theorem remembers_act (r : Remembers capacity h taken) (a : Action) :
    Remembers capacity (h.act a) (h.taking taken a) := by
  cases a with
  | clear => exact r.clear
  | push s =>
    rw [act, taking, push_fst]
    split
    · exact r.push ‹_›
    · exact r.refuse ‹_›

/-- A run. -/
theorem remembers_play (r : Remembers capacity h taken) (as : List Action) :
    Remembers capacity (h.play as) (h.takenIn taken as) := by
  induction as generalizing h taken with
  | nil => exact r
  | cons a as ih => exact ih (remembers_act r a)

/-- A history interpolates between the last two snapshots that it holds. -/
theorem interpolate_eq_some_iff (h : History) (id : EntityId) (t : Scalar) (p : Vec2) :
    h.interpolate id t = some p ↔ ∃ older newer a b, [older, newer] <:+ h.snapshots ∧
      older.find? id = some a ∧ newer.find? id = some b ∧ p = a.position.lerp b.position t := by
  constructor
  · intro hp
    obtain hnil | ⟨earlier, newer, held⟩ := List.eq_nil_or_concat h.snapshots
    · simp [interpolate, hnil] at hp
    rw [List.concat_eq_append] at held
    rw [interpolate_concat held, Option.bind_eq_some_iff] at hp
    obtain ⟨a, hfound, hp⟩ := hp
    obtain ⟨older, holder, ha⟩ := Option.bind_eq_some_iff.mp hfound
    obtain ⟨b, hb, rfl⟩ := Option.map_eq_some_iff.mp hp
    obtain ⟨before, rfl⟩ := List.getLast?_eq_some_iff.mp holder
    refine ⟨older, newer, a, b, ⟨before, ?_⟩, ha, hb, rfl⟩
    rw [held, List.append_assoc]
    rfl
  · rintro ⟨older, newer, a, b, ⟨before, held⟩, ha, hb, rfl⟩
    have hheld : h.snapshots = (before ++ [older]) ++ [newer] := by
      rw [← held, List.append_assoc]
      rfl
    rw [interpolate_concat hheld, List.getLast?_concat, Option.bind_some, ha, Option.bind_some,
      hb, Option.map_some]

/-- A history that holds two snapshots interpolates between the last two that it took. -/
theorem Remembers.interpolate_eq_some_iff (r : Remembers capacity h taken) (id : EntityId)
    (t : Scalar) (p : Vec2) : h.interpolate id t = some p ↔ 2 ≤ h.snapshots.length ∧
      ∃ older newer a b, [older, newer] <:+ taken ∧
        older.find? id = some a ∧ newer.find? id = some b ∧
        p = a.position.lerp b.position t := by
  rw [History.interpolate_eq_some_iff]
  constructor
  · rintro ⟨older, newer, a, b, hend, hfound⟩
    exact ⟨hend.length_le, older, newer, a, b, hend.trans r.suffix, hfound⟩
  · rintro ⟨htwo, older, newer, a, b, hend, hfound⟩
    exact ⟨older, newer, a, b, List.suffix_of_suffix_length_le hend r.suffix htwo, hfound⟩

/-- **After any run a history holds the newest of what it took since it was last cleared.**
It takes a snapshot exactly if that is later than all of these, it holds as many as it may,
in order, and it interpolates a shot exactly if it holds two snapshots and the last two that
it took both list the shot, between where those two have it. -/
theorem keeps_newest (capacity : Nat) (as : List Action) :
    let h := (new capacity).play as
    let taken := (new capacity).takenIn [] as
    (∀ s, (h.push s).1 = true ↔ ∀ t ∈ taken, t.tick < s.tick) ∧
    h.snapshots <:+ taken ∧
    h.snapshots.length = min taken.length (max capacity 1) ∧
    h.snapshots.Pairwise (·.tick < ·.tick) ∧
    (∀ id t, (h.interpolate id t).isSome = true ↔ 2 ≤ h.snapshots.length ∧
      ∃ older newer, [older, newer] <:+ taken ∧
        (older.find? id).isSome = true ∧ (newer.find? id).isSome = true) ∧
    ∀ id t p, h.interpolate id t = some p ↔ 2 ≤ h.snapshots.length ∧
      ∃ older newer a b, [older, newer] <:+ taken ∧
        older.find? id = some a ∧ newer.find? id = some b ∧
        p = a.position.lerp b.position t := by
  intro h taken
  have r : Remembers capacity h taken := remembers_play (remembers_new capacity) as
  refine ⟨fun s => ?_, r.suffix, r.length_eq, r.rising.sublist r.suffix.sublist,
    fun id t => ?_, r.interpolate_eq_some_iff⟩
  · rw [push_fst]
    exact r.accepts_iff s
  · simp only [Option.isSome_iff_exists, r.interpolate_eq_some_iff]
    constructor
    · rintro ⟨p, htwo, older, newer, a, b, hend, ha, hb, -⟩
      exact ⟨htwo, older, newer, hend, ⟨a, ha⟩, ⟨b, hb⟩⟩
    · rintro ⟨htwo, older, newer, hend, ⟨a, ha⟩, ⟨b, hb⟩⟩
      exact ⟨_, htwo, older, newer, a, b, hend, ha, hb, rfl⟩

end History

end Volley
