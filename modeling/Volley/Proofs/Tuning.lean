/-
# Looking up a tuning

A map of zones may lack zone 0. Then the lookup of a zone that is not listed fails
(`ZoneMap.isSome_zone?`), and so does every change of a weapon (`ZoneMap.isSome_adjust?`). The maps
of tuning tables list zone 0 wherever they come from (`ZoneMap.Origin`), and no change takes it
away (`ZoneMap.Edit`). So nothing fails in them (`ZoneMap.exists_edited`).

A zone that is not listed answers with the tuning of zone 0, and is therefore changed along with
it. The first change of its own lists it, as a copy of zone 0 but for what is changed, and from
then on the two are independent (`ZoneMap.zone?_insert`, `ZoneMap.weapon?_adjust?`).

Key definitions: `WeaponTuning.Quantity`, `ZoneMap.Origin`, `ZoneMap.Edit`, `ZoneMap.Shows`.
Key theorems: `ZoneMap.exists_edited`, `ZoneMap.weapon?_adjust?`, `ZoneMap.lookup_law`,
`TuningTable.lookups_edited`.
-/
import Mathlib.Data.List.Basic
import Volley.Config.Text

namespace Volley

namespace WeaponTuning

/-- One of the constants of a weapon. -/
inductive Quantity where
  | speed
  | gravity
  | collisionRadius
  | lifetimeSecs
deriving DecidableEq

namespace Quantity

/-- The constant of a weapon. -/
def get : Quantity → WeaponTuning → Scalar
  | speed => WeaponTuning.speed
  | gravity => WeaponTuning.gravity
  | collisionRadius => WeaponTuning.collisionRadius
  | lifetimeSecs => WeaponTuning.lifetimeSecs

/-- The weapon with another value of the constant. -/
def set (value : Scalar) : Quantity → WeaponTuning → WeaponTuning
  | speed, t => { t with speed := value }
  | gravity, t => { t with gravity := value }
  | collisionRadius, t => { t with collisionRadius := value }
  | lifetimeSecs, t => { t with lifetimeSecs := value }

theorem get_set (q q' : Quantity) (value : Scalar) (t : WeaponTuning) :
    q'.get (q.set value t) = if q' = q then value else q'.get t := by
  cases q <;> cases q' <;> rfl

theorem set_eq_self_iff (q : Quantity) (value : Scalar) (t : WeaponTuning) :
    q.set value t = t ↔ q.get t = value := by
  constructor
  · intro h
    rw [← h, get_set, if_pos rfl]
  · rintro rfl
    cases q <;> rfl

end Quantity

end WeaponTuning

namespace ZoneMap

variable {m m' : ZoneMap ZoneTuning} {zone : UInt32} {w : Weapon}

/-! ### Maps and their changes -/

/-- Where the maps of tuning tables come from: the standard one, one tuning for all zones, any
map of zones that is completed, or a text that is read. -/
inductive Origin : ZoneMap ZoneTuning → Prop where
  | standard : Origin (ofBase .standard)
  | new (base : ZoneTuning) : Origin (ofBase base)
  | ofMap (m : ZoneMap ZoneTuning) : Origin m.completed
  | read {text rest : List Char} {t : TuningTable}
      (h : TuningTable.read.run text = .ok (t, rest)) : Origin t.zones

/-- What is read is a map of zones, and then it is completed. -/
theorem exists_of_read {text rest : List Char} {t : TuningTable}
    (h : TuningTable.read.run text = .ok (t, rest)) :
    ∃ m : ZoneMap ZoneTuning, t.zones = m.completed := by
  rw [TuningTable.read, StateT.run_bind] at h
  cases hzones : (Json.Reader.numberKeyed ZoneTuning.read).run text with
  | error fault =>
    rw [hzones] at h
    cases h
  | ok out =>
    rw [hzones] at h
    cases h
    exact ⟨ofList out.1, rfl⟩

theorem Origin.contains_default (origin : Origin m) : m.contains defaultZone = true := by
  cases origin with
  | standard => exact contains_ofBase .standard
  | new base => exact contains_ofBase base
  | ofMap m => exact contains_completed m
  | read h =>
    obtain ⟨listed, hzones⟩ := exists_of_read h
    rw [hzones]
    exact contains_completed listed

/-- A change of a map: a zone gets a tuning of its own, or one constant of one weapon of a zone
another value. -/
inductive Edit where
  | setZone (zone : UInt32) (tuning : ZoneTuning)
  | assign (zone : UInt32) (w : Weapon) (q : WeaponTuning.Quantity) (value : Scalar)

/-- The map after a change. -/
def edit (m : ZoneMap ZoneTuning) : Edit → Option (ZoneMap ZoneTuning)
  | .setZone zone tuning => some (m.insert zone tuning)
  | .assign zone w q value => m.adjust? zone w (q.set value)

/-- The map after some changes, unless one of them fails. -/
def edited (m : ZoneMap ZoneTuning) (edits : List Edit) : Option (ZoneMap ZoneTuning) :=
  edits.foldlM edit m

/-- With zone 0 a change does not fail, and zone 0 stays. -/
theorem exists_edit (h : m.contains defaultZone = true) (e : Edit) :
    ∃ m', m.edit e = some m' ∧ m'.contains defaultZone = true := by
  cases e with
  | setZone zone tuning => exact ⟨_, rfl, contains_insert_default h zone tuning⟩
  | assign zone w q value =>
    have hsome : (m.adjust? zone w (q.set value)).isSome = true :=
      (m.isSome_adjust? zone w (q.set value)).trans h
    obtain ⟨m', hm'⟩ := Option.isSome_iff_exists.mp hsome
    exact ⟨m', hm', contains_adjust?_default h hm'⟩

theorem exists_edited (h : m.contains defaultZone = true) (edits : List Edit) :
    ∃ m', m.edited edits = some m' ∧ m'.contains defaultZone = true := by
  induction edits generalizing m with
  | nil => exact ⟨m, rfl, h⟩
  | cons e edits ih =>
    obtain ⟨m₁, hfirst, h₁⟩ := exists_edit h e
    obtain ⟨m', hrest, h'⟩ := ih h₁
    refine ⟨m', ?_, h'⟩
    rw [edited, List.foldlM_cons, hfirst]
    exact hrest

/-! ### What a change shows -/

/-- What is set in `zone` shows in `asked`: it is the same zone, or zone 0 and the other one is
not listed. -/
def Shows (m : ZoneMap ZoneTuning) (zone asked : UInt32) : Prop :=
  asked = zone ∨ zone = defaultZone ∧ m.contains asked = false

instance (m : ZoneMap ZoneTuning) (zone asked : UInt32) : Decidable (m.Shows zone asked) :=
  inferInstanceAs (Decidable (_ ∨ _))

theorem zone?_default (m : ZoneMap ZoneTuning) : m.zone? defaultZone = m.get? defaultZone := by
  rw [zone?_eq, Option.or_self]

theorem zone?_of_not_contains (h : m.contains zone = false) :
    m.zone? zone = m.zone? defaultZone := by
  have hnone : m.get? zone = none := Option.isNone_iff_eq_none.mp (Option.isSome_eq_false_iff.mp h)
  rw [zone?_eq, hnone, Option.none_or, zone?_default]

/-- A zone in which `zone` shows answers as `zone` does. -/
theorem Shows.zone?_eq {asked : UInt32} (h : m.Shows zone asked) :
    m.zone? asked = m.zone? zone := by
  rcases h with rfl | ⟨rfl, hmissing⟩
  · rfl
  · exact zone?_of_not_contains hmissing

/-- If only the entry of `zone` is replaced, the new tuning is found where `zone` shows. -/
theorem zone?_of_replaced {tuning : ZoneTuning}
    (h : ∀ asked, m'.get? asked = if asked = zone then some tuning else m.get? asked)
    (asked : UInt32) :
    m'.zone? asked = if m.Shows zone asked then some tuning else m.zone? asked := by
  rw [ZoneMap.zone?_eq, ZoneMap.zone?_eq m, h, h]
  by_cases hasked : asked = zone
  · have hshows : m.Shows zone asked := Or.inl hasked
    rw [if_pos hasked, if_pos hshows, Option.some_or]
  rw [if_neg hasked]
  cases hfound : m.get? asked with
  | none =>
    have hmissing : m.contains asked = false := by rw [contains, hfound, Option.isSome_none]
    have hshows : m.Shows zone asked ↔ defaultZone = zone := by
      simp [Shows, hasked, hmissing, eq_comm]
    simp only [hshows, Option.none_or]
  | some own =>
    have hlisted : m.contains asked = true := by rw [contains, hfound, Option.isSome_some]
    have hshows : ¬m.Shows zone asked := by simp [Shows, hasked, hlisted]
    rw [if_neg hshows, Option.some_or, Option.some_or]

theorem zone?_insert (m : ZoneMap ZoneTuning) (zone : UInt32) (tuning : ZoneTuning)
    (asked : UInt32) :
    (m.insert zone tuning).zone? asked =
      if m.Shows zone asked then some tuning else m.zone? asked :=
  zone?_of_replaced (get?_insert m zone tuning) asked

variable {f : WeaponTuning → WeaponTuning}

/-- Changing a weapon of a zone lists the zone with what was found there, but for that weapon. -/
theorem get?_adjust? (h : m.adjust? zone w f = some m') :
    ∃ own, m.zone? zone = some own ∧
      ∀ asked, m'.get? asked = if asked = zone then some (own.adjust w f) else m.get? asked := by
  obtain ⟨base, hbase, rfl⟩ := Option.map_eq_some_iff.mp h
  refine ⟨(m.get? zone).getD base, ?_, fun asked => ?_⟩
  · rw [zone?_eq, ← zone?_default, hbase]
    cases m.get? zone <;> rfl
  · rw [get?_modify, get?_orInsert]
    by_cases hasked : asked = zone
    · simp only [if_pos hasked, Option.map_some]
    · simp only [if_neg hasked]

/-- Changing one weapon of a zone changes that weapon, in the zones in which the zone shows. -/
theorem weapon?_adjust? (h : m.adjust? zone w f = some m') (asked : UInt32) (w' : Weapon) :
    m'.weapon? asked w' =
      if w' = w ∧ m.Shows zone asked then (m.weapon? asked w').map f
      else m.weapon? asked w' := by
  obtain ⟨own, hown, hget⟩ := get?_adjust? h
  rw [weapon?, weapon?, zone?_of_replaced hget]
  by_cases hshows : m.Shows zone asked
  · rw [if_pos hshows, hshows.zone?_eq, hown, Option.map_some, Option.map_some,
      ZoneTuning.weapon_adjust]
    by_cases hw : w' = w <;> simp [hw, hshows]
  · rw [if_neg hshows, if_neg fun h => hshows h.2]

variable {q : WeaponTuning.Quantity} {value : Scalar}

/-- What an assignment changes: the constant `q` of the weapon `w`, in the zones in which `zone`
shows, and nothing if the value is the old one. -/
theorem exists_weapon?_assign (h : m.edit (.assign zone w q value) = some m') {asked : UInt32}
    {w' : Weapon} {old : WeaponTuning} (hold : m.weapon? asked w' = some old) :
    ∃ new, m'.weapon? asked w' = some new ∧
      (new ≠ old ↔ w' = w ∧ m.Shows zone asked ∧ q.get old ≠ value) ∧
      ∀ q' : WeaponTuning.Quantity,
        q'.get new = if q' = q ∧ w' = w ∧ m.Shows zone asked then value else q'.get old := by
  have hnew := weapon?_adjust? h asked w'
  rw [hold, Option.map_some] at hnew
  by_cases hshows : w' = w ∧ m.Shows zone asked
  · rw [if_pos hshows] at hnew
    refine ⟨q.set value old, hnew, ?_, fun q' => ?_⟩
    · rw [Ne, WeaponTuning.Quantity.set_eq_self_iff, ← and_assoc, and_iff_right hshows]
    · rw [WeaponTuning.Quantity.get_set]
      simp only [hshows, and_true]
  · rw [if_neg hshows] at hnew
    refine ⟨old, hnew, ?_, fun q' => (if_neg fun h => hshows h.2).symm⟩
    exact iff_of_false (fun h => h rfl) fun h => hshows ⟨h.1, h.2.1⟩

/-- The first assignment in a zone that is not listed makes it a copy of zone 0, but for what is
assigned. -/
theorem get?_assign_of_not_contains (h : m.edit (.assign zone w q value) = some m')
    (missing : m.contains zone = false) :
    m'.get? zone = (m.get? defaultZone).map (·.adjust w (q.set value)) := by
  obtain ⟨own, hown, hget⟩ := get?_adjust? h
  rw [zone?_of_not_contains missing, zone?_default] at hown
  rw [hget, if_pos rfl, hown, Option.map_some]

/-- **Lookups in a tuning table.** Let the map of a table come from anywhere and be changed in any
way. No change fails and zone 0 stays, so every lookup finds a tuning: that of the zone, or else
that of zone 0. Assigning a constant of a weapon in a zone does not fail either. It changes that
constant of that weapon and nothing else, in that zone and, if it is zone 0, in all zones that are
not listed; and it does change what is found there unless that has the value already. The zone is
listed from then on. If it was not before, it becomes a copy of zone 0, but for the constant that
is assigned. -/
theorem lookup_law {start : ZoneMap ZoneTuning} (origin : Origin start) (edits : List Edit) :
    ∃ m, start.edited edits = some m ∧
      m.contains defaultZone = true ∧
      (∀ zone w, ∃ tuning, (m.get? zone).or (m.get? defaultZone) = some tuning ∧
        m.zone? zone = some tuning ∧ m.weapon? zone w = some (tuning.weapon w)) ∧
      ∀ zone w q value, ∃ m', m.edit (.assign zone w q value) = some m' ∧
        (∀ asked w', ∃ old new,
          m.weapon? asked w' = some old ∧ m'.weapon? asked w' = some new ∧
          (new ≠ old ↔ w' = w ∧ m.Shows zone asked ∧ q.get old ≠ value) ∧
          ∀ q' : WeaponTuning.Quantity,
            q'.get new = if q' = q ∧ w' = w ∧ m.Shows zone asked then value else q'.get old) ∧
        (∀ asked, m'.contains asked = (m.contains asked || asked = zone)) ∧
        (m.contains zone = false →
          m'.get? zone = (m.get? defaultZone).map (·.adjust w (q.set value))) := by
  obtain ⟨m, hm, hdefault⟩ := exists_edited origin.contains_default edits
  have hlookup (zone : UInt32) (w : Weapon) :
      ∃ tuning, m.zone? zone = some tuning ∧ m.weapon? zone w = some (tuning.weapon w) := by
    have hsome : (m.zone? zone).isSome = true := by
      rw [isSome_zone?, hdefault, Bool.or_true]
    obtain ⟨tuning, htuning⟩ := Option.isSome_iff_exists.mp hsome
    exact ⟨tuning, htuning, by rw [weapon?, htuning, Option.map_some]⟩
  refine ⟨m, hm, hdefault, fun zone w => ?_, fun zone w q value => ?_⟩
  · obtain ⟨tuning, hzone, hweapon⟩ := hlookup zone w
    exact ⟨tuning, (zone?_eq m zone).symm.trans hzone, hzone, hweapon⟩
  · obtain ⟨m', hm', -⟩ := exists_edit hdefault (.assign zone w q value)
    refine ⟨m', hm', fun asked w' => ?_, contains_adjust? hm', get?_assign_of_not_contains hm'⟩
    obtain ⟨tuning, -, hold⟩ := hlookup asked w'
    obtain ⟨new, hnew, hchanges, hquantity⟩ := exists_weapon?_assign hm' hold
    exact ⟨_, new, hold, hnew, hchanges, hquantity⟩

/-- The map of a text without zones, with a grenade of its own in zone 3. Slowing the grenade
down in zone 0 shows in zone 99, which is not listed, and no longer in zone 3. -/
theorem lookup_law_grenade :
    let start := ofBase .standard
    let edits := [Edit.assign 3 .grenade .speed 500.0]
    TuningTable.read.run ['\x7b', '\x7d'] = .ok (.standard, []) ∧
      ∃ m m', start.edited edits = some m ∧ m.edit (.assign 0 .grenade .speed 700.0) = some m' ∧
        m.contains 3 = true ∧ m.contains 99 = false ∧
        (m.weapon? 3 .gun).map (·.speed) = some 2200.0 ∧
        (m.weapon? 99 .grenade).map (·.speed) = some 1000.0 ∧
        (m'.weapon? 3 .grenade).map (·.speed) = some 500.0 ∧
        (m'.weapon? 99 .grenade).map (·.speed) = some 700.0 ∧
        m'.weapon? 99 .gun = m.weapon? 99 .gun := by
  intro start edits
  have hread : TuningTable.read.run ['\x7b', '\x7d'] = .ok (.standard, []) := rfl
  obtain ⟨m, hm, -, -, hassign⟩ := lookup_law (.read hread) edits
  obtain ⟨m', hm', hweapon, -, -⟩ := hassign 0 .grenade .speed 700.0
  have hlisted : (start.edited edits).map (·.contains 3) = some true := by decide +kernel
  have hmissing : (start.edited edits).map (·.contains 99) = some false := by decide +kernel
  have hgun : (start.edited edits).map (fun m => (m.weapon? 3 .gun).map (·.speed)) =
      some (some 2200.0) := by decide +kernel
  have hslow : (start.edited edits).map (fun m => (m.weapon? 3 .grenade).map (·.speed)) =
      some (some 500.0) := by decide +kernel
  have hfast : (start.edited edits).map (fun m => (m.weapon? 99 .grenade).map (·.speed)) =
      some (some 1000.0) := by decide +kernel
  have hm : start.edited edits = some m := hm
  rw [hm, Option.map_some, Option.some_inj] at hlisted hmissing hgun hslow hfast
  refine ⟨hread, m, m', hm, hm', hlisted, hmissing, hgun, hfast, ?_, ?_, ?_⟩
  · obtain ⟨old, new, hold, hnew, -, hquantity⟩ := hweapon 3 .grenade
    have hapart : ¬m.Shows 0 3 := by simp [Shows, hlisted]
    rw [← hslow, hold, hnew]
    exact congrArg some ((hquantity .speed).trans (if_neg fun h => hapart h.2.2))
  · obtain ⟨old, new, -, hnew, -, hquantity⟩ := hweapon 99 .grenade
    rw [hnew]
    exact congrArg some ((hquantity .speed).trans (if_pos ⟨rfl, rfl, Or.inr ⟨rfl, hmissing⟩⟩))
  · obtain ⟨old, new, hold, hnew, hchanges, -⟩ := hweapon 99 .gun
    have hsame : new = old := by
      by_contra hne
      cases (hchanges.mp hne).1
    rw [hold, hnew, hsame]

end ZoneMap

namespace TuningTable

/-- The table after a change. -/
def edit (t : TuningTable) : ZoneMap.Edit → TuningTable
  | .setZone zone tuning => t.setZone zone tuning
  | .assign zone w q value => t.adjust zone w (q.set value)

/-- The table after some changes. -/
def edited (t : TuningTable) (edits : List ZoneMap.Edit) : TuningTable := edits.foldl edit t

theorem edit_zones (t : TuningTable) (e : ZoneMap.Edit) :
    t.zones.edit e = some (t.edit e).zones := by
  cases e with
  | setZone zone tuning => rfl
  | assign zone w q value => exact t.adjust?_zones zone w (q.set value)

theorem edited_zones (t : TuningTable) (edits : List ZoneMap.Edit) :
    t.zones.edited edits = some (t.edited edits).zones := by
  induction edits generalizing t with
  | nil => rfl
  | cons e edits ih =>
    rw [ZoneMap.edited, List.foldlM_cons, t.edit_zones e]
    exact ih (t.edit e)

/-- A table and its map stay the same under changes, and give the same answers. -/
theorem lookups_edited (t : TuningTable) (edits : List ZoneMap.Edit) :
    ∃ m, t.zones.edited edits = some m ∧ (t.edited edits).zones = m ∧
      ∀ zone w, m.zone? zone = some ((t.edited edits).zone zone) ∧
        m.weapon? zone w = some ((t.edited edits).get zone w) :=
  ⟨_, t.edited_zones edits, rfl, fun zone w =>
    ⟨(t.edited edits).zone?_zones zone, (t.edited edits).weapon?_zones zone w⟩⟩

end TuningTable

end Volley
