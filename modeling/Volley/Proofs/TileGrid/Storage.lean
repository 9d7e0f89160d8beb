/-
# Where a map keeps its tiles

A map that is built has sides that are machine words, and few enough cells for an array
(`empty_eq_some_iff`, `parse_eq_some_iff`). Both its arrays have one entry for each cell of the
grid (`Stored`). This holds of a map without obstacles and of one that is drawn, and no edit
changes it (`Stored.edited`). The places of the cells are then the indices of the arrays, so an
edit changes the entry of the cell that it names and no other (`Stored.getElem?_setTile`,
`Stored.getElem?_setZone`), and a lookup finds an entry or is outside the grid, whatever the
position (`Stored.found`).

Key definitions: `TileGrid.Stored`, `TileGrid.Indexable`, `TileGrid.Fresh`, `TileGrid.edited`.
Key theorems: `TileGrid.empty_eq_some_iff`, `TileGrid.parse_eq_some_iff`,
`TileGrid.Stored.edited`, `TileGrid.Stored.getElem?_setTile`,
`TileGrid.Stored.tileAt_setTile`, `TileGrid.Stored.found`, `TileGrid.storage_law`.
-/
import Volley.Proofs.TileGrid.Places
import Volley.Proofs.TileGrid.Rows

namespace Volley
namespace TileGrid

variable {g : TileGrid} {x y i : Nat}

/-! ### Entries of an array -/

section

variable {α : Type} {a : Array α} {v : α} {pos : Vec2}

/-- The array with another entry for a cell of the grid. -/
def replaced (g : TileGrid) (a : Array α) (x y : Nat) (v : α) : Array α :=
  if x < g.width ∧ y < g.height then a.setIfInBounds (y * g.width + x) v else a

/-- The entry of an array for the cell of a position. -/
def entryAt? (g : TileGrid) (a : Array α) (pos : Vec2) : Option α := (g.index? pos).bind (a[·]?)

theorem size_replaced : (g.replaced a x y v).size = a.size := by
  unfold replaced
  split
  · exact Array.size_setIfInBounds
  · rfl

theorem replaced_of_not_holds (h : ¬g.Holds (↑x, ↑y)) : g.replaced a x y v = a :=
  if_neg fun hinside => h (holds_natCast_iff.mpr hinside)

/-- Only the entry of the cell changes. -/
theorem getElem?_replaced (hsize : a.size = g.width * g.height) (i : Nat) :
    (g.replaced a x y v)[i]? = if g.cellIndex? (↑x, ↑y) = some i then some v else a[i]? := by
  by_cases hholds : g.Holds (↑x, ↑y)
  · have hinside := holds_natCast_iff.mp hholds
    have hplace : y * g.width + x < a.size := hsize ▸ place_lt hinside.1 hinside.2
    unfold replaced
    rw [if_pos hinside, cellIndex?_of_holds hholds, Array.getElem?_setIfInBounds, if_pos hplace]
    simp only [Int.toNat_natCast, Option.some_inj]
  · rw [replaced_of_not_holds hholds, cellIndex?_eq_none_iff.mpr hholds, if_neg nofun]

/-- The place of a position in the grid is that of an entry. -/
theorem entryAt?_of_index? (hsize : a.size = g.width * g.height) (h : g.index? pos = some i) :
    i < a.size ∧ ∃ v, a[i]? = some v ∧ g.entryAt? a pos = some v := by
  have hplace : i < a.size := hsize ▸ exists_cellIndex?_iff.mp ⟨cell pos, h⟩
  have hentry : a[i]? = some a[i] := Array.getElem?_eq_getElem hplace
  refine ⟨hplace, a[i], hentry, ?_⟩
  unfold entryAt?
  rw [h, Option.bind_some, hentry]

theorem entryAt?_replaced (hsize : a.size = g.width * g.height) :
    g.entryAt? (g.replaced a x y v) pos =
      if cell pos = (↑x, ↑y) ∧ g.Holds (cell pos) then some v else g.entryAt? a pos := by
  unfold entryAt? index?
  cases hindex : g.cellIndex? (cell pos) with
  | none =>
    rw [if_neg fun h => cellIndex?_eq_none_iff.mp hindex h.2]
    rfl
  | some i =>
    have hcell : g.cellIndex? (↑x, ↑y) = some i ↔ cell pos = (↑x, ↑y) :=
      ⟨cellIndex?_inj hindex, fun h => h ▸ hindex⟩
    rw [Option.bind_some, Option.bind_some, getElem?_replaced hsize]
    simp only [hcell, holds_of_cellIndex? hindex, and_true]

end

/-! ### Setters and lookups -/

theorem setTile_eq (g : TileGrid) (x y : Nat) (tile : Tile) :
    g.setTile x y tile = { g with tiles := g.replaced g.tiles x y tile } := by
  unfold setTile replaced
  split <;> rfl

theorem setZone_eq (g : TileGrid) (x y : Nat) (zone : UInt32) :
    g.setZone x y zone = { g with zones := g.replaced g.zones x y zone } := by
  unfold setZone replaced
  split <;> rfl

theorem fixed_setTile (g : TileGrid) (x y : Nat) (tile : Tile) :
    (g.setTile x y tile).width = g.width ∧ (g.setTile x y tile).height = g.height ∧
      (g.setTile x y tile).zones = g.zones := by
  rw [setTile_eq]
  exact ⟨rfl, rfl, rfl⟩

theorem fixed_setZone (g : TileGrid) (x y : Nat) (zone : UInt32) :
    (g.setZone x y zone).width = g.width ∧ (g.setZone x y zone).height = g.height ∧
      (g.setZone x y zone).tiles = g.tiles := by
  rw [setZone_eq]
  exact ⟨rfl, rfl, rfl⟩

theorem tileAt_eq (g : TileGrid) (pos : Vec2) :
    g.tileAt pos = (g.entryAt? g.tiles pos).getD .empty := by
  unfold tileAt entryAt?
  cases g.index? pos with
  | none => rfl
  | some i => exact Array.getD_eq_getD_getElem?

theorem zoneAt_eq (g : TileGrid) (pos : Vec2) :
    g.zoneAt pos = (g.entryAt? g.zones pos).getD defaultZone := by
  unfold zoneAt entryAt?
  cases g.index? pos with
  | none => rfl
  | some i => exact Array.getD_eq_getD_getElem?

/-! ### Maps and their changes -/

/-- Both arrays have an entry for each cell. -/
structure Stored (g : TileGrid) : Prop where
  tiles_size : g.tiles.size = g.width * g.height
  zones_size : g.zones.size = g.width * g.height

/-- The sides are machine words, and there are fewer cells than an array has entries. -/
structure Indexable (g : TileGrid) : Prop extends g.Addressable where
  count : g.width * g.height < 2 ^ 63

/-- A map as it is built: without obstacles and zones, or as rows draw it. -/
inductive Fresh : TileGrid → Prop where
  | empty {width height : UInt64} {g : TileGrid} (h : empty width height = some g) : Fresh g
  | drawn {rows : List String} {g : TileGrid} (h : parse rows = some (.ok g)) : Fresh g

/-- A change of one cell: another tile, or another tune zone. -/
inductive Edit where
  | tile (x y : Nat) (tile : Tile)
  | zone (x y : Nat) (zone : UInt32)

/-- The map after a change. -/
def edit (g : TileGrid) : Edit → TileGrid
  | .tile x y tile => g.setTile x y tile
  | .zone x y zone => g.setZone x y zone

/-- The map after some changes. -/
def edited (g : TileGrid) (edits : List Edit) : TileGrid := edits.foldl edit g

theorem word?_eq_some_iff {n : Nat} {w : UInt64} : word? n = some w ↔ w.toNat = n := by
  unfold word?
  constructor
  · intro h
    split_ifs at h with hword
    cases h
    exact UInt64.toNat_ofNat_of_lt' hword
  · rintro rfl
    rw [if_pos w.toNat_lt, UInt64.ofNat_toNat]

theorem zones_fit_iff {count : Nat} : zoneBytes * count ≤ maxBytes ↔ count < 2 ^ 61 := by
  unfold zoneBytes maxBytes
  omega

/-- A map without obstacles is built exactly if its zones fit into an array. Then its tiles do
as well, and their number is a word. -/
theorem empty_eq_some_iff {width height : UInt64} :
    empty width height = some g ↔
      zoneBytes * (width.toNat * height.toNat) ≤ maxBytes ∧
        blank width.toNat height.toNat = g := by
  unfold empty
  constructor
  · intro h
    split at h
    · rename_i count hcount
      split_ifs at h with hfits
      rw [word?_eq_some_iff.mp hcount] at hfits
      exact ⟨hfits.2, Option.some.inj h⟩
    · cases h
  · rintro ⟨hzones, rfl⟩
    have hsmall := zones_fit_iff.mp hzones
    have htiles : tileBytes * (width.toNat * height.toNat) ≤ maxBytes := by
      unfold tileBytes maxBytes
      omega
    have hcount : word? (width.toNat * height.toNat) =
        some (.ofNat (width.toNat * height.toNat)) :=
      if_pos (lt_trans hsmall (by decide))
    rw [hcount]
    simp only [word?_eq_some_iff.mp hcount]
    rw [if_pos ⟨htiles, hzones⟩]

/-- The number of these tiles is no word, although its last 64 bits are all zero. -/
example : (empty 0x100000000 0x100000000).isNone = true := by decide +kernel

/-- Rows are read exactly if their map, without obstacles, is built. -/
theorem parse_eq_some_iff {rows : List String} {result : Except GridError TileGrid} :
    parse rows = some result ↔
      firstWidth rows < UInt64.size ∧ rows.length < UInt64.size ∧
        zoneBytes * (firstWidth rows * rows.length) ≤ maxBytes ∧ ofRows rows = result := by
  unfold parse
  constructor
  · intro h
    obtain ⟨width, hwidth, h⟩ := Option.bind_eq_some_iff.mp h
    obtain ⟨height, hheight, h⟩ := Option.bind_eq_some_iff.mp h
    obtain ⟨g, hempty, h⟩ := Option.bind_eq_some_iff.mp h
    obtain ⟨hfits, -⟩ := empty_eq_some_iff.mp hempty
    rw [word?_eq_some_iff] at hwidth hheight
    rw [← hwidth, ← hheight]
    exact ⟨width.toNat_lt, height.toNat_lt, hfits, Option.some.inj h⟩
  · rintro ⟨hwidth, hheight, hfits, rfl⟩
    have hwidth' : word? (firstWidth rows) = some (.ofNat (firstWidth rows)) := if_pos hwidth
    have hheight' : word? rows.length = some (.ofNat rows.length) := if_pos hheight
    have hempty : empty (.ofNat (firstWidth rows)) (.ofNat rows.length) =
        some (blank (firstWidth rows) rows.length) := by
      rw [empty_eq_some_iff, word?_eq_some_iff.mp hwidth', word?_eq_some_iff.mp hheight']
      exact ⟨hfits, rfl⟩
    simp [hwidth', hheight', hempty]

theorem Fresh.stored (h : Fresh g) : Stored g := by
  cases h with
  | empty h =>
    obtain ⟨-, rfl⟩ := empty_eq_some_iff.mp h
    exact ⟨Array.size_replicate, Array.size_replicate⟩
  | drawn h =>
    obtain ⟨-, -, -, hrows⟩ := parse_eq_some_iff.mp h
    have hdrawn := ofRows_eq_ok_iff.mp hrows
    exact ⟨hdrawn.tiles_size, hdrawn.zones_size⟩

theorem Fresh.indexable (h : Fresh g) : Indexable g := by
  cases h with
  | @empty width height _ h =>
    obtain ⟨hfits, rfl⟩ := empty_eq_some_iff.mp h
    have hcount : width.toNat * height.toNat < 2 ^ 63 :=
      lt_trans (zones_fit_iff.mp hfits) (by decide)
    exact ⟨⟨width.toNat_lt, height.toNat_lt⟩, hcount⟩
  | drawn h =>
    obtain ⟨hwidth, hheight, hfits, hrows⟩ := parse_eq_some_iff.mp h
    have hdrawn := ofRows_eq_ok_iff.mp hrows
    rw [← hdrawn.width_eq] at hwidth hfits
    rw [← hdrawn.height_eq] at hheight hfits
    exact ⟨⟨hwidth, hheight⟩, lt_trans (zones_fit_iff.mp hfits) (by decide)⟩

theorem sides_edit (g : TileGrid) (e : Edit) :
    (g.edit e).width = g.width ∧ (g.edit e).height = g.height := by
  cases e with
  | tile x y tile =>
    obtain ⟨hwidth, hheight, -⟩ := g.fixed_setTile x y tile
    exact ⟨hwidth, hheight⟩
  | zone x y zone =>
    obtain ⟨hwidth, hheight, -⟩ := g.fixed_setZone x y zone
    exact ⟨hwidth, hheight⟩

theorem sides_edited (g : TileGrid) (edits : List Edit) :
    (g.edited edits).width = g.width ∧ (g.edited edits).height = g.height := by
  induction edits generalizing g with
  | nil => exact ⟨rfl, rfl⟩
  | cons e rest ih =>
    obtain ⟨hwidth, hheight⟩ := ih (g.edit e)
    exact ⟨hwidth.trans (g.sides_edit e).1, hheight.trans (g.sides_edit e).2⟩

theorem Stored.edit (h : Stored g) (e : Edit) : Stored (g.edit e) := by
  cases e with
  | tile x y tile =>
    rw [TileGrid.edit, setTile_eq]
    exact ⟨size_replaced.trans h.tiles_size, h.zones_size⟩
  | zone x y zone =>
    rw [TileGrid.edit, setZone_eq]
    exact ⟨h.tiles_size, size_replaced.trans h.zones_size⟩

theorem Indexable.edited (h : Indexable g) (edits : List Edit) : Indexable (g.edited edits) := by
  obtain ⟨hwidth, hheight⟩ := g.sides_edited edits
  refine ⟨⟨hwidth ▸ h.width, hheight ▸ h.height⟩, ?_⟩
  rw [hwidth, hheight]
  exact h.count

theorem Stored.edited (h : Stored g) (edits : List Edit) : Stored (g.edited edits) :=
  List.foldlRecOn edits _ h fun _ h e _ => h.edit e

/-! ### What an edit changes -/

theorem setTile_of_not_holds (h : ¬g.Holds (↑x, ↑y)) (tile : Tile) : g.setTile x y tile = g := by
  rw [setTile_eq, replaced_of_not_holds h]

theorem setZone_of_not_holds (h : ¬g.Holds (↑x, ↑y)) (zone : UInt32) :
    g.setZone x y zone = g := by
  rw [setZone_eq, replaced_of_not_holds h]

theorem Stored.getElem?_setTile (h : Stored g) (x y : Nat) (tile : Tile) (i : Nat) :
    (g.setTile x y tile).tiles[i]? =
      if g.cellIndex? (↑x, ↑y) = some i then some tile else g.tiles[i]? := by
  rw [setTile_eq]
  exact getElem?_replaced h.tiles_size i

theorem Stored.getElem?_setZone (h : Stored g) (x y : Nat) (zone : UInt32) (i : Nat) :
    (g.setZone x y zone).zones[i]? =
      if g.cellIndex? (↑x, ↑y) = some i then some zone else g.zones[i]? := by
  rw [setZone_eq]
  exact getElem?_replaced h.zones_size i

theorem zoneAt_setTile (g : TileGrid) (x y : Nat) (tile : Tile) (pos : Vec2) :
    (g.setTile x y tile).zoneAt pos = g.zoneAt pos := by
  rw [setTile_eq]
  rfl

theorem tileAt_setZone (g : TileGrid) (x y : Nat) (zone : UInt32) (pos : Vec2) :
    (g.setZone x y zone).tileAt pos = g.tileAt pos := by
  rw [setZone_eq]
  rfl

theorem Stored.tileAt_setTile (h : Stored g) (x y : Nat) (tile : Tile) (pos : Vec2) :
    (g.setTile x y tile).tileAt pos =
      if cell pos = (↑x, ↑y) ∧ g.Holds (cell pos) then tile else g.tileAt pos := by
  have hentry : (g.setTile x y tile).tileAt pos =
      (g.entryAt? (g.replaced g.tiles x y tile) pos).getD .empty := by
    rw [setTile_eq]
    exact tileAt_eq _ pos
  rw [hentry, entryAt?_replaced h.tiles_size, tileAt_eq]
  split <;> rfl

theorem Stored.zoneAt_setZone (h : Stored g) (x y : Nat) (zone : UInt32) (pos : Vec2) :
    (g.setZone x y zone).zoneAt pos =
      if cell pos = (↑x, ↑y) ∧ g.Holds (cell pos) then zone else g.zoneAt pos := by
  have hentry : (g.setZone x y zone).zoneAt pos =
      (g.entryAt? (g.replaced g.zones x y zone) pos).getD defaultZone := by
    rw [setZone_eq]
    exact zoneAt_eq _ pos
  rw [hentry, entryAt?_replaced h.zones_size, zoneAt_eq]
  split <;> rfl

/-! ### What a lookup finds -/

/-- Whatever the position, it is outside the grid or its place is that of an entry. -/
theorem Stored.found (h : Stored g) (pos : Vec2) :
    (¬g.Holds (cell pos) ∧ g.index? pos = none ∧ g.tileAt pos = .empty ∧
      g.zoneAt pos = defaultZone) ∨
    (g.Holds (cell pos) ∧ ∃ i, g.index? pos = some i ∧ i < g.tiles.size ∧ i < g.zones.size ∧
      g.tiles[i]? = some (g.tileAt pos) ∧ g.zones[i]? = some (g.zoneAt pos)) := by
  by_cases hholds : g.Holds (cell pos)
  · have hindex : g.index? pos = some _ := cellIndex?_of_holds hholds
    obtain ⟨htiles, tile, htile, hfound⟩ := entryAt?_of_index? h.tiles_size hindex
    obtain ⟨hzones, zone, hzone, hfound'⟩ := entryAt?_of_index? h.zones_size hindex
    refine .inr ⟨hholds, _, hindex, htiles, hzones, ?_, ?_⟩
    · rw [htile, tileAt_eq, hfound, Option.getD_some]
    · rw [hzone, zoneAt_eq, hfound', Option.getD_some]
  · have hindex : g.index? pos = none := cellIndex?_eq_none_iff.mpr hholds
    refine .inl ⟨hholds, hindex, ?_, ?_⟩
    · rw [tileAt_eq, entryAt?, hindex]
      rfl
    · rw [zoneAt_eq, entryAt?, hindex]
      rfl

/-- **How a map is stored.** Let a map be built in any way and then be edited in any way. Both
arrays have an entry for each cell of the grid. Replacing a tile changes the entry of the cell
that is named and no other, and nothing if that cell is outside the grid; the same holds of zones.
Whatever a position is, it is outside the grid, or its place is that of an entry in both arrays,
and these entries are what is found there. Different cells have different places, and all indices
are places. The sides are machine words, and the number of entries and all places are the same
if they are computed in machine words. -/
theorem storage_law {start : TileGrid} (fresh : Fresh start) (edits : List Edit) :
    let g := start.edited edits
    (g.width = start.width ∧ g.height = start.height ∧
      g.tiles.size = g.width * g.height ∧ g.zones.size = g.width * g.height) ∧
    (∀ x y tile,
      let g' := g.setTile x y tile
      (g'.width = g.width ∧ g'.height = g.height ∧ g'.zones = g.zones) ∧
      (∀ i, g'.tiles[i]? =
        if g.cellIndex? (↑x, ↑y) = some i then some tile else g.tiles[i]?) ∧
      (¬g.Holds (↑x, ↑y) → g' = g) ∧
      ∀ pos, g'.zoneAt pos = g.zoneAt pos ∧ g'.tileAt pos =
        if cell pos = (↑x, ↑y) ∧ g.Holds (cell pos) then tile else g.tileAt pos) ∧
    (∀ x y zone,
      let g' := g.setZone x y zone
      (g'.width = g.width ∧ g'.height = g.height ∧ g'.tiles = g.tiles) ∧
      (∀ i, g'.zones[i]? =
        if g.cellIndex? (↑x, ↑y) = some i then some zone else g.zones[i]?) ∧
      (¬g.Holds (↑x, ↑y) → g' = g) ∧
      ∀ pos, g'.tileAt pos = g.tileAt pos ∧ g'.zoneAt pos =
        if cell pos = (↑x, ↑y) ∧ g.Holds (cell pos) then zone else g.zoneAt pos) ∧
    (∀ pos,
      (¬g.Holds (cell pos) ∧ g.index? pos = none ∧ g.tileAt pos = .empty ∧
        g.zoneAt pos = defaultZone) ∨
      (g.Holds (cell pos) ∧ ∃ i, g.index? pos = some i ∧ i < g.tiles.size ∧ i < g.zones.size ∧
        g.tiles[i]? = some (g.tileAt pos) ∧ g.zones[i]? = some (g.zoneAt pos))) ∧
    (∀ c c' i, g.cellIndex? c = some i → g.cellIndex? c' = some i → c = c') ∧
    (∀ i, (∃ c, g.cellIndex? c = some i) ↔ i < g.width * g.height) ∧
    (UInt64.ofNat g.width).toNat = g.width ∧ (UInt64.ofNat g.height).toNat = g.height ∧
    (UInt64.ofNat g.width * UInt64.ofNat g.height).toNat = g.tiles.size ∧
    (∀ x y : UInt64, x.toNat < g.width → y.toNat < g.height →
      (placeWord (.ofNat g.width) x y).toNat = y.toNat * g.width + x.toNat) ∧
    ∀ pos, (indexWord? (.ofNat g.width) (.ofNat g.height) pos).map UInt64.toNat =
      g.index? pos := by
  intro g
  have h : Stored g := fresh.stored.edited edits
  obtain ⟨⟨hwidth', hheight'⟩, fits⟩ : Indexable g := fresh.indexable.edited edits
  obtain ⟨hwidth, hheight⟩ := start.sides_edited edits
  refine ⟨⟨hwidth, hheight, h.tiles_size, h.zones_size⟩, fun x y tile => ?_, fun x y zone => ?_,
    h.found, fun c c' i => cellIndex?_inj, fun i => exists_cellIndex?_iff,
    UInt64.toNat_ofNat_of_lt' hwidth', UInt64.toNat_ofNat_of_lt' hheight',
    (toNat_count fits).trans h.tiles_size.symm, fun x y => toNat_placeWord fits,
    indexWord?_eq fits⟩
  · exact ⟨g.fixed_setTile x y tile, h.getElem?_setTile x y tile,
      fun out => setTile_of_not_holds out tile,
      fun pos => ⟨g.zoneAt_setTile x y tile pos, h.tileAt_setTile x y tile pos⟩⟩
  · exact ⟨g.fixed_setZone x y zone, h.getElem?_setZone x y zone,
      fun out => setZone_of_not_holds out zone,
      fun pos => ⟨g.tileAt_setZone x y zone pos, h.zoneAt_setZone x y zone pos⟩⟩

/-- Two cells of a drawing are changed, and a tile outside it is not. What is not a number is in
column 0, and what is infinite in no column of the grid. -/
theorem storage_law_repainted :
    ∃ start g, parse ["#.2", ".*."] = some (.ok start) ∧
      g = start.edited [.tile 1 1 .solid, .tile 3 0 .bounce, .zone 2 1 7] ∧
      g.tiles.size = 6 ∧ g.zones.size = 6 ∧ g.setTile 0 2 .solid = g ∧
      (g.setTile 0 1 .bounce).tileAt ⟨0.0 / 0.0, 40.0⟩ = .bounce ∧
      (g.setTile 0 1 .bounce).tileAt ⟨40.0, 40.0⟩ = g.tileAt ⟨40.0, 40.0⟩ ∧
      g.index? ⟨1.0 / 0.0, 40.0⟩ = none ∧ (∃ c, g.cellIndex? c = some 5) ∧
      (indexWord? 3 2 ⟨0.0 / 0.0, 40.0⟩).map UInt64.toNat = some 3 := by
  obtain ⟨start, hok⟩ : ∃ start, ofRows ["#.2", ".*."] = .ok start :=
    exists_ofRows_iff.mpr (by simp [Regular, firstWidth, IsTile])
  have hparse : parse ["#.2", ".*."] = some (.ok start) :=
    parse_eq_some_iff.mpr ⟨by decide, by decide, by decide, hok⟩
  obtain ⟨⟨hwidth, hheight, htiles, hzones⟩, hset, -, hfound, -, hplaces, -, -, -, -, hwords⟩ :=
    storage_law (.drawn hparse) [.tile 1 1 .solid, .tile 3 0 .bounce, .zone 2 1 7]
  refine ⟨start, _, hparse, rfl, ?_⟩
  generalize start.edited _ = g at *
  have hdrawn := ofRows_eq_ok_iff.mp hok
  replace hwidth : g.width = 3 := hwidth.trans hdrawn.width_eq
  replace hheight : g.height = 2 := hheight.trans hdrawn.height_eq
  have hsize : g.width * g.height = 6 := by rw [hwidth, hheight]
  have hnan : cell ⟨0.0 / 0.0, 40.0⟩ = (0, 1) := by decide +kernel
  have hbeside : cell ⟨40.0, 40.0⟩ = (1, 1) := by decide +kernel
  have hinfinite : cell ⟨1.0 / 0.0, 40.0⟩ = (2 ^ 64 - 1, 1) := by decide +kernel
  have holds (c : Int × Int) : g.Holds c ↔ 0 ≤ c.1 ∧ 0 ≤ c.2 ∧ c.1 < 3 ∧ c.2 < 2 := by
    unfold Holds
    rw [hwidth, hheight]
    rfl
  refine ⟨htiles.trans hsize, hzones.trans hsize, (hset 0 2 .solid).2.2.1 (by simp [holds]), ?_, ?_,
    ?_, (hplaces 5).mpr (by omega), ?_⟩
  · exact ((hset 0 1 .bounce).2.2.2 _).2.trans (if_pos ⟨hnan, by simp [holds, hnan]⟩)
  · exact ((hset 0 1 .bounce).2.2.2 _).2.trans (if_neg (by simp [hbeside]))
  · obtain ⟨-, hindex, -⟩ | ⟨hin, -⟩ := hfound ⟨1.0 / 0.0, 40.0⟩
    · exact hindex
    · simp [holds, hinfinite] at hin
  · have hindex := hwords ⟨0.0 / 0.0, 40.0⟩
    have hplace : g.index? ⟨0.0 / 0.0, 40.0⟩ = some 3 := by
      unfold index?
      rw [hnan, cellIndex?_of_holds (by simp [holds]), hwidth]
      rfl
    rwa [hwidth, hheight, hplace] at hindex

end TileGrid
end Volley
