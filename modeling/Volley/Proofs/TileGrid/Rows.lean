/-
# Which map a drawing is

A drawing is a map just if its rows are as wide as the first one and consist of the characters
that stand for tiles (`Regular`). The characters of all rows, one after the other, are then the
stored tiles and zones: the character in column `x` and row `y` is at place `y * width + x`
(`getElem?_flatMap`), so it is the tile there and nowhere else, and a drawing shows only one map
(`Drawn.unique`).

Reading stops at the first row that is not regular. What is wrong with that row is its width,
or else its first character that does not stand for a tile (`RowOffence`).

Key definitions: `TileGrid.Draws`, `TileGrid.Regular`, `TileGrid.RowOffence`, `TileGrid.Drawn`.
Key theorems: `TileGrid.allCells_eq_ok_iff`, `TileGrid.allCells_eq_error_iff`,
`TileGrid.Drawn.unique`, `TileGrid.ofRows_exact`.
-/
import Mathlib.Data.List.Basic
import Mathlib.Tactic.IntervalCases
import Volley.TileGrid.Rows

namespace Volley

namespace TileGrid

variable {rows : List String} {width y : Nat} {e : GridError}

/-! ### Characters -/

/-- The character stands for a tile. -/
def IsTile (c : Char) : Prop := c = '.' ∨ c = '#' ∨ c = '*' ∨ '1' ≤ c ∧ c ≤ '9'

/-- The tile and the tune zone that a character stands for. -/
inductive Draws : Char → Tile → UInt32 → Prop where
  | free : Draws '.' .empty 0
  | wall : Draws '#' .solid 0
  | spring : Draws '*' .bounce 0
  | zoned {n : Nat} (low : 1 ≤ n) (high : n ≤ 9) : Draws n.digitChar .empty (UInt32.ofNat n)

/-- A digit is the character of its number. -/
theorem digitChar_sub {c : Char} (low : '0' ≤ c) (high : c ≤ '9') :
    (c.toNat - '0'.toNat).digitChar = c := by
  have hlow : 48 ≤ c.toNat := low
  have hhigh : c.toNat ≤ 57 := high
  have hzero : '0'.toNat = 48 := rfl
  apply Char.toNat_inj.mp
  rw [Nat.toNat_digitChar_of_lt_ten (by omega)]
  omega

theorem draws_of_cellOfChar {c : Char} {tile : Tile} {zone : UInt32}
    (h : cellOfChar c = some (tile, zone)) : Draws c tile zone := by
  unfold cellOfChar at h
  split_ifs at h with hfree hwall hspring hdigit
  · cases h
    exact hfree ▸ .free
  · cases h
    exact hwall ▸ .wall
  · cases h
    exact hspring ▸ .spring
  · cases h
    obtain ⟨low, high⟩ : '1' ≤ c ∧ c ≤ '9' := by simpa using hdigit
    have hlow : 49 ≤ c.toNat := low
    have hhigh : c.toNat ≤ 57 := high
    have hzero : '0'.toNat = 48 := rfl
    have hdraws : Draws (c.toNat - '0'.toNat).digitChar .empty
        (UInt32.ofNat (c.toNat - '0'.toNat)) :=
      .zoned (by omega) (by omega)
    rwa [digitChar_sub (Char.le_trans (by decide) low) high] at hdraws

theorem Draws.cellOfChar {c : Char} {tile : Tile} {zone : UInt32} (h : Draws c tile zone) :
    cellOfChar c = some (tile, zone) := by
  cases h with
  | free | wall | spring => rfl
  | @zoned n low high => interval_cases n <;> rfl

/-- A character stands for one tile and one zone. -/
theorem Draws.unique {c : Char} {tile tile' : Tile} {zone zone' : UInt32}
    (h : Draws c tile zone) (h' : Draws c tile' zone') : tile = tile' ∧ zone = zone' :=
  Prod.mk.inj (Option.some.inj (h.cellOfChar.symm.trans h'.cellOfChar))

theorem cellOfChar_eq_none_iff {c : Char} : cellOfChar c = none ↔ ¬IsTile c := by
  unfold cellOfChar IsTile
  grind

theorem isTile_of_cellOfChar {c : Char} {cell : Tile × UInt32} (h : cellOfChar c = some cell) :
    IsTile c := by
  by_contra hnone
  rw [cellOfChar_eq_none_iff.mpr hnone] at h
  cases h

theorem isTile_of_map {cs : List Char} {cells : List (Tile × UInt32)}
    (h : cs.map cellOfChar = cells.map some) : ∀ c ∈ cs, IsTile c := by
  intro c hc
  have hsome : cellOfChar c ∈ cells.map some := h ▸ List.mem_map_of_mem hc
  obtain ⟨cell, -, hcell⟩ := List.mem_map.mp hsome
  exact isTile_of_cellOfChar hcell.symm

/-! ### A row -/

theorem rowCells_cons (y x : Nat) (c : Char) (rest : List Char) :
    rowCells y x (c :: rest) = match cellOfChar c with
      | none => .error (.unknownTile c x y)
      | some cell => (rowCells y (x + 1) rest).map (cell :: ·) := by
  rw [rowCells]
  cases cellOfChar c with
  | none => rfl
  | some cell => cases rowCells y (x + 1) rest <;> rfl

/-- All characters of a row stand for tiles, or there is a first one that does not. -/
theorem rowCells_cases (y x : Nat) (cs : List Char) :
    (∃ cells, rowCells y x cs = .ok cells ∧ cs.map cellOfChar = cells.map some) ∨
    ∃ known c after, cs = known ++ c :: after ∧ (∀ d ∈ known, IsTile d) ∧ ¬IsTile c ∧
      rowCells y x cs = .error (.unknownTile c (x + known.length) y) := by
  induction cs generalizing x with
  | nil => exact .inl ⟨[], rfl, rfl⟩
  | cons c rest ih =>
    rw [rowCells_cons]
    cases hcell : cellOfChar c with
    | none => exact .inr ⟨[], c, rest, rfl, by simp, cellOfChar_eq_none_iff.mp hcell, rfl⟩
    | some cell =>
      obtain ⟨cells, hok, hmap⟩ | ⟨known, d, after, rfl, hknown, hd, herror⟩ := ih (x + 1)
      · refine .inl ⟨cell :: cells, by rw [hok]; rfl, ?_⟩
        rw [List.map_cons, List.map_cons, hcell, hmap]
      · refine .inr ⟨c :: known, d, after, rfl, ?_, hd, ?_⟩
        · exact List.forall_mem_cons.mpr ⟨isTile_of_cellOfChar hcell, hknown⟩
        · rw [herror, List.length_cons, Nat.add_right_comm, Nat.add_assoc]
          rfl

theorem rowCells_unknown {known : List Char} {c : Char} (hc : ¬IsTile c) (x : Nat)
    (after : List Char) (hknown : ∀ d ∈ known, IsTile d) :
    rowCells y x (known ++ c :: after) = .error (.unknownTile c (x + known.length) y) := by
  induction known generalizing x with
  | nil => rw [List.nil_append, rowCells_cons, cellOfChar_eq_none_iff.mpr hc]; rfl
  | cons d known ih =>
    obtain ⟨hd, hrest⟩ := List.forall_mem_cons.mp hknown
    rw [List.cons_append, rowCells_cons]
    cases hcell : cellOfChar d with
    | none => exact absurd hd (cellOfChar_eq_none_iff.mp hcell)
    | some cell =>
      rw [ih (x + 1) hrest, List.length_cons, Nat.add_right_comm, Nat.add_assoc]
      rfl

/-- The row has the given width, and all its characters stand for tiles. -/
def Regular (width : Nat) (row : String) : Prop :=
  row.toList.length = width ∧ ∀ c ∈ row.toList, IsTile c

/-- What is wrong with a row: its width, or, if that is right, the first character that does not
stand for a tile. -/
inductive RowOffence (width y : Nat) (row : String) : GridError → Prop where
  | ragged (h : row.toList.length ≠ width) :
    RowOffence width y row (.ragged y row.toList.length width)
  | unknown {known after : List Char} {c : Char} (hwidth : row.toList.length = width)
    (hrow : row.toList = known ++ c :: after) (hknown : ∀ d ∈ known, IsTile d) (hc : ¬IsTile c) :
    RowOffence width y row (.unknownTile c known.length y)

/-- A regular row has nothing wrong with it. -/
theorem RowOffence.not_regular {row : String} (h : RowOffence width y row e) :
    ¬Regular width row := by
  rintro ⟨hwidth, htiles⟩
  cases h with
  | ragged hne => exact hne hwidth
  | unknown _ hrow _ hc => exact hc (htiles _ (by rw [hrow]; simp))

theorem Regular.rowCells {row : String} (h : Regular width row) (y : Nat) :
    ∃ cells, rowCells y 0 row.toList = .ok cells := by
  obtain ⟨cells, hok, -⟩ | ⟨known, c, after, hrow, -, hc, -⟩ := rowCells_cases y 0 row.toList
  · exact ⟨cells, hok⟩
  · exact absurd (h.2 c (by rw [hrow]; simp)) hc

/-! ### All rows -/

theorem allCells_cons (width y : Nat) (row : String) (rest : List String) :
    allCells width y (row :: rest) =
      if row.toList.length = width then
        match TileGrid.rowCells y 0 row.toList with
        | .error e => .error e
        | .ok cells => (allCells width (y + 1) rest).map (cells ++ ·)
      else .error (.ragged y row.toList.length width) := by
  rw [allCells]
  by_cases h : row.toList.length = width
  · rw [if_pos h, if_neg (not_not_intro h)]
    cases TileGrid.rowCells y 0 row.toList with
    | error e => rfl
    | ok cells => cases allCells width (y + 1) rest <;> rfl
  · rw [if_neg h, if_pos h]
    rfl

/-- The first row that is not regular, and what is wrong with it. Rows are numbered from `y` on. -/
def FirstOffence (width y : Nat) (rows : List String) (e : GridError) : Prop :=
  ∃ good row rest, rows = good ++ row :: rest ∧ (∀ r ∈ good, Regular width r) ∧
    RowOffence width (y + good.length) row e

theorem FirstOffence.not_regular (h : FirstOffence width y rows e) :
    ¬∀ row ∈ rows, Regular width row := by
  obtain ⟨good, row, rest, rfl, -, hrow⟩ := h
  exact fun hall => hrow.not_regular (hall row (by simp))

theorem FirstOffence.cons {row : String} (hrow : Regular width row)
    (h : FirstOffence width (y + 1) rows e) : FirstOffence width y (row :: rows) e := by
  obtain ⟨good, bad, rest, rfl, hgood, hbad⟩ := h
  refine ⟨row :: good, bad, rest, rfl, List.forall_mem_cons.mpr ⟨hrow, hgood⟩, ?_⟩
  rwa [List.length_cons, Nat.add_comm good.length, ← Nat.add_assoc]

/-- All rows are read, or there is a first one that is not regular. -/
theorem allCells_cases (width y : Nat) (rows : List String) :
    (∃ cells, allCells width y rows = .ok cells ∧ (∀ row ∈ rows, row.toList.length = width) ∧
      (rows.flatMap String.toList).map cellOfChar = cells.map some) ∨
    ∃ e, allCells width y rows = .error e ∧ FirstOffence width y rows e := by
  induction rows generalizing y with
  | nil => exact .inl ⟨[], rfl, by simp, rfl⟩
  | cons row rest ih =>
    rw [allCells_cons]
    by_cases hwidth : row.toList.length = width
    · rw [if_pos hwidth]
      obtain ⟨cells, hok, hmap⟩ | ⟨known, c, after, hrow, hknown, hc, herror⟩ :=
        rowCells_cases y 0 row.toList
      · rw [hok]
        obtain ⟨cells', hok', hwidth', hmap'⟩ | ⟨e, herror, hfirst⟩ := ih (y + 1)
        · refine .inl ⟨cells ++ cells', by rw [hok']; rfl,
            List.forall_mem_cons.mpr ⟨hwidth, hwidth'⟩, ?_⟩
          rw [List.flatMap_cons, List.map_append, List.map_append, hmap, hmap']
        · exact .inr ⟨e, by rw [herror]; rfl, hfirst.cons ⟨hwidth, isTile_of_map hmap⟩⟩
      · rw [herror, Nat.zero_add]
        exact .inr ⟨_, rfl, [], row, rest, rfl, by simp, .unknown hwidth hrow hknown hc⟩
    · rw [if_neg hwidth]
      exact .inr ⟨_, rfl, [], row, rest, rfl, by simp, .ragged hwidth⟩

theorem allCells_of_firstOffence (h : FirstOffence width y rows e) :
    allCells width y rows = .error e := by
  obtain ⟨good, row, rest, rfl, hgood, hrow⟩ := h
  induction good generalizing y with
  | nil =>
    rw [List.nil_append, allCells_cons]
    cases hrow with
    | ragged hne => rw [if_neg hne]; rfl
    | unknown hwidth hrow hknown hc =>
      rw [if_pos hwidth, hrow, rowCells_unknown hc 0 _ hknown, Nat.zero_add]
      rfl
  | cons r good ih =>
    obtain ⟨hr, hgood⟩ := List.forall_mem_cons.mp hgood
    obtain ⟨cells, hcells⟩ := hr.rowCells y
    rw [List.length_cons, Nat.add_comm good.length, ← Nat.add_assoc] at hrow
    rw [List.cons_append, allCells_cons, if_pos hr.1, hcells, ih hgood hrow]
    rfl

/-! ### The place of a character -/

/-- The character in column `x` and row `y` is at place `y * width + x`. -/
theorem getElem?_flatMap {x : Nat} (hwidth : ∀ row ∈ rows, row.toList.length = width)
    (hx : x < width) (y : Nat) :
    (rows.flatMap String.toList)[y * width + x]? = rows[y]?.bind (·.toList[x]?) := by
  induction rows generalizing y with
  | nil => rfl
  | cons row rest ih =>
    obtain ⟨hrow, hrest⟩ := List.forall_mem_cons.mp hwidth
    rw [List.flatMap_cons]
    cases y with
    | zero =>
      rw [Nat.zero_mul, Nat.zero_add, List.getElem?_append_left (by omega)]
      rfl
    | succ y =>
      rw [Nat.succ_mul, Nat.add_right_comm, List.getElem?_append_right (by omega), hrow,
        Nat.add_sub_cancel, ih hrest]
      rfl

theorem length_of_map {cells : List (Tile × UInt32)}
    (hwidth : ∀ row ∈ rows, row.toList.length = width)
    (hmap : (rows.flatMap String.toList).map cellOfChar = cells.map some) :
    cells.length = width * rows.length := by
  have hlength := congrArg List.length hmap
  rw [List.length_map, List.length_map, List.length_flatMap, List.map_congr_left hwidth] at hlength
  rw [← hlength]
  simp [Nat.mul_comm]

/-! ### The map -/

/-- The map shows what the rows draw: it has their width and number, and the character in column
`x` and row `y` stands for the tile there. -/
structure Drawn (rows : List String) (g : TileGrid) : Prop where
  width_eq : g.width = firstWidth rows
  height_eq : g.height = rows.length
  row_length : ∀ row ∈ rows, row.toList.length = g.width
  tiles_size : g.tiles.size = g.width * g.height
  zones_size : g.zones.size = g.width * g.height
  draws : ∀ y row, rows[y]? = some row → ∀ x c, row.toList[x]? = some c → ∃ tile zone,
    g.tiles[y * g.width + x]? = some tile ∧ g.zones[y * g.width + x]? = some zone ∧
      Draws c tile zone

namespace Drawn

variable {g g' : TileGrid} {x : Nat} {row : String} {c : Char}

/-- The rows whose characters are the given cells draw the map of these cells. -/
theorem of_cells {cells : List (Tile × UInt32)}
    (hwidth : ∀ row ∈ rows, row.toList.length = firstWidth rows)
    (hmap : (rows.flatMap String.toList).map cellOfChar = cells.map some) :
    Drawn rows {
      width := firstWidth rows
      height := rows.length
      tiles := (cells.map (·.1)).toArray
      zones := (cells.map (·.2)).toArray } where
  width_eq := rfl
  height_eq := rfl
  row_length := hwidth
  tiles_size := by rw [List.size_toArray, List.length_map, length_of_map hwidth hmap]
  zones_size := by rw [List.size_toArray, List.length_map, length_of_map hwidth hmap]
  draws y row hrow x c hc := by
    have hx : x < firstWidth rows := by
      rw [← hwidth row (List.mem_of_getElem? hrow)]
      exact (List.getElem?_eq_some_iff.mp hc).1
    have hchar := getElem?_flatMap hwidth hx y
    rw [hrow, Option.bind_some, hc] at hchar
    have hcell := congrArg (·[y * firstWidth rows + x]?) hmap
    simp only [List.getElem?_map, hchar, Option.map_some] at hcell
    obtain ⟨cell, hget, hcell⟩ := Option.map_eq_some_iff.mp hcell.symm
    refine ⟨cell.1, cell.2, ?_, ?_, draws_of_cellOfChar hcell.symm⟩ <;>
      rw [List.getElem?_toArray, List.getElem?_map, hget] <;> rfl

theorem row_of_lt (h : Drawn rows g) (hx : x < g.width) (hy : y < g.height) :
    ∃ row c, rows[y]? = some row ∧ row.toList[x]? = some c := by
  rw [h.height_eq] at hy
  rw [← h.row_length _ (List.getElem_mem hy)] at hx
  exact ⟨rows[y], rows[y].toList[x], List.getElem?_eq_getElem hy, List.getElem?_eq_getElem hx⟩

/-- Rows that draw a map are regular. -/
theorem regular (h : Drawn rows g) (hrow : row ∈ rows) : Regular (firstWidth rows) row := by
  refine ⟨(h.row_length row hrow).trans h.width_eq, fun c hc => ?_⟩
  obtain ⟨y, hy⟩ := List.mem_iff_getElem?.mp hrow
  obtain ⟨x, hx⟩ := List.mem_iff_getElem?.mp hc
  obtain ⟨tile, zone, -, -, hdraws⟩ := h.draws y row hy x c hx
  exact isTile_of_cellOfChar hdraws.cellOfChar

/-- Two maps that show the same rows have the same tile and the same zone at every place. -/
theorem getElem?_eq (h : Drawn rows g) (h' : Drawn rows g') (i : Nat) :
    g.tiles[i]? = g'.tiles[i]? ∧ g.zones[i]? = g'.zones[i]? := by
  have hwidth : g.width = g'.width := h.width_eq.trans h'.width_eq.symm
  have hheight : g.height = g'.height := h.height_eq.trans h'.height_eq.symm
  by_cases hi : i < g.width * g.height
  -- Every place belongs to one column and one row, where both maps show the same character.
  · have hpos : 0 < g.width := Nat.pos_of_mul_pos_right (Nat.zero_lt_of_lt hi)
    obtain ⟨row, c, hrow, hc⟩ := h.row_of_lt (Nat.mod_lt i hpos) (Nat.div_lt_of_lt_mul hi)
    obtain ⟨tile, zone, htile, hzone, hdraws⟩ := h.draws _ row hrow _ c hc
    obtain ⟨tile', zone', htile', hzone', hdraws'⟩ := h'.draws _ row hrow _ c hc
    rw [← hwidth] at htile' hzone'
    rw [Nat.mul_comm, Nat.div_add_mod] at htile hzone htile' hzone'
    obtain ⟨rfl, rfl⟩ := hdraws.unique hdraws'
    exact ⟨htile.trans htile'.symm, hzone.trans hzone'.symm⟩
  · have hi' : ¬i < g'.width * g'.height := hwidth ▸ hheight ▸ hi
    rw [← h.tiles_size] at hi
    rw [← h'.tiles_size] at hi'
    have hzones : g.zones.size = g.tiles.size := h.zones_size.trans h.tiles_size.symm
    have hzones' : g'.zones.size = g'.tiles.size := h'.zones_size.trans h'.tiles_size.symm
    constructor <;> rw [Array.getElem?_eq_none (by omega), Array.getElem?_eq_none (by omega)]

/-- Rows draw only one map. -/
theorem unique (h : Drawn rows g) (h' : Drawn rows g') : g = g' := by
  have hwidth : g.width = g'.width := h.width_eq.trans h'.width_eq.symm
  have hheight : g.height = g'.height := h.height_eq.trans h'.height_eq.symm
  have htiles : g.tiles = g'.tiles := Array.ext_getElem? fun i => (h.getElem?_eq h' i).1
  have hzones : g.zones = g'.zones := Array.ext_getElem? fun i => (h.getElem?_eq h' i).2
  cases g
  cases g'
  congr

/-- The character at a position stands for the tile and the zone that are found there. -/
theorem draws_at (h : Drawn rows g) {pos : Vec2} (hcell : cell pos = (↑x, ↑y))
    (hrow : rows[y]? = some row) (hc : row.toList[x]? = some c) :
    Draws c (g.tileAt pos) (g.zoneAt pos) := by
  obtain ⟨hy, hy'⟩ := List.getElem?_eq_some_iff.mp hrow
  have hx := (List.getElem?_eq_some_iff.mp hc).1
  rw [h.row_length row (List.mem_of_getElem? hrow)] at hx
  rw [← h.height_eq] at hy
  have hindex : g.index? pos = some (y * g.width + x) := by
    unfold index? cellIndex?
    rw [hcell, if_pos (by simp only; omega)]
    rfl
  obtain ⟨tile, zone, htile, hzone, hdraws⟩ := h.draws y row hrow x c hc
  unfold tileAt zoneAt
  simp only [hindex]
  rw [Array.getD_eq_getD_getElem?, Array.getD_eq_getD_getElem?, htile, hzone]
  exact hdraws

end Drawn

/-! ### Reading -/

theorem ofRows_eq (rows : List String) :
    ofRows rows = (allCells (firstWidth rows) 0 rows).map fun cells => {
      width := firstWidth rows
      height := rows.length
      tiles := (cells.map (·.1)).toArray
      zones := (cells.map (·.2)).toArray } := by
  show bind (allCells (firstWidth rows) 0 rows) _ = _
  cases allCells (firstWidth rows) 0 rows <;> rfl

/-- Reading gives a map, or the error of the first row that is not regular. -/
theorem ofRows_cases (rows : List String) :
    (∃ g, ofRows rows = .ok g ∧ Drawn rows g) ∨
    ∃ e, ofRows rows = .error e ∧ FirstOffence (firstWidth rows) 0 rows e := by
  rw [ofRows_eq]
  obtain ⟨cells, hok, hwidth, hmap⟩ | ⟨e, herror, hfirst⟩ :=
    allCells_cases (firstWidth rows) 0 rows
  · rw [hok]
    exact .inl ⟨_, rfl, .of_cells hwidth hmap⟩
  · rw [herror]
    exact .inr ⟨e, rfl, hfirst⟩

theorem ofRows_eq_error_iff :
    ofRows rows = .error e ↔ FirstOffence (firstWidth rows) 0 rows e := by
  constructor
  · intro h
    obtain ⟨g, hok, -⟩ | ⟨e', herror, hfirst⟩ := ofRows_cases rows
    · rw [hok] at h
      cases h
    · rw [herror] at h
      cases h
      exact hfirst
  · intro h
    rw [ofRows_eq, allCells_of_firstOffence h]
    rfl

theorem exists_ofRows_iff :
    (∃ g, ofRows rows = .ok g) ↔ ∀ row ∈ rows, Regular (firstWidth rows) row := by
  obtain ⟨g, hok, hdrawn⟩ | ⟨e, herror, hfirst⟩ := ofRows_cases rows
  · exact iff_of_true ⟨g, hok⟩ fun row => hdrawn.regular
  · rw [herror]
    exact iff_of_false (fun ⟨g, h⟩ => nomatch h) hfirst.not_regular

theorem ofRows_eq_ok_iff {g : TileGrid} : ofRows rows = .ok g ↔ Drawn rows g := by
  obtain ⟨g', hok, hdrawn⟩ | ⟨e, herror, hfirst⟩ := ofRows_cases rows
  · rw [hok, Except.ok.injEq]
    exact ⟨fun h => h ▸ hdrawn, hdrawn.unique⟩
  · rw [herror]
    exact iff_of_false (fun h => nomatch h) fun h => hfirst.not_regular fun row => h.regular

/-- Rows are read just if they are regular, as the one map that they draw, where every character
is found at the positions in its cell. Otherwise the error is what is wrong with the first row
that is not regular. -/
theorem ofRows_exact (rows : List String) :
    ((∃ g, ofRows rows = .ok g) ↔ ∀ row ∈ rows, Regular (firstWidth rows) row) ∧
    (∀ g, ofRows rows = .ok g ↔ Drawn rows g) ∧
    (∀ g, ofRows rows = .ok g → ∀ (pos : Vec2) (x y : Nat) (row : String) (c : Char),
      cell pos = (↑x, ↑y) → rows[y]? = some row → row.toList[x]? = some c →
        Draws c (g.tileAt pos) (g.zoneAt pos)) ∧
    ∀ e, ofRows rows = .error e ↔ FirstOffence (firstWidth rows) 0 rows e :=
  ⟨exists_ofRows_iff, fun _ => ofRows_eq_ok_iff,
    fun _ hok _ _ _ _ _ => (ofRows_eq_ok_iff.mp hok).draws_at, fun _ => ofRows_eq_error_iff⟩

/-- The digit of this map is found at the middle of its tile. In the other rows, the character
that no tile has comes before the row that is too short. -/
theorem ofRows_exact_two_rows :
    (∃ g, ofRows ["#.2*", "9##."] = .ok g ∧
      Draws '2' (g.tileAt ⟨80.0, 16.0⟩) (g.zoneAt ⟨80.0, 16.0⟩)) ∧
    FirstOffence 2 0 ["##", "é?", "#"] (.unknownTile 'é' 0 1) := by
  obtain ⟨g, hok⟩ := (ofRows_exact ["#.2*", "9##."]).1.mpr (by
    simp [Regular, firstWidth, IsTile])
  have hcell : cell ⟨80.0, 16.0⟩ = (2, 0) := by decide
  refine ⟨⟨g, hok, ?_⟩, ?_⟩
  · exact (ofRows_exact ["#.2*", "9##."]).2.2.1 g hok _ 2 0 "#.2*" '2' hcell rfl rfl
  · exact ((ofRows_exact ["##", "é?", "#"]).2.2.2 _).mp rfl

end TileGrid

end Volley
