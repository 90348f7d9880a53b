import Mathlib.Data.List.Nodup
import TileWalk.Board.Basic
import TileWalk.Proofs.Board.Neighbours

/-!
# Boards made of rows

What a board keeps of its rows (`Board.isProper_of_ofRows`): the grid is small enough for its
positions and their neighbours, agents start on cells that can be walked on, and there are fewer
starting places and items than identifiers. The cell kept at place `n` is found again under its
position (`Grid.offset?_posOf`), which is where the size of the grid counts. So the starting places
and the items are those that the cells of the grid name, each listed once (`Board.mem_spawns_iff`,
`Board.mem_items_iff`).

Rows make a grid exactly if they are of one length (`Grid.ofRows_eq_ok_iff`), and the cell of a
position is found in its row (`Grid.cell?_of_ofRows`).
-/

namespace TileWalk

open Outcome

/-! ### Places and positions -/

namespace Grid

variable {g : Grid} {n : Nat} {p : Pos} {c : Cell}

theorem sides_ne_zero_of_ofRows {rows : List (List UInt32)} (h : ofRows rows = .ok g) :
    g.width ≠ 0 ∧ g.height ≠ 0 := by
  unfold ofRows at h
  dsimp only at h
  split_ifs at h with hw
  split at h
  · cases h
  · obtain rfl := Except.ok.inj h
    refine ⟨hw, ?_⟩
    show rows.length ≠ 0
    intro h0
    rw [List.length_eq_zero_iff.mp h0] at hw
    exact hw rfl

/-- A grid of fewer than `2 ^ 31` cells has short sides. -/
theorem isSmall_of_size (hw : g.width ≠ 0) (hh : g.height ≠ 0) (hsize : g.cells.size < 2 ^ 31) :
    g.IsSmall := by
  rw [g.size_cells] at hsize
  constructor
  · have := Nat.le_mul_of_pos_right g.width (Nat.pos_of_ne_zero hh)
    omega
  · have := Nat.le_mul_of_pos_left g.height (Nat.pos_of_ne_zero hw)
    omega

theorem mem_entries : (p, c) ∈ g.entries ↔ ∃ n, g.cells[n]? = some c ∧ g.posOf n = p := by
  unfold entries
  rw [List.mem_mapIdx]
  constructor
  · rintro ⟨n, hn, he⟩
    obtain ⟨rfl, rfl⟩ := Prod.mk.inj he
    exact ⟨n, by rw [Array.getElem?_eq_getElem (by simpa using hn)]; simp, rfl⟩
  · rintro ⟨n, hn, rfl⟩
    obtain ⟨hlt, rfl⟩ := Array.getElem?_eq_some_iff.mp hn
    exact ⟨n, by simpa using hlt, by simp⟩

theorem length_entries (g : Grid) : g.entries.length = g.cells.size := by
  simp [entries]

theorem column_row_lt (hn : n < g.cells.size) : n % g.width < g.width ∧ n / g.width < g.height := by
  have hlt : n < g.width * g.height := g.size_cells ▸ hn
  exact ⟨Nat.mod_lt n (Nat.pos_of_mul_pos_right (Nat.zero_lt_of_lt hlt)), Nat.div_lt_of_lt_mul hlt⟩

/-- Column and row of a cell fit into the coordinates. -/
theorem toInt_posOf (hg : g.IsSmall) (hn : n < g.cells.size) :
    (g.posOf n).x.toInt = (n % g.width : Nat) ∧ (g.posOf n).y.toInt = (n / g.width : Nat) := by
  obtain ⟨hcolumn, hrow⟩ := column_row_lt hn
  exact ⟨Int32.toInt_ofNat_of_lt (Nat.lt_trans hcolumn hg.1),
    Int32.toInt_ofNat_of_lt (Nat.lt_trans hrow hg.2)⟩

/-- The position of the cell kept at place `n` leads back to place `n`. -/
theorem offset?_posOf (hg : g.IsSmall) (hn : n < g.cells.size) :
    g.offset? (g.posOf n) = some n := by
  obtain ⟨hcolumn, hrow⟩ := column_row_lt hn
  obtain ⟨hx, hy⟩ := toInt_posOf hg hn
  unfold offset?
  rw [hx, hy]
  dsimp only
  rw [if_pos ⟨Int.natCast_nonneg _, Int.natCast_nonneg _, Int.ofNat_lt.mpr hcolumn,
    Int.ofNat_lt.mpr hrow⟩]
  simp only [Int.toNat_natCast, Option.some.injEq]
  rw [Nat.mul_comm]
  exact Nat.div_add_mod n g.width

/-- A position of the grid is the position of the place where its cell is kept. -/
theorem posOf_of_offset? (h : g.offset? p = some n) : g.posOf n = p := by
  unfold offset? at h
  dsimp only at h
  split_ifs at h with hin
  obtain ⟨hx, hy, hwidth, -⟩ := hin
  obtain rfl := Option.some.inj h
  have hlt : p.x.toInt.toNat < g.width := by omega
  have hcolumn : (p.y.toInt.toNat * g.width + p.x.toInt.toNat) % g.width = p.x.toInt.toNat := by
    rw [Nat.mul_comm, Nat.mul_add_mod, Nat.mod_eq_of_lt hlt]
  have hrow : (p.y.toInt.toNat * g.width + p.x.toInt.toNat) / g.width = p.y.toInt.toNat := by
    rw [Nat.mul_comm, Nat.mul_add_div (by omega), Nat.div_eq_of_lt hlt, Nat.add_zero]
  have hword : ∀ c : Int32, 0 ≤ c.toInt → Int32.ofNat c.toInt.toNat = c := by
    intro c hc
    have hbound := c.toInt_lt
    apply Int32.toInt_inj.mp
    rw [Int32.toInt_ofNat_of_lt (by omega)]
    omega
  unfold posOf
  rw [hcolumn, hrow, hword _ hx, hword _ hy]

/-- The place of a position is one of the places of the cells. -/
theorem lt_size_of_offset? {n : Nat} (h : g.offset? p = some n) : n < g.cells.size := by
  unfold offset? at h
  dsimp only at h
  split_ifs at h with hon
  obtain rfl := Option.some.inj h
  obtain ⟨hx0, hy0, hx, hy⟩ := hon
  have hrow : p.y.toInt.toNat + 1 ≤ g.height := by omega
  have hcolumn : p.x.toInt.toNat < g.width := by omega
  calc p.y.toInt.toNat * g.width + p.x.toInt.toNat
      < p.y.toInt.toNat * g.width + g.width := Nat.add_lt_add_left hcolumn _
    _ = (p.y.toInt.toNat + 1) * g.width := (Nat.succ_mul _ _).symm
    _ ≤ g.height * g.width := Nat.mul_le_mul_right _ hrow
    _ = g.cells.size := by rw [g.size_cells, Nat.mul_comm]

theorem contains_of_cell? (h : g.cell? p = some c) : g.contains p = true := by
  unfold cell? at h
  obtain ⟨n, hn, -⟩ := Option.bind_eq_some_iff.mp h
  unfold contains
  rw [hn]
  rfl

theorem exists_cell? (h : g.contains p = true) : ∃ c, g.cell? p = some c := by
  obtain ⟨n, hn⟩ := Option.isSome_iff_exists.mp h
  have hlt := lt_size_of_offset? hn
  refine ⟨g.cells[n], ?_⟩
  rw [cell?, hn]
  exact Array.getElem?_eq_getElem hlt

theorem map_fst_entries (g : Grid) :
    g.entries.map Prod.fst = (List.range g.cells.size).map g.posOf := by
  apply List.ext_getElem?
  intro n
  by_cases hn : n < g.cells.size
  · simp [entries, hn]
  · simp [entries, Nat.not_lt.mp hn]

/-- Every cell is listed once. -/
theorem nodup_entries (hg : g.IsSmall) : (g.entries.map Prod.fst).Nodup := by
  rw [map_fst_entries, List.nodup_map_iff_inj_on List.nodup_range]
  intro m hm n hn heq
  have hback := offset?_posOf hg (List.mem_range.mp hm)
  rw [heq, offset?_posOf hg (List.mem_range.mp hn)] at hback
  exact (Option.some.inj hback).symm

theorem mem_entries_iff (hg : g.IsSmall) : (p, c) ∈ g.entries ↔ g.cell? p = some c := by
  constructor
  · intro h
    obtain ⟨n, hn, rfl⟩ := mem_entries.mp h
    obtain ⟨hlt, -⟩ := Array.getElem?_eq_some_iff.mp hn
    rw [cell?, offset?_posOf hg hlt]
    exact hn
  · intro h
    unfold cell? at h
    obtain ⟨n, hn, hcell⟩ := Option.bind_eq_some_iff.mp h
    exact mem_entries.mpr ⟨n, hcell, posOf_of_offset? hn⟩

theorem isWalkable_of_mem_entries (hg : g.IsSmall) (h : (p, c) ∈ g.entries)
    (hc : c.isWalkable = true) : g.isWalkable p = true := by
  unfold isWalkable
  rw [(mem_entries_iff hg).mp h]
  exact hc

end Grid

/-! ### Rows and cells -/

namespace Grid

variable {g : Grid} {rows : List (List UInt32)} {width n x y : Nat} {p : Pos}

theorem firstRagged?_eq_none_iff :
    firstRagged? width n rows = none ↔ ∀ row ∈ rows, row.length = width := by
  induction rows generalizing n with
  | nil => simp [firstRagged?]
  | cons row rows ih =>
    rw [firstRagged?, List.forall_mem_cons]
    by_cases hrow : row.length = width
    · rw [if_pos hrow, ih]
      exact (and_iff_right hrow).symm
    · rw [if_neg hrow]
      simp [hrow]

theorem ofRows_eq_ok_iff : ofRows rows = .ok g ↔ (rows.headD []).length ≠ 0 ∧
    (∀ row ∈ rows, row.length = (rows.headD []).length) ∧ g.width = (rows.headD []).length ∧
      g.height = rows.length ∧ g.cells = (rows.flatten.map Cell.mk).toArray := by
  unfold ofRows
  dsimp only
  by_cases hempty : (rows.headD []).length = 0
  · rw [if_pos hempty]
    constructor
    · intro h
      cases h
    · intro h
      exact absurd hempty h.1
  · rw [if_neg hempty]
    split
    · next row got hragged =>
      have hnot : ¬ ∀ row ∈ rows, row.length = (rows.headD []).length := by
        rw [← firstRagged?_eq_none_iff (n := 0), hragged]
        simp
      constructor
      · intro h
        cases h
      · rintro ⟨-, hall, -⟩
        exact absurd hall hnot
    · next hnone =>
      have hall := firstRagged?_eq_none_iff.mp hnone
      constructor
      · intro h
        obtain rfl := Except.ok.inj h
        exact ⟨hempty, hall, rfl, rfl, rfl⟩
      · rintro ⟨-, -, hwidth, hheight, hcells⟩
        obtain ⟨w, h, cells, hsize⟩ := g
        obtain rfl : w = _ := hwidth
        obtain rfl : h = _ := hheight
        obtain rfl : cells = _ := hcells
        rfl

theorem exists_ofRows (hempty : (rows.headD []).length ≠ 0)
    (hrows : ∀ row ∈ rows, row.length = (rows.headD []).length) : ∃ g, ofRows rows = .ok g := by
  have hsize : (rows.flatten.map Cell.mk).toArray.size = (rows.headD []).length * rows.length := by
    rw [List.size_toArray, List.length_map]
    exact length_flatten_of_firstRagged?_eq_none (n := 0) (firstRagged?_eq_none_iff.mpr hrows)
  exact ⟨⟨_, _, _, hsize⟩, ofRows_eq_ok_iff.mpr ⟨hempty, hrows, rfl, rfl, rfl⟩⟩

/-- Rows of the same length are found one after the other. -/
theorem getElem?_flatten (hrows : ∀ row ∈ rows, row.length = width) (hx : x < width) :
    rows.flatten[y * width + x]? = rows[y]?.bind (·[x]?) := by
  induction rows generalizing y with
  | nil => simp
  | cons row rows ih =>
    obtain ⟨hrow, hrest⟩ := List.forall_mem_cons.mp hrows
    rw [List.flatten_cons]
    cases y with
    | zero =>
      rw [Nat.zero_mul, Nat.zero_add, List.getElem?_append_left (by omega)]
      rfl
    | succ y =>
      have hskip : (y + 1) * width + x - row.length = y * width + x := by
        rw [hrow, Nat.succ_mul]
        omega
      have hlater : row.length ≤ (y + 1) * width + x := by
        rw [hrow, Nat.succ_mul]
        omega
      rw [List.getElem?_append_right hlater, hskip, ih hrest, List.getElem?_cons_succ]

/-- The cell of a position is found in its row. -/
theorem cell?_of_ofRows (h : ofRows rows = .ok g) (hp : g.contains p = true) :
    g.cell? p = (rows[p.y.toInt.toNat]?.bind (·[p.x.toInt.toNat]?)).map Cell.mk := by
  obtain ⟨-, hrows, hwidth, hheight, hcells⟩ := ofRows_eq_ok_iff.mp h
  have hin := contains_iff.mp hp
  have hoffset : g.offset? p = some (p.y.toInt.toNat * g.width + p.x.toInt.toNat) := by
    unfold offset?
    exact if_pos hin
  rw [← hwidth] at hrows
  rw [← getElem?_flatten hrows (by omega), cell?, hoffset, hcells, ← List.getElem?_map]
  exact List.getElem?_toArray

end Grid

/-! ### Starting places and items -/

namespace Board

variable {b : Board} {rows : List (List UInt32)} {entries : List (Pos × Cell)}
  {spawns : List Spawn} {s : Spawn} {p : Pos} {c : Cell}

theorem spawnAt?_eq_ok_some_iff : spawnAt? p c = .ok (some s) ↔ s.pos = p ∧ c.hasSpawn = true ∧
    c.isWalkable = true ∧ Facing.ofRaw c.facingBits = .ok s.facing := by
  unfold spawnAt?
  by_cases hspawn : c.hasSpawn = true
  · by_cases hwalkable : c.isWalkable = true
    · rw [if_pos hspawn, if_pos hwalkable]
      cases hf : Facing.ofRaw c.facingBits with
      | error e => simp
      | ok f =>
        simp only [Except.ok.injEq, Option.some.injEq, Spawn.ext_iff, hspawn, hwalkable, true_and]
        exact and_congr_left' eq_comm
    · rw [if_pos hspawn, if_neg hwalkable]
      simp [hwalkable]
  · rw [if_neg hspawn]
    simp [hspawn]

theorem spawnsOf_cons_eq_ok_iff :
    spawnsOf ((p, c) :: entries) = .ok spawns ↔
      ∃ s? rest, spawnAt? p c = .ok s? ∧ spawnsOf entries = .ok rest ∧
        s?.toList ++ rest = spawns := by
  rw [spawnsOf]
  simp only [bind_eq_ok_iff, pure_eq_ok_iff]
  constructor
  · rintro ⟨s?, hs, rest, hr, he⟩
    exact ⟨s?, rest, hs, hr, he⟩
  · rintro ⟨s?, rest, hs, hr, he⟩
    exact ⟨s?, hs, rest, hr, he⟩

theorem mem_spawnsOf_iff (h : spawnsOf entries = .ok spawns) :
    s ∈ spawns ↔ ∃ e ∈ entries, spawnAt? e.1 e.2 = .ok (some s) := by
  induction entries generalizing spawns with
  | nil =>
    obtain rfl := Except.ok.inj h
    simp
  | cons e entries ih =>
    obtain ⟨s?, rest, hs?, hrest, rfl⟩ := spawnsOf_cons_eq_ok_iff.mp h
    rw [List.mem_append, Option.mem_toList, ih hrest]
    simp [hs?]

theorem exists_spawnsOf_iff : (∃ spawns, spawnsOf entries = .ok spawns) ↔
    ∀ e ∈ entries, ∃ s?, spawnAt? e.1 e.2 = .ok s? := by
  induction entries with
  | nil => simp [spawnsOf]
  | cons e entries ih =>
    rw [List.forall_mem_cons, ← ih]
    constructor
    · rintro ⟨spawns, h⟩
      obtain ⟨s?, rest, hs?, hrest, -⟩ := spawnsOf_cons_eq_ok_iff.mp h
      exact ⟨⟨s?, hs?⟩, rest, hrest⟩
    · rintro ⟨⟨s?, hs?⟩, rest, hrest⟩
      exact ⟨_, spawnsOf_cons_eq_ok_iff.mpr ⟨s?, rest, hs?, hrest, rfl⟩⟩

/-- Starting places are listed in the order of their cells. -/
theorem sublist_spawnsOf (h : spawnsOf entries = .ok spawns) :
    (spawns.map Spawn.pos).Sublist (entries.map Prod.fst) := by
  induction entries generalizing spawns with
  | nil =>
    obtain rfl := Except.ok.inj h
    exact List.Sublist.refl []
  | cons e entries ih =>
    obtain ⟨s?, rest, hs?, hrest, rfl⟩ := spawnsOf_cons_eq_ok_iff.mp h
    cases s? with
    | none => exact (ih hrest).cons _
    | some s =>
      obtain ⟨hpos, -⟩ := spawnAt?_eq_ok_some_iff.mp hs?
      show (s.pos :: rest.map Spawn.pos).Sublist (e.1 :: entries.map Prod.fst)
      rw [hpos]
      exact (ih hrest).cons_cons _

/-- What every board has that was made of fewer than `2 ^ 31` cells. -/
structure IsProper (b : Board) : Prop where
  /-- The neighbours of its positions have coordinates. -/
  small : b.grid.IsSmall
  /-- Agents start where one can stand. -/
  spawn_walkable : ∀ s ∈ b.spawns, b.grid.isWalkable s.pos = true
  /-- Agents have distinct numbers. -/
  length_spawns_lt : b.spawns.length < UInt32.size
  /-- Items have distinct numbers. -/
  length_items_lt : b.items.length < UInt32.size

theorem ofRows_eq_ok_iff : ofRows rows = .ok b ↔
    Grid.ofRows rows = .ok b.grid ∧ spawnsOf b.grid.entries = .ok b.spawns ∧
      b.items = itemsOf b.grid.entries := by
  unfold ofRows
  simp only [bind_eq_ok_iff, pure_eq_ok_iff]
  constructor
  · rintro ⟨g, hg, spawns, hs, rfl⟩
    exact ⟨hg, hs, rfl⟩
  · rintro ⟨hg, hs, hi⟩
    refine ⟨b.grid, hg, b.spawns, hs, ?_⟩
    rw [← hi]

theorem isProper_of_ofRows (h : ofRows rows = .ok b)
    (hsize : b.grid.cells.size < 2 ^ 31) : b.IsProper := by
  obtain ⟨hgrid, hspawns, hitems⟩ := ofRows_eq_ok_iff.mp h
  obtain ⟨hw, hh⟩ := Grid.sides_ne_zero_of_ofRows hgrid
  have hsmall : b.grid.IsSmall := Grid.isSmall_of_size hw hh hsize
  have hlen : b.grid.entries.length < UInt32.size := by
    rw [Grid.length_entries]
    exact Nat.lt_trans hsize (by decide)
  refine ⟨hsmall, ?_, ?_, ?_⟩
  · intro s hs
    obtain ⟨⟨p, c⟩, hmem, hat⟩ := (mem_spawnsOf_iff hspawns).mp hs
    obtain ⟨hpos, -, hc, -⟩ := spawnAt?_eq_ok_some_iff.mp hat
    rw [hpos]
    exact Grid.isWalkable_of_mem_entries hsmall hmem hc
  · have hle := (sublist_spawnsOf hspawns).length_le
    rw [List.length_map, List.length_map] at hle
    exact Nat.lt_of_le_of_lt hle hlen
  · rw [hitems, itemsOf, List.length_map]
    exact Nat.lt_of_le_of_lt (List.length_filter_le _ _) hlen

/-! ### What the lists of a board say of its cells -/

theorem mem_spawns_iff (h : ofRows rows = .ok b) (hg : b.grid.IsSmall) :
    s ∈ b.spawns ↔ ∃ c, b.grid.cell? s.pos = some c ∧ c.hasSpawn = true ∧ c.isWalkable = true ∧
      Facing.ofRaw c.facingBits = .ok s.facing := by
  obtain ⟨-, hspawns, -⟩ := ofRows_eq_ok_iff.mp h
  rw [mem_spawnsOf_iff hspawns]
  constructor
  · rintro ⟨⟨p, c⟩, hmem, hat⟩
    obtain ⟨hpos, hcell⟩ := spawnAt?_eq_ok_some_iff.mp hat
    rw [hpos]
    exact ⟨c, (Grid.mem_entries_iff hg).mp hmem, hcell⟩
  · rintro ⟨c, hc, hcell⟩
    exact ⟨(s.pos, c), (Grid.mem_entries_iff hg).mpr hc, spawnAt?_eq_ok_some_iff.mpr ⟨rfl, hcell⟩⟩

theorem mem_items_iff (h : ofRows rows = .ok b) (hg : b.grid.IsSmall) :
    p ∈ b.items ↔ ∃ c, b.grid.cell? p = some c ∧ c.isWalkable = true ∧ c.hasItem = true := by
  obtain ⟨-, -, hitems⟩ := ofRows_eq_ok_iff.mp h
  rw [hitems, itemsOf, List.mem_map]
  constructor
  · rintro ⟨⟨q, c⟩, hmem, rfl⟩
    obtain ⟨hentry, hboth⟩ := List.mem_filter.mp hmem
    obtain ⟨hwalkable, hitem⟩ := Bool.and_eq_true_iff.mp hboth
    exact ⟨c, (Grid.mem_entries_iff hg).mp hentry, hwalkable, hitem⟩
  · rintro ⟨c, hc, hwalkable, hitem⟩
    refine ⟨(p, c), List.mem_filter.mpr ⟨(Grid.mem_entries_iff hg).mpr hc, ?_⟩, rfl⟩
    exact Bool.and_eq_true_iff.mpr ⟨hwalkable, hitem⟩

/-- Whoever starts on a cell of a board can use it. -/
theorem exists_facing_of_hasSpawn (h : ofRows rows = .ok b) (hg : b.grid.IsSmall)
    (hc : b.grid.cell? p = some c) (hspawn : c.hasSpawn = true) :
    c.isWalkable = true ∧ ∃ f, Facing.ofRaw c.facingBits = .ok f := by
  obtain ⟨-, hspawns, -⟩ := ofRows_eq_ok_iff.mp h
  obtain ⟨s?, hs?⟩ := exists_spawnsOf_iff.mp ⟨_, hspawns⟩ (p, c) ((Grid.mem_entries_iff hg).mpr hc)
  unfold spawnAt? at hs?
  rw [if_pos hspawn] at hs?
  split_ifs at hs? with hwalkable
  cases hf : Facing.ofRaw c.facingBits with
  | ok f => exact ⟨hwalkable, f, rfl⟩
  | error e =>
    dsimp only at hs?
    rw [hf] at hs?
    cases hs?

theorem nodup_spawns (h : ofRows rows = .ok b) (hg : b.grid.IsSmall) : b.spawns.Nodup := by
  obtain ⟨-, hspawns, -⟩ := ofRows_eq_ok_iff.mp h
  exact List.Nodup.of_map _ ((Grid.nodup_entries hg).sublist (sublist_spawnsOf hspawns))

theorem nodup_items (h : ofRows rows = .ok b) (hg : b.grid.IsSmall) : b.items.Nodup := by
  obtain ⟨-, -, hitems⟩ := ofRows_eq_ok_iff.mp h
  rw [hitems]
  exact (Grid.nodup_entries hg).sublist (List.filter_sublist.map _)

end Board

end TileWalk
