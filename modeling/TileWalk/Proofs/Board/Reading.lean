import Mathlib.Data.List.Perm.Basic
import Mathlib.Data.Nat.Bitwise
import Mathlib.Tactic.IntervalCases
import TileWalk.Proofs.Board.Rows

/-!
# Reading the rows of a board

Rows of numbers are read as a board, or refused for the first reason that applies
(`Board.ReadsAs`): there is no cell, a row differs in length from the first one, or an agent starts
on a cell that it cannot use. The board that is read shows the rows (`Board.Shows`), and no other
board does (`Board.Shows.eq`). So `Board.ofRows_eq_iff` says exactly what comes of rows for which
room for fewer than `2 ^ 31` cells is made.

A cell has a place in its row, a place among all cells and a position, and these agree
(`Board.hasAt_iff`). Cells come in the order of reading, the rows from top to bottom and each row
from left to right (`Pos.Before`, `Grid.pairwise_entries`).
-/

namespace TileWalk

open Outcome

/-! ### The order of reading -/

/-- The first position is read before the second one. -/
def Pos.Before (p q : Pos) : Prop :=
  p.y.toInt < q.y.toInt ∨ p.y = q.y ∧ p.x.toInt < q.x.toInt

namespace Pos

variable {p q : Pos}

theorem Before.asymm (h : p.Before q) : ¬ q.Before p := by
  rintro (hrow | ⟨hrow, hcolumn⟩)
  · rcases h with h | ⟨h, -⟩
    · omega
    · rw [h] at hrow
      omega
  · rcases h with h | ⟨-, h⟩
    · rw [hrow] at h
      omega
    · omega

theorem Before.irrefl (p : Pos) : ¬ p.Before p :=
  fun h => h.asymm h

theorem nodup_of_pairwise_before {l : List Pos} (h : l.Pairwise Before) : l.Nodup := by
  refine h.imp ?_
  rintro p _ hbefore rfl
  exact Before.irrefl p hbefore

/-- In the order of reading a list is known by its members. -/
theorem eq_of_pairwise_before {α : Type} {pos : α → Pos} {l l' : List α}
    (h : (l.map pos).Pairwise Before) (h' : (l'.map pos).Pairwise Before)
    (hmem : ∀ a, a ∈ l ↔ a ∈ l') : l = l' := by
  have hperm : l.Perm l' :=
    (List.perm_ext_iff_of_nodup (nodup_of_pairwise_before h).of_map
      (nodup_of_pairwise_before h').of_map).mpr hmem
  refine List.Perm.eq_of_pairwise ?_ (List.pairwise_map.mp h) (List.pairwise_map.mp h') hperm
  intro a b _ _ hab hba
  exact absurd hba hab.asymm

end Pos

namespace Grid

variable {g g' : Grid} {rows : List (List UInt32)} {p : Pos}

theorem before_posOf {m n : Nat} (hg : g.IsSmall) (hn : n < g.cells.size) (hmn : m < n) :
    (g.posOf m).Before (g.posOf n) := by
  obtain ⟨hxm, hym⟩ := toInt_posOf hg (Nat.lt_trans hmn hn)
  obtain ⟨hxn, hyn⟩ := toInt_posOf hg hn
  have hrows : m / g.width ≤ n / g.width := Nat.div_le_div_right (Nat.le_of_lt hmn)
  rcases Nat.lt_or_eq_of_le hrows with hlt | heq
  · left
    omega
  · right
    refine ⟨Int32.toInt_inj.mp (by omega), ?_⟩
    have hm := Nat.div_add_mod m g.width
    have hn := Nat.div_add_mod n g.width
    rw [heq] at hm
    omega

/-- Cells are listed in the order of reading. -/
theorem pairwise_entries (hg : g.IsSmall) : (g.entries.map Prod.fst).Pairwise Pos.Before := by
  rw [map_fst_entries, List.pairwise_map]
  refine List.Pairwise.imp_of_mem ?_ List.pairwise_lt_range
  intro m n _ hn hmn
  exact before_posOf hg (List.mem_range.mp hn) hmn

/-- A grid is what it answers. -/
theorem eq_of_cell?_eq (hg : g.IsSmall) (hwidth : g'.width = g.width)
    (hheight : g'.height = g.height) (hcells : ∀ p, g'.cell? p = g.cell? p) : g' = g := by
  have hg' : g'.IsSmall := by
    unfold IsSmall
    rw [hwidth, hheight]
    exact hg
  have hsize : g'.cells.size = g.cells.size := by
    rw [g'.size_cells, g.size_cells, hwidth, hheight]
  have hsame : g'.cells = g.cells := by
    apply Array.ext_getElem?
    intro n
    by_cases hn : n < g.cells.size
    · have hpos : g'.posOf n = g.posOf n := by
        unfold posOf
        rw [hwidth]
      have hat := hcells (g.posOf n)
      rw [cell?, cell?, offset?_posOf hg hn, ← hpos, offset?_posOf hg' (hsize ▸ hn)] at hat
      exact hat
    · rw [Array.getElem?_eq_none (Nat.not_lt.mp hn),
        Array.getElem?_eq_none (hsize ▸ Nat.not_lt.mp hn)]
  cases g
  cases g'
  cases hwidth
  cases hheight
  cases hsame
  rfl

end Grid

/-! ### Bits of a cell -/

/-- A mask of one bit asks for that bit. -/
theorem Cell.and_ne_zero_iff {bits mask : UInt32} {i : Nat} (hmask : mask.toNat = 2 ^ i) :
    bits &&& mask ≠ 0 ↔ bits.toNat.testBit i = true := by
  rw [← not_iff_not, not_not, ← UInt32.toNat_inj, UInt32.toNat_and, hmask, Nat.and_two_pow]
  cases bits.toNat.testBit i <;> simp

namespace Cell

variable {c : Cell}

theorem isWalkable_iff : c.isWalkable = true ↔ c.bits.toNat.testBit 0 = true := by
  rw [isWalkable, decide_eq_true_iff]
  exact and_ne_zero_iff rfl

theorem hasItem_iff : c.hasItem = true ↔ c.bits.toNat.testBit 1 = true := by
  rw [hasItem, decide_eq_true_iff]
  exact and_ne_zero_iff rfl

theorem hasSpawn_iff : c.hasSpawn = true ↔ c.bits.toNat.testBit 2 = true := by
  rw [hasSpawn, decide_eq_true_iff]
  exact and_ne_zero_iff rfl

theorem toNat_facingBits (c : Cell) : c.facingBits.toNat = c.bits.toNat >>> 3 :=
  UInt32.toNat_shiftRight _ _

end Cell

theorem Facing.exists_value_eq_iff {n : Nat} : (∃ f : Facing, n = f.value) ↔ n ≤ 3 := by
  constructor
  · rintro ⟨f, rfl⟩
    exact Nat.le_of_lt_succ f.value_lt
  · intro h
    interval_cases n
    · exact ⟨southEast, rfl⟩
    · exact ⟨northEast, rfl⟩
    · exact ⟨northWest, rfl⟩
    · exact ⟨southWest, rfl⟩

theorem Facing.ofRaw_eq_error_iff {raw : UInt32} {e : Invalid} :
    ofRaw raw = .error e ↔ 3 < raw.toNat ∧ e = ⟨raw⟩ := by
  cases h : ofRaw raw with
  | ok f =>
    have hle := exists_value_eq_iff.mp ⟨f, ofRaw_eq_ok_iff.mp h⟩
    constructor
    · intro he
      cases he
    · intro he
      omega
  | error e' =>
    have hraw : e' = ⟨raw⟩ := by
      unfold ofRaw at h
      split at h <;> cases h
      rfl
    have hlt : 3 < raw.toNat := by
      rw [← Nat.not_le, ← exists_value_eq_iff]
      rintro ⟨f, hf⟩
      rw [ofRaw_eq_ok_iff.mpr hf] at h
      cases h
    rw [hraw, Except.error.injEq]
    exact ⟨fun he => ⟨hlt, he.symm⟩, fun he => he.2.symm⟩

/-! ### What rows are read as -/

namespace Board

variable {rows : List (List UInt32)} {b : Board} {p : Pos} {bits : UInt32}
  {entries : List (Pos × Cell)}

/-- The rows have a cell with these bits in the row and the column of the position. -/
def HasAt (rows : List (List UInt32)) (p : Pos) (bits : UInt32) : Prop :=
  ∃ x y row, p.x.toInt = (x : Nat) ∧ p.y.toInt = (y : Nat) ∧ rows[y]? = some row ∧
    row[x]? = some bits

/-- There is a cell, and all rows have the same length. -/
structure IsRectangle (rows : List (List UInt32)) : Prop where
  ne_zero : (rows.headD []).length ≠ 0
  length_eq : ∀ row ∈ rows, row.length = (rows.headD []).length

/-- An agent starts on the cell, and it cannot stand there or face that way. -/
def IsUnusable (bits : UInt32) : Prop :=
  bits.toNat.testBit 2 = true ∧ (bits.toNat.testBit 0 = false ∨ 3 < bits.toNat >>> 3)

/-- The first cell that cannot be used has these bits and lies at the position. -/
structure IsFirstUnusable (rows : List (List UInt32)) (p : Pos) (bits : UInt32) : Prop where
  hasAt : HasAt rows p bits
  unusable : IsUnusable bits
  first : ∀ q earlier, HasAt rows q earlier → q.Before p → ¬ IsUnusable earlier

/-- The board has the cells of the rows, and the starting places and the items that these cells
name, in the order of reading. -/
structure Shows (b : Board) (rows : List (List UInt32)) : Prop where
  width_eq : ∀ row ∈ rows, row.length = b.grid.width
  height_eq : rows.length = b.grid.height
  cell?_of_hasAt : ∀ p bits, HasAt rows p bits → b.grid.cell? p = some ⟨bits⟩
  cell?_eq_none : ∀ p : Pos, ¬ (0 ≤ p.x.toInt ∧ p.x.toInt < b.grid.width ∧ 0 ≤ p.y.toInt ∧
    p.y.toInt < b.grid.height) → b.grid.cell? p = none
  mem_spawns : ∀ s, s ∈ b.spawns ↔ ∃ bits, HasAt rows s.pos bits ∧ bits.toNat.testBit 0 = true ∧
    bits.toNat.testBit 2 = true ∧ bits.toNat >>> 3 = s.facing.value
  mem_items : ∀ p, p ∈ b.items ↔ ∃ bits, HasAt rows p bits ∧ bits.toNat.testBit 0 = true ∧
    bits.toNat.testBit 1 = true
  spawns_ordered : (b.spawns.map Spawn.pos).Pairwise Pos.Before
  items_ordered : b.items.Pairwise Pos.Before
  spawns_nodup : (b.spawns.map Spawn.pos).Nodup
  items_nodup : b.items.Nodup

/-- What comes of rows: the first reason to refuse them, or the board that they show. -/
inductive ReadsAs (rows : List (List UInt32)) : Except BoardError Board → Prop
  | empty (hrows : rows = [] ∨ rows.head? = some []) : ReadsAs rows (.error .empty)
  /-- A row is the first one that is not as long as the first row. -/
  | ragged {first row : List UInt32} {y : Nat} (hfirst : rows.head? = some first)
      (hcells : first ≠ []) (hrow : rows[y]? = some row) (hlength : row.length ≠ first.length)
      (hbefore : ∀ z < y, ∀ earlier, rows[z]? = some earlier → earlier.length = first.length) :
      ReadsAs rows (.error (.ragged y first.length row.length))
  | blocked {p : Pos} {bits : UInt32} (hrows : IsRectangle rows)
      (hcell : IsFirstUnusable rows p bits)
      (hwalkable : bits.toNat.testBit 0 = false) : ReadsAs rows (.error (.spawnOnBlockedCell p))
  | misfaced {p : Pos} {bits : UInt32} (hrows : IsRectangle rows)
      (hcell : IsFirstUnusable rows p bits) (hwalkable : bits.toNat.testBit 0 = true) :
      ReadsAs rows (.error (.invalidFacing p ⟨bits >>> 3⟩))
  | board {b : Board} (hrows : IsRectangle rows)
      (husable : ∀ p bits, HasAt rows p bits → ¬ IsUnusable bits) (hshows : b.Shows rows) :
      ReadsAs rows (.ok b)

/-! ### The shape of the rows -/

end Board

namespace Grid

variable {g : Grid} {rows : List (List UInt32)} {width n k got : Nat} {e : BoardError}

theorem firstRagged?_eq_some_iff : firstRagged? width n rows = some (k, got) ↔
    ∃ y row, rows[y]? = some row ∧ k = n + y ∧ got = row.length ∧ row.length ≠ width ∧
      ∀ z < y, ∀ earlier, rows[z]? = some earlier → earlier.length = width := by
  induction rows generalizing n with
  | nil => simp [firstRagged?]
  | cons row rows ih =>
    rw [firstRagged?]
    by_cases hrow : row.length = width
    · rw [if_pos hrow, ih]
      constructor
      · rintro ⟨y, later, hlater, rfl, rfl, hlength, hbefore⟩
        refine ⟨y + 1, later, hlater, by omega, rfl, hlength, ?_⟩
        intro z hz earlier hearlier
        cases z with
        | zero =>
          obtain rfl := Option.some.inj hearlier
          exact hrow
        | succ z => exact hbefore z (by omega) earlier hearlier
      · rintro ⟨y, later, hlater, rfl, rfl, hlength, hbefore⟩
        cases y with
        | zero =>
          obtain rfl := Option.some.inj hlater
          exact absurd hrow hlength
        | succ y =>
          refine ⟨y, later, hlater, by omega, rfl, hlength, ?_⟩
          intro z hz earlier hearlier
          exact hbefore (z + 1) (by omega) earlier hearlier
    · rw [if_neg hrow]
      constructor
      · intro h
        obtain ⟨rfl, rfl⟩ := Prod.mk.inj (Option.some.inj h)
        exact ⟨0, row, rfl, rfl, rfl, hrow, fun z hz => absurd hz (Nat.not_lt_zero z)⟩
      · rintro ⟨y, later, hlater, rfl, rfl, hlength, hbefore⟩
        cases y with
        | zero =>
          obtain rfl := Option.some.inj hlater
          rfl
        | succ y => exact absurd (hbefore 0 (Nat.succ_pos y) row rfl) hrow

theorem ofRows_eq_error_iff : ofRows rows = .error e ↔
    (rows.headD []).length = 0 ∧ e = .empty ∨
      (rows.headD []).length ≠ 0 ∧ ∃ y row, rows[y]? = some row ∧
        row.length ≠ (rows.headD []).length ∧
        (∀ z < y, ∀ earlier, rows[z]? = some earlier →
          earlier.length = (rows.headD []).length) ∧
        e = .ragged y (rows.headD []).length row.length := by
  unfold ofRows
  dsimp only
  by_cases hempty : (rows.headD []).length = 0
  · rw [if_pos hempty, Except.error.injEq]
    simp only [hempty, ne_eq, not_true_eq_false, false_and, or_false, true_and]
    exact eq_comm
  · rw [if_neg hempty]
    simp only [hempty, false_and, false_or, not_false_eq_true, true_and, ne_eq]
    split
    · next k got hragged =>
      obtain ⟨y, row, hrow, rfl, rfl, hlength, hbefore⟩ := firstRagged?_eq_some_iff.mp hragged
      rw [Except.error.injEq, Nat.zero_add]
      constructor
      · rintro rfl
        exact ⟨y, row, hrow, hlength, hbefore, rfl⟩
      · rintro ⟨y', row', hrow', hlength', hbefore', rfl⟩
        have hsame := firstRagged?_eq_some_iff (n := 0).mpr
          ⟨y', row', hrow', rfl, rfl, hlength', hbefore'⟩
        rw [hragged] at hsame
        obtain ⟨hy, hgot⟩ := Prod.mk.inj (Option.some.inj hsame)
        rw [Nat.zero_add, Nat.zero_add] at hy
        rw [hy, hgot]
    · next hnone =>
      have hall := firstRagged?_eq_none_iff.mp hnone
      constructor
      · intro h
        cases h
      · rintro ⟨y, row, hrow, hlength, -⟩
        exact absurd (hall row (List.mem_of_getElem? hrow)) hlength

end Grid

/-! ### The first cell that cannot be used -/

namespace Board

variable {rows : List (List UInt32)} {b b' : Board} {p : Pos} {c : Cell} {bits : UInt32}
  {entries : List (Pos × Cell)} {e : BoardError}

theorem spawnAt?_eq_error_iff : spawnAt? p c = .error e ↔ IsUnusable c.bits ∧
    (c.bits.toNat.testBit 0 = false ∧ e = .spawnOnBlockedCell p ∨
      c.bits.toNat.testBit 0 = true ∧ e = .invalidFacing p ⟨c.facingBits⟩) := by
  unfold spawnAt? IsUnusable
  rw [← Cell.toNat_facingBits, ← Cell.hasSpawn_iff, ← Bool.not_eq_true, ← Cell.isWalkable_iff]
  by_cases hspawn : c.hasSpawn = true
  · rw [if_pos hspawn]
    by_cases hwalkable : c.isWalkable = true
    · rw [if_pos hwalkable]
      cases hf : Facing.ofRaw c.facingBits with
      | ok f =>
        have hfacing : ¬ 3 < c.facingBits.toNat := fun hlt => by
          rw [Facing.ofRaw_eq_error_iff.mpr ⟨hlt, rfl⟩] at hf
          cases hf
        simp [hwalkable, hfacing]
      | error invalid =>
        obtain ⟨hlt, rfl⟩ := Facing.ofRaw_eq_error_iff.mp hf
        simp [hspawn, hwalkable, hlt, eq_comm]
    · rw [if_neg hwalkable]
      simp [hspawn, hwalkable, eq_comm]
  · rw [if_neg hspawn]
    simp [hspawn]

theorem exists_spawnAt?_iff : (∃ s?, spawnAt? p c = .ok s?) ↔ ¬ IsUnusable c.bits := by
  cases h : spawnAt? p c with
  | ok s? =>
    refine iff_of_true ⟨s?, rfl⟩ fun hbad => ?_
    -- a cell that cannot be used is refused for one of the two reasons
    cases hwalkable : c.bits.toNat.testBit 0 with
    | false =>
      rw [spawnAt?_eq_error_iff.mpr ⟨hbad, Or.inl ⟨hwalkable, rfl⟩⟩] at h
      cases h
    | true =>
      rw [spawnAt?_eq_error_iff.mpr ⟨hbad, Or.inr ⟨hwalkable, rfl⟩⟩] at h
      cases h
  | error e =>
    exact iff_of_false (fun ⟨_, h⟩ => nomatch h) fun h' => h' (spawnAt?_eq_error_iff.mp h).1

theorem spawnsOf_eq_error_iff : spawnsOf entries = .error e ↔
    ∃ before p c after, entries = before ++ (p, c) :: after ∧
      (∀ d ∈ before, ¬ IsUnusable d.2.bits) ∧ spawnAt? p c = .error e := by
  induction entries with
  | nil => simp [spawnsOf]
  | cons d entries ih =>
    cases hd : spawnAt? d.1 d.2 with
    | error first =>
      have hspawns : spawnsOf (d :: entries) = .error first := by
        rw [spawnsOf, hd]
        rfl
      rw [hspawns, Except.error.injEq]
      constructor
      · rintro rfl
        exact ⟨[], d.1, d.2, entries, rfl, List.forall_mem_nil _, hd⟩
      · rintro ⟨before, p, c, after, hsplit, hbefore, herror⟩
        cases before with
        | nil =>
          obtain ⟨rfl, -⟩ := List.cons.inj hsplit
          exact Except.error.inj (hd.symm.trans herror)
        | cons d' before =>
          obtain ⟨rfl, -⟩ := List.cons.inj hsplit
          exact absurd (spawnAt?_eq_error_iff.mp hd).1 (hbefore d List.mem_cons_self)
    | ok s? =>
      have hspawns : spawnsOf (d :: entries) = .error e ↔ spawnsOf entries = .error e := by
        rw [spawnsOf, hd]
        show (spawnsOf entries >>= fun spawns => pure (s?.toList ++ spawns)) = .error e ↔ _
        cases spawnsOf entries with
        | error e' => exact Iff.rfl
        | ok spawns => exact iff_of_false (by rintro ⟨⟩) (by rintro ⟨⟩)
      have hgood : ¬ IsUnusable d.2.bits := exists_spawnAt?_iff.mp ⟨s?, hd⟩
      rw [hspawns, ih]
      constructor
      · rintro ⟨before, p, c, after, rfl, hbefore, herror⟩
        exact ⟨d :: before, p, c, after, rfl, List.forall_mem_cons.mpr ⟨hgood, hbefore⟩, herror⟩
      · rintro ⟨before, p, c, after, hsplit, hbefore, herror⟩
        cases before with
        | nil =>
          obtain ⟨rfl, -⟩ := List.cons.inj hsplit
          exact absurd (spawnAt?_eq_error_iff.mp herror).1 hgood
        | cons d' before =>
          obtain ⟨rfl, rfl⟩ := List.cons.inj hsplit
          exact ⟨before, p, c, after, rfl, (List.forall_mem_cons.mp hbefore).2, herror⟩

/-! ### Cells and their positions -/

/-- What is found in the rows is found on the grid, and nothing else. -/
theorem hasAt_iff {g : Grid} (h : Grid.ofRows rows = .ok g) :
    HasAt rows p bits ↔ g.cell? p = some ⟨bits⟩ := by
  obtain ⟨-, hrows, hwidth, hheight, -⟩ := Grid.ofRows_eq_ok_iff.mp h
  constructor
  · rintro ⟨x, y, row, hx, hy, hrow, hcell⟩
    have hy' := (List.getElem?_eq_some_iff.mp hrow).1
    have hx' := (List.getElem?_eq_some_iff.mp hcell).1
    rw [hrows row (List.mem_of_getElem? hrow)] at hx'
    have hon : g.contains p = true := Grid.contains_iff.mpr (by omega)
    rw [Grid.cell?_of_ofRows h hon, hx, hy, Int.toNat_natCast, Int.toNat_natCast, hrow,
      Option.bind_some, hcell]
    rfl
  · intro hcell
    have hon := Grid.contains_of_cell? hcell
    rw [Grid.cell?_of_ofRows h hon] at hcell
    obtain ⟨found, hfound, heq⟩ := Option.map_eq_some_iff.mp hcell
    obtain rfl := Cell.mk.inj heq
    obtain ⟨row, hrow, hat⟩ := Option.bind_eq_some_iff.mp hfound
    obtain ⟨hx, hy, -, -⟩ := Grid.contains_iff.mp hon
    exact ⟨p.x.toInt.toNat, p.y.toInt.toNat, row, (Int.toNat_of_nonneg hx).symm,
      (Int.toNat_of_nonneg hy).symm, hrow, hat⟩

theorem mem_entries_iff_hasAt {g : Grid} (h : Grid.ofRows rows = .ok g) (hg : g.IsSmall) :
    (p, c) ∈ g.entries ↔ HasAt rows p c.bits := by
  rw [Grid.mem_entries_iff hg, hasAt_iff h]

/-- Rows that make a grid have as many cells as room was made for. -/
theorem size_cells_of_ofRows {g : Grid} (h : Grid.ofRows rows = .ok g) :
    g.cells.size = Grid.reserved rows := by
  obtain ⟨-, -, hwidth, hheight, -⟩ := Grid.ofRows_eq_ok_iff.mp h
  rw [g.size_cells, hwidth, hheight, Grid.reserved]

theorem isSmall_of_ofRows {g : Grid} (h : Grid.ofRows rows = .ok g)
    (hroom : Grid.reserved rows < 2 ^ 31) : g.IsSmall := by
  obtain ⟨hwidth, hheight⟩ := Grid.sides_ne_zero_of_ofRows h
  apply Grid.isSmall_of_size hwidth hheight
  rw [size_cells_of_ofRows h]
  exact hroom

theorem exists_grid_iff : (∃ g, Grid.ofRows rows = .ok g) ↔ IsRectangle rows := by
  constructor
  · rintro ⟨g, h⟩
    obtain ⟨hne, hrows, -⟩ := Grid.ofRows_eq_ok_iff.mp h
    exact ⟨hne, hrows⟩
  · rintro ⟨hne, hrows⟩
    exact Grid.exists_ofRows hne hrows

/-- The starting places cannot be listed because of the first cell that cannot be used. -/
theorem spawnsOf_entries_eq_error_iff {g : Grid} (h : Grid.ofRows rows = .ok g) (hg : g.IsSmall) :
    spawnsOf g.entries = .error e ↔ ∃ p bits, IsFirstUnusable rows p bits ∧
      (bits.toNat.testBit 0 = false ∧ e = .spawnOnBlockedCell p ∨
        bits.toNat.testBit 0 = true ∧ e = .invalidFacing p ⟨bits >>> 3⟩) := by
  have hordered := Grid.pairwise_entries hg
  rw [spawnsOf_eq_error_iff]
  constructor
  · rintro ⟨before, p, c, after, hsplit, hbefore, herror⟩
    obtain ⟨hbad, hreason⟩ := spawnAt?_eq_error_iff.mp herror
    have hmem : (p, c) ∈ g.entries := by
      rw [hsplit]
      exact List.mem_append_right _ List.mem_cons_self
    refine ⟨p, c.bits, ⟨(mem_entries_iff_hasAt h hg).mp hmem, hbad, ?_⟩, hreason⟩
    intro q earlier hq hqp
    have hqmem : (q, (⟨earlier⟩ : Cell)) ∈ g.entries := (mem_entries_iff_hasAt h hg).mpr hq
    rw [hsplit] at hqmem hordered
    rw [List.map_append, List.map_cons, List.pairwise_append] at hordered
    rcases List.mem_append.mp hqmem with hin | hin
    · exact hbefore _ hin
    · rcases List.mem_cons.mp hin with heq | hin
      · obtain ⟨rfl, -⟩ := Prod.mk.inj heq
        exact absurd hqp (Pos.Before.irrefl q)
      · -- what comes behind the cell is not read before it
        have hpq := (List.pairwise_cons.mp hordered.2.1).1 q (List.mem_map_of_mem hin)
        exact absurd hqp hpq.asymm
  · rintro ⟨p, bits, hfirst, hreason⟩
    have hmem : (p, (⟨bits⟩ : Cell)) ∈ g.entries := (mem_entries_iff_hasAt h hg).mpr hfirst.hasAt
    obtain ⟨before, after, hsplit⟩ := List.append_of_mem hmem
    refine ⟨before, p, ⟨bits⟩, after, hsplit, ?_,
      spawnAt?_eq_error_iff.mpr ⟨hfirst.unusable, hreason⟩⟩
    intro d hd
    have hdmem : d ∈ g.entries := by
      rw [hsplit]
      exact List.mem_append_left _ hd
    rw [hsplit, List.map_append, List.map_cons, List.pairwise_append] at hordered
    exact hfirst.first d.1 d.2.bits ((mem_entries_iff_hasAt h hg).mp hdmem)
      (hordered.2.2 d.1 (List.mem_map_of_mem hd) p List.mem_cons_self)

theorem exists_spawnsOf_entries_iff {g : Grid} (h : Grid.ofRows rows = .ok g) (hg : g.IsSmall) :
    (∃ spawns, spawnsOf g.entries = .ok spawns) ↔
      ∀ p bits, HasAt rows p bits → ¬ IsUnusable bits := by
  rw [exists_spawnsOf_iff]
  constructor
  · intro hall p bits hat
    exact exists_spawnAt?_iff.mp (hall (p, ⟨bits⟩) ((mem_entries_iff_hasAt h hg).mpr hat))
  · intro hall d hd
    exact exists_spawnAt?_iff.mpr (hall d.1 d.2.bits ((mem_entries_iff_hasAt h hg).mp hd))

/-! ### The board that the rows show -/

theorem shows_of_ofRows (h : ofRows rows = .ok b) (hg : b.grid.IsSmall) : b.Shows rows := by
  obtain ⟨hgrid, hspawns, hitems⟩ := ofRows_eq_ok_iff.mp h
  obtain ⟨-, hrows, hwidth, hheight, -⟩ := Grid.ofRows_eq_ok_iff.mp hgrid
  have hordered := Grid.pairwise_entries hg
  have hspawnsOrdered := hordered.sublist (sublist_spawnsOf hspawns)
  have hitemsOrdered : b.items.Pairwise Pos.Before := by
    rw [hitems]
    exact hordered.sublist (List.filter_sublist.map _)
  refine ⟨fun row hrow => hwidth ▸ hrows row hrow, hheight.symm,
    fun p bits => (hasAt_iff hgrid).mp, ?_, ?_, ?_, hspawnsOrdered, hitemsOrdered,
    Pos.nodup_of_pairwise_before hspawnsOrdered, Pos.nodup_of_pairwise_before hitemsOrdered⟩
  case refine_1 =>
    intro p hout
    rw [Option.eq_none_iff_forall_ne_some]
    intro c hc
    obtain ⟨hx, hy, hxlt, hylt⟩ := Grid.contains_iff.mp (Grid.contains_of_cell? hc)
    exact hout ⟨hx, hxlt, hy, hylt⟩
  case refine_2 =>
    intro s
    rw [mem_spawns_iff h hg]
    constructor
    · rintro ⟨c, hc, hspawn, hwalkable, hfacing⟩
      refine ⟨c.bits, (hasAt_iff hgrid).mpr hc, Cell.isWalkable_iff.mp hwalkable,
        Cell.hasSpawn_iff.mp hspawn, ?_⟩
      rw [← Cell.toNat_facingBits]
      exact Facing.ofRaw_eq_ok_iff.mp hfacing
    · rintro ⟨bits, hat, hwalkable, hspawn, hfacing⟩
      refine ⟨⟨bits⟩, (hasAt_iff hgrid).mp hat, Cell.hasSpawn_iff.mpr hspawn,
        Cell.isWalkable_iff.mpr hwalkable, ?_⟩
      rw [Facing.ofRaw_eq_ok_iff, Cell.toNat_facingBits]
      exact hfacing
  case refine_3 =>
    intro p
    rw [mem_items_iff h hg]
    constructor
    · rintro ⟨c, hc, hwalkable, hitem⟩
      exact ⟨c.bits, (hasAt_iff hgrid).mpr hc, Cell.isWalkable_iff.mp hwalkable,
        Cell.hasItem_iff.mp hitem⟩
    · rintro ⟨bits, hat, hwalkable, hitem⟩
      exact ⟨⟨bits⟩, (hasAt_iff hgrid).mp hat, Cell.isWalkable_iff.mpr hwalkable,
        Cell.hasItem_iff.mpr hitem⟩

namespace Shows

theorem hasAt_of_contains (h : b.Shows rows) (hp : b.grid.contains p = true) :
    ∃ bits, HasAt rows p bits := by
  obtain ⟨hx, hy, hxlt, hylt⟩ := Grid.contains_iff.mp hp
  have hrow : p.y.toInt.toNat < rows.length := by
    rw [h.height_eq]
    omega
  have hcell : p.x.toInt.toNat < rows[p.y.toInt.toNat].length := by
    rw [h.width_eq _ (List.getElem_mem hrow)]
    omega
  exact ⟨_, p.x.toInt.toNat, p.y.toInt.toNat, _, (Int.toNat_of_nonneg hx).symm,
    (Int.toNat_of_nonneg hy).symm, List.getElem?_eq_getElem hrow, List.getElem?_eq_getElem hcell⟩

/-- Rows are shown by one board only. -/
theorem eq (h : b.Shows rows) (h' : b'.Shows rows) (hrows : IsRectangle rows)
    (hg : b.grid.IsSmall) : b' = b := by
  have hwidth : b'.grid.width = b.grid.width := by
    have hfirst : rows.headD [] ∈ rows := by
      cases rows with
      | nil => exact absurd rfl hrows.ne_zero
      | cons row rows => exact List.mem_cons_self
    rw [← h.width_eq _ hfirst, ← h'.width_eq _ hfirst]
  have hheight : b'.grid.height = b.grid.height := by
    rw [← h.height_eq, ← h'.height_eq]
  have hgrid : b'.grid = b.grid := by
    apply Grid.eq_of_cell?_eq hg hwidth hheight
    intro p
    by_cases hp : b.grid.contains p = true
    · obtain ⟨bits, hat⟩ := h.hasAt_of_contains hp
      rw [h.cell?_of_hasAt p bits hat, h'.cell?_of_hasAt p bits hat]
    · rw [Grid.contains_iff] at hp
      rw [h.cell?_eq_none p (by omega), h'.cell?_eq_none p (by omega)]
  have hspawns : b'.spawns = b.spawns :=
    Pos.eq_of_pairwise_before h'.spawns_ordered h.spawns_ordered fun s => by
      rw [h.mem_spawns, h'.mem_spawns]
  have hitems : b'.items = b.items := by
    have hordered : (b.items.map id).Pairwise Pos.Before := by
      rw [List.map_id]
      exact h.items_ordered
    have hordered' : (b'.items.map id).Pairwise Pos.Before := by
      rw [List.map_id]
      exact h'.items_ordered
    exact Pos.eq_of_pairwise_before hordered' hordered fun p => by
      rw [h.mem_items, h'.mem_items]
  cases b
  cases b'
  cases hgrid
  cases hspawns
  cases hitems
  rfl

end Shows

/-! ### What comes of rows -/

theorem ofRows_eq_ok_iff_shows (hroom : Grid.reserved rows < 2 ^ 31) : ofRows rows = .ok b ↔
    IsRectangle rows ∧ (∀ p bits, HasAt rows p bits → ¬ IsUnusable bits) ∧ b.Shows rows := by
  constructor
  · intro h
    obtain ⟨hgrid, hspawns, -⟩ := ofRows_eq_ok_iff.mp h
    have hg := isSmall_of_ofRows hgrid hroom
    exact ⟨exists_grid_iff.mp ⟨_, hgrid⟩, (exists_spawnsOf_entries_iff hgrid hg).mp ⟨_, hspawns⟩,
      shows_of_ofRows h hg⟩
  · rintro ⟨hrows, husable, hshows⟩
    obtain ⟨g, hgrid⟩ := exists_grid_iff.mpr hrows
    have hg := isSmall_of_ofRows hgrid hroom
    obtain ⟨spawns, hspawns⟩ := (exists_spawnsOf_entries_iff hgrid hg).mpr husable
    have hread : ofRows rows = .ok ⟨g, spawns, itemsOf g.entries⟩ :=
      ofRows_eq_ok_iff.mpr ⟨hgrid, hspawns, rfl⟩
    rw [hread, (shows_of_ofRows hread hg).eq hshows hrows hg]

theorem ofRows_eq_error_iff (hroom : Grid.reserved rows < 2 ^ 31) : ofRows rows = .error e ↔
    Grid.ofRows rows = .error e ∨ IsRectangle rows ∧ ∃ p bits, IsFirstUnusable rows p bits ∧
      (bits.toNat.testBit 0 = false ∧ e = .spawnOnBlockedCell p ∨
        bits.toNat.testBit 0 = true ∧ e = .invalidFacing p ⟨bits >>> 3⟩) := by
  unfold ofRows
  cases hgrid : Grid.ofRows rows with
  | error e' =>
    have hnot : ¬ IsRectangle rows := fun hrows => by
      obtain ⟨g, hg⟩ := exists_grid_iff.mpr hrows
      rw [hgrid] at hg
      cases hg
    show Except.error e' = Except.error e ↔ _
    simp [hnot]
  | ok g =>
    have hrows := exists_grid_iff.mp ⟨g, hgrid⟩
    rw [← spawnsOf_entries_eq_error_iff hgrid (isSmall_of_ofRows hgrid hroom)]
    show (spawnsOf g.entries >>= fun spawns => pure (Board.mk g spawns (itemsOf g.entries))) =
      Except.error e ↔ _
    cases spawnsOf g.entries with
    | error e' =>
      show Except.error e' = Except.error e ↔ _
      simp [hrows]
    | ok spawns =>
      show Except.ok _ = Except.error e ↔ _
      simp

/-- Rows that make no grid have no cell, or one of them differs in length from the first one. -/
theorem readsAs_of_grid_eq_error (h : Grid.ofRows rows = .error e) : ReadsAs rows (.error e) := by
  rcases Grid.ofRows_eq_error_iff.mp h with
    ⟨hlength, rfl⟩ | ⟨hne, y, row, hrow, hlength, hbefore, rfl⟩
  · refine .empty ?_
    cases rows with
    | nil => exact Or.inl rfl
    | cons first rest => exact Or.inr (congrArg some (List.length_eq_zero_iff.mp hlength))
  · cases rows with
    | nil => exact absurd rfl hne
    | cons first rest =>
      exact .ragged rfl (List.ne_nil_of_length_pos (Nat.pos_of_ne_zero hne)) hrow hlength hbefore

theorem grid_eq_error_of_empty (h : rows = [] ∨ rows.head? = some []) :
    Grid.ofRows rows = .error .empty := by
  refine Grid.ofRows_eq_error_iff.mpr (Or.inl ⟨?_, rfl⟩)
  rcases h with rfl | h
  · rfl
  · rw [List.headD_eq_head?_getD, h]
    rfl

theorem grid_eq_error_of_ragged {first row : List UInt32} {y : Nat}
    (hfirst : rows.head? = some first) (hcells : first ≠ []) (hrow : rows[y]? = some row)
    (hlength : row.length ≠ first.length)
    (hbefore : ∀ z < y, ∀ earlier, rows[z]? = some earlier → earlier.length = first.length) :
    Grid.ofRows rows = .error (.ragged y first.length row.length) := by
  have hhead : rows.headD [] = first := by
    rw [List.headD_eq_head?_getD, hfirst]
    rfl
  rw [← hhead] at hcells hlength hbefore ⊢
  have hne : (rows.headD []).length ≠ 0 := fun h => hcells (List.length_eq_zero_iff.mp h)
  exact Grid.ofRows_eq_error_iff.mpr (Or.inr ⟨hne, y, row, hrow, hlength, hbefore, rfl⟩)

/-- What comes of rows is the first reason to refuse them, or the board that they show. The bound is
on the cells for which room is made, as many as the first row has for every row. For rows of one
length these are the cells themselves. Rows of different lengths may have more cells and are still
refused for the first reason; with fewer cells, such as a long first row above many empty ones, they
may ask for more room than there is, and of these nothing is said. -/
theorem ofRows_eq_iff (hroom : Grid.reserved rows < 2 ^ 31) {result : Except BoardError Board} :
    ofRows rows = result ↔ ReadsAs rows result := by
  cases result with
  | ok b =>
    rw [ofRows_eq_ok_iff_shows hroom]
    constructor
    · rintro ⟨hrows, husable, hshows⟩
      exact .board hrows husable hshows
    · rintro (_ | _ | _ | _ | ⟨hrows, husable, hshows⟩)
      exact ⟨hrows, husable, hshows⟩
  | error e =>
    rw [ofRows_eq_error_iff hroom]
    constructor
    · rintro (hgrid | ⟨hrows, p, bits, hcell, ⟨hwalkable, rfl⟩ | ⟨hwalkable, rfl⟩⟩)
      · exact readsAs_of_grid_eq_error hgrid
      · exact .blocked hrows hcell hwalkable
      · exact .misfaced hrows hcell hwalkable
    · intro h
      cases h with
      | empty hrows => exact Or.inl (grid_eq_error_of_empty hrows)
      | ragged hfirst hcells hrow hlength hbefore =>
        exact Or.inl (grid_eq_error_of_ragged hfirst hcells hrow hlength hbefore)
      | blocked hrows hcell hwalkable =>
        exact Or.inr ⟨hrows, _, _, hcell, Or.inl ⟨hwalkable, rfl⟩⟩
      | misfaced hrows hcell hwalkable =>
        exact Or.inr ⟨hrows, _, _, hcell, Or.inr ⟨hwalkable, rfl⟩⟩

/-- A board of two rows and three columns: an agent, an item, and an item that lies where nobody can
walk and is therefore none. -/
def unevenRows : List (List UInt32) :=
  [[1, 29, 2], [3, 0, 1]]

/-- Rows of three cells that make a board. With an agent in the last cell that faces nowhere they make
none, and an agent before it on a cell that cannot be walked on is refused first. -/
theorem ofRows_eq_iff_unevenRows :
    Grid.reserved unevenRows < 2 ^ 31 ∧
      (∃ b, ReadsAs unevenRows (.ok b) ∧ b.spawns = [⟨⟨1, 0⟩, .southWest⟩] ∧ b.items = [⟨0, 1⟩]) ∧
      ReadsAs [[1, 29, 2], [3, 0, 37]] (.error (.invalidFacing ⟨2, 1⟩ ⟨4⟩)) ∧
      ReadsAs [[1, 29, 2], [3, 4, 37]] (.error (.spawnOnBlockedCell ⟨1, 1⟩)) ∧
      ReadsAs [[1, 29, 2], [3, 4], [37]] (.error (.ragged 1 3 2)) := by
  have hroom : Grid.reserved unevenRows < 2 ^ 31 := by decide
  exact ⟨hroom, ⟨_, (ofRows_eq_iff hroom).mp rfl, rfl, rfl⟩, (ofRows_eq_iff (by decide)).mp rfl,
    (ofRows_eq_iff (by decide)).mp rfl, (ofRows_eq_iff (by decide)).mp rfl⟩

end Board

end TileWalk
