import TileWalk.Proofs.Board.Turned

/-!
# Turning the rows of a board

The rows of a board can be turned to the left: the columns become rows, the last one first, and the
facings in the cells turn along (`Board.turnRows`). If the rows make a board, the turned rows make
the turned board (`Board.exists_ofRows_turnRows`).
-/

namespace TileWalk

open Outcome

/-! ### Turning a cell -/

/-- The cell on the turned board: an agent that starts there faces further to the left. -/
def Cell.turned (c : Cell) : Cell :=
  if c.hasSpawn then
    match Facing.ofRaw c.facingBits with
    | .ok f => ⟨(c.bits &&& (7 : UInt32)) ||| (UInt32.ofNat f.left.value <<< (3 : UInt32))⟩
    | .error _ => c
  else c

/-- A cell whose facing exists has only its five lowest bits set, so there are few of them. -/
theorem Cell.turned_of_lt : ∀ n < 32, ∀ c, c = Cell.mk (UInt32.ofNat n) →
    c.turned.isWalkable = c.isWalkable ∧ c.turned.hasItem = c.hasItem ∧
      c.turned.hasSpawn = c.hasSpawn ∧
      (c.hasSpawn = true → (Facing.ofRaw c.turned.facingBits).toOption =
        (Facing.ofRaw c.facingBits).toOption.map Facing.left) := by
  simp only [forall_eq]
  decide

theorem Cell.toNat_bits_lt {c : Cell} {f : Facing} (h : Facing.ofRaw c.facingBits = .ok f) :
    c.bits.toNat < 32 := by
  have hvalue := Facing.ofRaw_eq_ok_iff.mp h
  have hlt := f.value_lt
  have hthree : (3 : UInt32).toNat % 32 = 3 := rfl
  unfold facingBits at hvalue
  rw [UInt32.toNat_shiftRight, hthree, Nat.shiftRight_eq_div_pow] at hvalue
  omega

theorem Cell.isTurned_turned (c : Cell) : c.IsTurned c.turned := by
  cases hf : Facing.ofRaw c.facingBits with
  | error e =>
    have hsame : c.turned = c := by
      unfold turned
      rw [hf, ite_self]
    rw [hsame]
    refine ⟨rfl, rfl, rfl, ?_⟩
    intro _ f hok
    rw [hf] at hok
    cases hok
  | ok f =>
    have hc : c = Cell.mk (UInt32.ofNat c.bits.toNat) := by
      rw [UInt32.ofNat_toNat]
    obtain ⟨hwalkable, hitem, hspawn, hfacing⟩ := turned_of_lt _ (toNat_bits_lt hf) c hc
    refine ⟨hwalkable, hitem, hspawn, ?_⟩
    intro hstarts f' hf'
    have hfacing := hfacing hstarts
    rw [hf'] at hfacing
    cases hturned : Facing.ofRaw c.turned.facingBits with
    | error e =>
      rw [hturned] at hfacing
      cases hfacing
    | ok left =>
      rw [hturned] at hfacing
      exact congrArg Except.ok (Option.some.inj hfacing)

/-! ### Turning the rows -/

namespace Board

variable {b : Board} {rows : List (List UInt32)}

/-- The rows of the turned board: the columns, the last one first. -/
def turnRows (rows : List (List UInt32)) : List (List UInt32) :=
  let width := (rows.headD []).length
  (List.range width).map fun y =>
    rows.map fun row => (Cell.turned ⟨row.getD (width - 1 - y) 0⟩).bits

variable {x y : Nat} {row : List UInt32} {bits : UInt32}

theorem length_of_mem_turnRows (h : row ∈ turnRows rows) : row.length = rows.length := by
  obtain ⟨y, -, rfl⟩ := List.mem_map.mp h
  exact List.length_map _

theorem length_turnRows (rows : List (List UInt32)) :
    (turnRows rows).length = (rows.headD []).length := by
  unfold turnRows
  rw [List.length_map, List.length_range]

theorem length_headD_turnRows (hempty : (rows.headD []).length ≠ 0) :
    ((turnRows rows).headD []).length = rows.length := by
  cases hrows : turnRows rows with
  | nil =>
    have hlength := length_turnRows rows
    rw [hrows] at hlength
    exact absurd hlength.symm hempty
  | cons row rest =>
    apply length_of_mem_turnRows
    rw [hrows]
    exact List.mem_cons_self

/-- Column `x` of the rows becomes the row as far from the last one. -/
theorem getElem?_turnRows (hx : x < (rows.headD []).length) (hrow : rows[y]? = some row)
    (hbits : row[x]? = some bits) :
    (turnRows rows)[(rows.headD []).length - 1 - x]?.bind (·[y]?) =
      some (Cell.turned ⟨bits⟩).bits := by
  have hback : (rows.headD []).length - 1 - ((rows.headD []).length - 1 - x) = x := by omega
  have hlt : (rows.headD []).length - 1 - x < (rows.headD []).length := by omega
  unfold turnRows
  rw [List.getElem?_map, List.getElem?_range hlt, Option.map_some, Option.bind_some,
    List.getElem?_map, hrow, Option.map_some, hback, List.getD_eq_getElem?_getD, hbits]
  rfl

/-- Turned rows make the turned grid. -/
theorem exists_grid_ofRows_turnRows {g : Grid} (h : Grid.ofRows rows = .ok g) (hg : g.IsSmall) :
    ∃ g', Grid.ofRows (turnRows rows) = .ok g' ∧ g.IsTurned g' := by
  obtain ⟨hempty, hrows, hwidth, hheight, -⟩ := Grid.ofRows_eq_ok_iff.mp h
  have hheads := length_headD_turnRows hempty
  have hnonempty : ((turnRows rows).headD []).length ≠ 0 := by
    rw [hheads, ← hheight]
    exact (Grid.sides_ne_zero_of_ofRows h).2
  obtain ⟨g', hgrid'⟩ := Grid.exists_ofRows hnonempty fun row hrow => by
    rw [hheads]
    exact length_of_mem_turnRows hrow
  obtain ⟨-, -, hwidth', hheight', -⟩ := Grid.ofRows_eq_ok_iff.mp hgrid'
  rw [hheads, ← hheight] at hwidth'
  rw [length_turnRows, ← hwidth] at hheight'
  refine ⟨g', hgrid', hwidth', hheight', ?_⟩
  intro p c hc
  have hon := Grid.contains_of_cell? hc
  obtain ⟨hx, hy, hxlt, hylt⟩ := Grid.contains_iff.mp hon
  rw [Grid.cell?_of_ofRows h hon] at hc
  obtain ⟨bits, hbits, rfl⟩ := Option.map_eq_some_iff.mp hc
  obtain ⟨row, hrow, hcolumn⟩ := Option.bind_eq_some_iff.mp hbits
  -- the column is found as the row as far from the last one
  have hx' : (p.turned g.width).x = p.y := rfl
  have hy' := Pos.toInt_y_turned hg.1 hx hxlt
  have hon' : g'.contains (p.turned g.width) = true := by
    rw [Grid.contains_iff, hx', hy', hwidth', hheight']
    omega
  have hplace : (p.turned g.width).y.toInt.toNat =
      (rows.headD []).length - 1 - p.x.toInt.toNat := by
    rw [hy', ← hwidth]
    omega
  refine ⟨Cell.turned ⟨bits⟩, ?_, Cell.isTurned_turned _⟩
  rw [Grid.cell?_of_ofRows hgrid' hon', hplace, hx', getElem?_turnRows (by omega) hrow hcolumn]
  rfl

/-- Who starts on a turned cell can use it. -/
theorem exists_spawnsOf_of_isTurned {g' : Grid} (h : ofRows rows = .ok b) (hg : b.grid.IsSmall)
    (hturned : b.grid.IsTurned g') : ∃ spawns, spawnsOf g'.entries = .ok spawns := by
  rw [exists_spawnsOf_iff]
  rintro ⟨q, c'⟩ hmem
  have hcell := (Grid.mem_entries_iff (hturned.isSmall hg)).mp hmem
  obtain ⟨p, rfl⟩ := Pos.exists_turned_eq b.grid.width q
  rcases hturned.cell?_turned hg.1 p with ⟨-, hnone⟩ | ⟨c, c'', hc, hc', hboth⟩
  · rw [hcell] at hnone
    cases hnone
  · obtain rfl := Option.some.inj (hcell.symm.trans hc')
    cases hspawn : c.hasSpawn with
    | true =>
      obtain ⟨hwalkable, f, hf⟩ := exists_facing_of_hasSpawn h hg hc hspawn
      have hsome : spawnAt? (p.turned b.grid.width) c' =
          .ok (some ⟨p.turned b.grid.width, f.left⟩) := by
        rw [spawnAt?_eq_ok_some_iff]
        exact ⟨rfl, hboth.spawn.trans hspawn, hboth.walkable.trans hwalkable,
          hboth.facing hspawn f hf⟩
      exact ⟨_, hsome⟩
    | false =>
      refine ⟨none, ?_⟩
      unfold spawnAt?
      rw [hboth.spawn, hspawn]
      rfl

/-- The turned rows of a board make the turned board. -/
theorem exists_ofRows_turnRows (h : ofRows rows = .ok b) (hg : b.grid.IsSmall) :
    ∃ b', ofRows (turnRows rows) = .ok b' ∧ b.grid.IsTurned b'.grid := by
  obtain ⟨hgrid, -, -⟩ := ofRows_eq_ok_iff.mp h
  obtain ⟨g', hgrid', hturned⟩ := exists_grid_ofRows_turnRows hgrid hg
  obtain ⟨spawns, hspawns⟩ := exists_spawnsOf_of_isTurned h hg hturned
  exact ⟨⟨g', spawns, itemsOf g'.entries⟩, ofRows_eq_ok_iff.mpr ⟨hgrid', hspawns, rfl⟩, hturned⟩

end Board

end TileWalk
