import TileWalk.Board.Cell
import TileWalk.Board.Error

/-!
# Grids

A grid is a rectangle of cells, kept row by row. It is made from rows of equal length, is never
changed, and can be asked about any position: outside the rectangle there is no cell, and nothing
there can be walked on.
-/

namespace TileWalk

/-- A rectangle of cells. -/
structure Grid where
  width : Nat
  height : Nat
  /-- The cells, row by row. -/
  cells : Array Cell
  /-- Every place of the rectangle has a cell. -/
  size_cells : cells.size = width * height

namespace Grid

/-! ### Making a grid -/

/-- The first row whose length is not `width`: its number and its length. -/
def firstRagged? (width : Nat) : Nat → List (List UInt32) → Option (Nat × Nat)
  | _, [] => none
  | n, row :: rows =>
    if row.length = width then firstRagged? width (n + 1) rows else some (n, row.length)

theorem length_flatten_of_firstRagged?_eq_none {width n : Nat} {rows : List (List UInt32)}
    (h : firstRagged? width n rows = none) : rows.flatten.length = width * rows.length := by
  induction rows generalizing n with
  | nil => rfl
  | cons row rows ih =>
    unfold firstRagged? at h
    split at h
    · next hrow =>
      rw [List.flatten_cons, List.length_append, ih h, hrow, List.length_cons, Nat.mul_succ,
        Nat.add_comm]
    · cases h

/-- The number of cells for which room is made before any row is compared with the first one: as if
all of them were as long. For rows that make a grid it is the number of their cells. -/
def reserved (rows : List (List UInt32)) : Nat :=
  (rows.headD []).length * rows.length

/-- The grid with the given rows, which have to be as long as the first one. That there is room for
the `reserved` cells is taken for granted: without it no answer comes, not even that the rows are
refused. -/
def ofRows (rows : List (List UInt32)) : Except BoardError Grid :=
  let width := (rows.headD []).length
  if width = 0 then
    .error .empty
  else
    match h : firstRagged? width 0 rows with
    | some (row, got) => .error (.ragged row width got)
    | none =>
      .ok {
        width
        height := rows.length
        cells := (rows.flatten.map Cell.mk).toArray
        size_cells := by
          rw [List.size_toArray, List.length_map]
          exact length_flatten_of_firstRagged?_eq_none h }

/-! ### Asking a grid -/

variable (g : Grid)

/-- Where the cell of a position is kept, if the position lies on the grid. -/
def offset? (p : Pos) : Option Nat :=
  let x := p.x.toInt
  let y := p.y.toInt
  if 0 ≤ x ∧ 0 ≤ y ∧ x < g.width ∧ y < g.height then some (y.toNat * g.width + x.toNat) else none

/-- The position lies on the grid. -/
def contains (p : Pos) : Bool :=
  (g.offset? p).isSome

/-- The cell at a position, if the position lies on the grid. -/
def cell? (p : Pos) : Option Cell :=
  (g.offset? p).bind (g.cells[·]?)

/-- An agent can stand there: the position lies on the grid and its cell can be walked on. -/
def isWalkable (p : Pos) : Bool :=
  (g.cell? p).any Cell.isWalkable

/-- The position of the cell kept at place `n`. -/
def posOf (n : Nat) : Pos :=
  ⟨Int32.ofNat (n % g.width), Int32.ofNat (n / g.width)⟩

/-- All cells with their positions, row by row. -/
def entries : List (Pos × Cell) :=
  g.cells.toList.mapIdx fun n c => (g.posOf n, c)

end Grid

end TileWalk
