import TileWalk.Board.Openings
import TileWalk.Journal

/-!
# Boards

A board is a grid together with the places where agents start and the places where items lie, both
listed row by row. It is read from the numbers of its cells; agents and items are numbered by their
places in these lists.
-/

namespace TileWalk

/-- Where an agent starts, and which way it faces there. -/
@[ext]
structure Spawn where
  pos : Pos
  facing : Facing
  deriving DecidableEq, Repr, Inhabited

/-- A grid with its starting places and its items. -/
structure Board where
  grid : Grid
  spawns : List Spawn
  items : List Pos

namespace Board

/-- The starting place on a cell, if it has one and can be used. -/
def spawnAt? (p : Pos) (c : Cell) : Except BoardError (Option Spawn) :=
  if c.hasSpawn then
    if c.isWalkable then
      match Facing.ofRaw c.facingBits with
      | .ok f => .ok (some ⟨p, f⟩)
      | .error e => .error (.invalidFacing p e)
    else
      .error (.spawnOnBlockedCell p)
  else
    .ok none

/-- The starting places of a list of cells, up to the first cell that cannot be used. -/
def spawnsOf : List (Pos × Cell) → Except BoardError (List Spawn)
  | [] => .ok []
  | (p, c) :: entries => do
    let spawn? ← spawnAt? p c
    let spawns ← spawnsOf entries
    return spawn?.toList ++ spawns

/-- The items of a list of cells: they lie on cells that can be walked on. -/
def itemsOf (entries : List (Pos × Cell)) : List Pos :=
  (entries.filter fun (_, c) => c.isWalkable && c.hasItem).map Prod.fst

/-- The board with the given rows of cells. -/
def ofRows (rows : List (List UInt32)) : Except BoardError Board := do
  let grid ← Grid.ofRows rows
  let spawns ← spawnsOf grid.entries
  return ⟨grid, spawns, itemsOf grid.entries⟩

/-- What is noted when rows have become a board. -/
def loadEntries (b : Board) : List Entry :=
  [⟨.info, "bg_grid::board", "board loaded",
    [("width", .count b.grid.width), ("height", .count b.grid.height),
      ("agents", .count b.spawns.length), ("items", .count b.items.length)]⟩]

/-- The rows of the reference board: a ring of items around an empty yard, and one agent in the
middle. -/
def referenceRows : List (List UInt32) :=
  [ [0, 3, 3, 3, 0],
    [3, 1, 1, 1, 3],
    [3, 1, 5, 1, 3],
    [3, 1, 1, 1, 3],
    [0, 3, 3, 3, 0] ]

end Board

end TileWalk
