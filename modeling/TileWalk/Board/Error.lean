import TileWalk.Geometry.Facing

/-!
# Unusable boards

The reasons for which the rows of a board are refused, and how each is worded.
-/

namespace TileWalk

/-- Why a board is refused. -/
inductive BoardError
  /-- There is no row, or the first row has no cell. -/
  | empty
  /-- A row differs in length from the first row. -/
  | ragged (row expected got : Nat)
  /-- An agent starts with a facing that does not exist. -/
  | invalidFacing (pos : Pos) (facing : Facing.Invalid)
  /-- An agent starts on a cell that cannot be walked on. -/
  | spawnOnBlockedCell (pos : Pos)
  deriving DecidableEq, Repr

/-- The wording of a refusal. -/
def BoardError.message : BoardError → String
  | .empty => "board has no cells"
  | .ragged row expected got =>
    "row " ++ toString row ++ " has " ++ toString got ++ " cells, expected " ++ toString expected
  | .invalidFacing pos facing => "spawn at " ++ pos.text ++ ": " ++ facing.message
  | .spawnOnBlockedCell pos => "spawn at " ++ pos.text ++ " is on a non-walkable cell"

end TileWalk
