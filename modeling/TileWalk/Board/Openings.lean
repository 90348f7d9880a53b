import TileWalk.Board.Grid

/-!
# Openings

The openings around an agent are the four sides on which the next cell can be walked on. They are a
view of one moment: whoever turns or moves has to look again.
-/

namespace TileWalk

/-- The sides on which an agent can step. -/
@[ext]
structure Openings where
  front : Bool
  left : Bool
  back : Bool
  right : Bool
  deriving DecidableEq, Repr, Inhabited

namespace Openings

/-- The view of an agent at `p` that faces `f`: front first, then after each left turn. -/
def around (g : Grid) (p : Pos) (f : Facing) : Except Fault Openings := do
  let ahead := f.vector
  let front ← p.add ahead
  let ahead ← ahead.turnLeft
  let left ← p.add ahead
  let ahead ← ahead.turnLeft
  let back ← p.add ahead
  let ahead ← ahead.turnLeft
  let right ← p.add ahead
  return ⟨g.isWalkable front, g.isWalkable left, g.isWalkable back, g.isWalkable right⟩

/-- Whether a side is open. -/
def get (o : Openings) : Side → Bool
  | .front => o.front
  | .left => o.left
  | .back => o.back
  | .right => o.right

/-- The four sides in the order of their numbers. -/
def toList (o : Openings) : List Bool :=
  Side.all.map o.get

/-- No side is open. -/
def isBoxedIn (o : Openings) : Bool :=
  !(o.front || o.left || o.back || o.right)

/-- Four marks in the order of the sides: `o` for an open side, `.` for a blocked one. -/
def text (o : Openings) : String :=
  String.ofList (o.toList.map fun isOpen => if isOpen then 'o' else '.')

end Openings

end TileWalk
