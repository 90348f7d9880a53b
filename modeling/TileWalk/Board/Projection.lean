import TileWalk.Board.Grid

/-!
# Projection

How a host that draws the board finds the place of a cell on its screen. A cell is drawn as a
diamond, columns run to the lower right and rows to the lower left, and cells further down are drawn
later. All arithmetic is that of 32-bit floating point, one operation after the other.
-/

namespace TileWalk

/-- A view of the board on a screen. -/
structure Projection where
  /-- Where the position `(0, 0)` is drawn. -/
  originX : Float32
  originY : Float32
  /-- The width of the diamond of one cell. -/
  cellSize : Float32

namespace Projection

/-- The view of the reference board. -/
def standard : Projection :=
  ⟨320, 480, 124⟩

/-- Where a point between the cells is drawn. -/
def project (v : Projection) (x y : Float32) : Float32 × Float32 :=
  (v.originX + (x - y) * v.cellSize / 2, v.originY + (x + y) * v.cellSize / 4)

/-- The layer in which a cell is drawn; higher layers are drawn later. -/
def layer (p : Pos) : Except Fault Int32 :=
  Checked.add32 p.x p.y

/-- How many layers a grid has. -/
def layerCount (g : Grid) : Nat :=
  g.width + g.height - 1

end Projection

end TileWalk
