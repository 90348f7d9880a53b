/-!
# Cells

A cell is a number of 32 bits. Its lowest bit says that the cell can be walked on, the next that an
item lies there, the third that an agent starts there, and the number above these three bits is the
facing of that agent.
-/

namespace TileWalk

/-- What a board says about one cell. -/
@[ext]
structure Cell where
  bits : UInt32
  deriving DecidableEq, Repr, Inhabited

namespace Cell

/-- An agent can stand on the cell. -/
def isWalkable (c : Cell) : Bool :=
  c.bits &&& 1 ≠ 0

/-- An item lies on the cell. -/
def hasItem (c : Cell) : Bool :=
  c.bits &&& 2 ≠ 0

/-- An agent starts on the cell. -/
def hasSpawn (c : Cell) : Bool :=
  c.bits &&& 4 ≠ 0

/-- The number of the facing of an agent that starts on the cell. -/
def facingBits (c : Cell) : UInt32 :=
  c.bits >>> 3

end Cell

end TileWalk
