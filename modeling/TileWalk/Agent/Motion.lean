import TileWalk.Geometry.Vector

/-!
# Motions

A motion is a move from one cell to the next that takes some ticks. It counts down the ticks that
remain, and the share that is still to be covered shrinks with the square of that count, so an agent
slows down as it arrives.
-/

namespace TileWalk

/-- A move under way. -/
@[ext]
structure Motion where
  /-- The cell that is left. -/
  origin : Pos
  /-- The step that is taken. -/
  dir : Vec
  /-- How many ticks the whole move takes. -/
  total : UInt32
  /-- How many ticks are left. -/
  remaining : UInt32
  deriving DecidableEq, Repr, Inhabited

namespace Motion

/-- A move that begins now and takes `frames` ticks, or one tick if `frames` is zero. -/
def start (origin : Pos) (dir : Vec) (frames : UInt32) : Motion :=
  let total := if frames = 0 then 1 else frames
  ⟨origin, dir, total, total⟩

/-- The cell that is reached. -/
def destination (m : Motion) : Except Fault Pos :=
  m.origin.add m.dir

/-- The move one tick later; a move that is over stays over. -/
def advance (m : Motion) : Motion :=
  { m with remaining := if m.remaining = 0 then 0 else m.remaining - 1 }

/-- No tick is left. -/
def isOver (m : Motion) : Bool :=
  m.remaining == 0

/-- How many ticks have passed. -/
def elapsed (m : Motion) : Except Fault UInt32 :=
  Checked.sub32 m.total m.remaining

/-- The share of the step that is still to be covered. -/
def fraction (m : Motion) : Float32 :=
  let share := m.remaining.toFloat32 / m.total.toFloat32
  share * share

/-- Where the agent is between the two cells. -/
def position (m : Motion) : Except Fault (Float32 × Float32) := do
  let goal ← m.destination
  let k := m.fraction
  return (goal.x.toFloat32 - m.dir.x.toFloat32 * k, goal.y.toFloat32 - m.dir.y.toFloat32 * k)

theorem toNat_remaining_advance (m : Motion) :
    m.advance.remaining.toNat = m.remaining.toNat - 1 := by
  unfold advance
  by_cases h : m.remaining = 0
  · simp [h]
  · have h1 : m.remaining.toNat ≠ 0 := fun h0 => h (UInt32.toNat_inj.1 h0)
    have h2 : (1 : UInt32) ≤ m.remaining := UInt32.le_iff_toNat_le.2 (by
      have : (1 : UInt32).toNat = 1 := rfl
      omega)
    simp only [h, if_false]
    rw [UInt32.toNat_sub_of_le _ _ h2]
    rfl

end Motion

end TileWalk
