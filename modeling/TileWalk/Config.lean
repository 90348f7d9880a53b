/-!
# Configuration

How long a move takes, how long a run may take, and how often the world is shown. A configuration
with moves of no length is refused (`Config.check_eq_ok_iff`); the other two numbers are free, and
a zero there means no tick at all and no view at all.
-/

namespace TileWalk

/-- The settings of a simulation. -/
@[ext]
structure Config where
  /-- How many ticks a move from a cell to the next takes. -/
  moveFrames : UInt32
  /-- How many ticks a run may take. -/
  maxTicks : UInt64
  /-- The world is shown at every tick that this number divides, and never if it is zero. -/
  snapshotInterval : UInt64
  deriving DecidableEq, Repr

namespace Config

/-- Moves of ten ticks, runs of at most ten thousand, and a view at every tick. -/
def standard : Config :=
  ⟨10, 10000, 1⟩

instance : Inhabited Config :=
  ⟨standard⟩

/-- Why a configuration is refused. -/
inductive Error
  /-- A move would take no tick. -/
  | noMoveFrames
  deriving DecidableEq, Repr

/-- The wording of a refusal. -/
def Error.message : Error → String
  | .noMoveFrames => "configuration error: move_frames must be at least 1"

/-- Refuses a configuration that no simulation can run. -/
def check (c : Config) : Except Error Unit :=
  if c.moveFrames = 0 then .error .noMoveFrames else .ok ()

theorem check_eq_ok_iff {c : Config} : c.check = .ok () ↔ c.moveFrames ≠ 0 := by
  unfold check
  split <;> simp_all

end Config

end TileWalk
