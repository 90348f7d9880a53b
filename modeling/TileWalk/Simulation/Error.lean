import TileWalk.Board.Error
import TileWalk.Config
import TileWalk.Program.Error

/-!
# What a simulation refuses

A simulation is not made from an unusable board or configuration, does not accept an unusable
program, and takes no signals once it is gone.
-/

namespace TileWalk

/-- Why a simulation refuses something. -/
inductive SimulationError
  | config (cause : Config.Error)
  | board (cause : BoardError)
  | program (cause : ProgramError)
  /-- The simulation is gone. -/
  | disconnected

/-- The wording of a refusal. -/
def SimulationError.message : SimulationError → String
  | .config cause => "simulation configuration error: " ++ cause.message
  | .board cause => "board error: " ++ cause.message
  | .program cause => "program error: " ++ cause.message
  | .disconnected => "control signal not delivered: the simulation has been dropped"

end TileWalk
