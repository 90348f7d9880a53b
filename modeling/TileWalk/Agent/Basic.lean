import TileWalk.Agent.Decide
import TileWalk.Agent.Motion
import TileWalk.Board.Basic

/-!
# Agents

An agent has a place on the board and a place in the program. It is idle, or it executes the node at
its cursor, or it moves and remembers what follows the move. The openings around it are looked up
when it appears, around every execution and when it arrives.

An operation that ends in a fault may leave an agent that has already changed; `advance` therefore
gives that agent back along with the fault.
-/

namespace TileWalk

/-- What an agent is busy with. -/
inductive Phase
  /-- Nothing: it has stopped, or has never started. -/
  | idle
  /-- It executes the node at its cursor. -/
  | executing
  /-- It moves, and goes on with the sequel when it arrives. -/
  | moving (sequel : Sequel)
  deriving DecidableEq, Repr

/-- The name of a phase. -/
def Phase.label : Phase → String
  | .idle => "idle"
  | .executing => "executing"
  | .moving _ => "moving"

/-- One agent. -/
@[ext]
structure Agent where
  id : AgentId
  /-- The cell on which it stands; while it moves, the cell that it leaves. -/
  pos : Pos
  facing : Facing
  /-- What it last saw around itself. -/
  openings : Openings
  /-- The node that it executes next. -/
  cursor : Option NodeId
  phase : Phase
  motion : Option Motion
  /-- Why its last run ended. -/
  finished : Option Ending
  deriving DecidableEq, Repr

namespace Agent

/-! ### Looking at an agent -/

/-- The agent does nothing. -/
def isIdle (a : Agent) : Bool :=
  a.phase = .idle

/-- The agent executes. -/
def isExecuting (a : Agent) : Bool :=
  a.phase = .executing

/-- The agent moves. -/
def isMoving (a : Agent) : Bool :=
  match a.phase with
  | .moving _ => true
  | _ => false

/-- How many ticks its move still takes. -/
def remainFrames (a : Agent) : UInt32 :=
  match a.motion with
  | some m => m.remaining
  | none => 0

/-- Where it is, between two cells while it moves. -/
def gridPosition (a : Agent) : Except Fault (Float32 × Float32) :=
  match a.motion with
  | some m => m.position
  | none => .ok (a.pos.x.toFloat32, a.pos.y.toFloat32)

/-! ### Beginning -/

/-- An idle agent at its starting place. -/
def spawn (id : AgentId) (s : Spawn) (g : Grid) : Except Fault Agent := do
  let openings ← Openings.around g s.pos s.facing
  return ⟨id, s.pos, s.facing, openings, none, .idle, none, none⟩

/-- The agent is to execute the node `root` next. -/
def seed (a : Agent) (root : Option NodeId) : Agent :=
  { a with cursor := root, phase := .executing, finished := none }

/-- The agent, idle at a starting place. -/
def reset (a : Agent) (s : Spawn) (g : Grid) : Except Fault Agent :=
  spawn a.id s g

/-- The agent after a look around. -/
def refresh (a : Agent) (g : Grid) : Except Fault Agent := do
  let openings ← Openings.around g a.pos a.facing
  return { a with openings }

/-! ### Acting -/

/-- The agent goes on with a sequel. -/
def follow (a : Agent) : Sequel → Agent
  | .resume node => { a with cursor := node, phase := .executing }
  | .finish reason => { a with cursor := none, phase := .idle, finished := some reason }

/-- The agent acts on a decision: a move begins and keeps the sequel for later, anything else is
done at once. -/
def apply (a : Agent) (d : Decision) (frames : UInt32) : Agent :=
  match d.action with
  | .move dir =>
    { a with
      motion := some (Motion.start a.pos dir frames)
      cursor := none
      phase := .moving d.sequel }
  | .turn facing => { a with facing }.follow d.sequel
  | .none => a.follow d.sequel
  | .blocked => a.follow d.sequel

/-- The agent executes the node at its cursor, if it is executing. -/
def execute (a : Agent) (p : Program) (g : Grid) (frames : UInt32) :
    Except Fault (Option Decision × Agent) :=
  if a.isExecuting then do
    let a ← a.refresh g
    let d := p.decide a.cursor a.facing a.openings
    let a ← (a.apply d frames).refresh g
    return (some d, a)
  else
    .ok (none, a)

/-! ### Moving -/

/-- The end of a move. -/
structure Arrival where
  pos : Pos
  /-- How many ticks the move took. -/
  frames : UInt32
  sequel : Sequel
  deriving DecidableEq, Repr

/-- A fault in the middle of an operation, with the agent as it is left. -/
structure Interruption where
  fault : Fault
  agent : Agent
  deriving DecidableEq, Repr

/-- The sequel of a move that ends now; without a move under way control is nowhere. -/
def sequelOnArrival (a : Agent) : Sequel :=
  match a.phase with
  | .moving sequel => sequel
  | _ => .resume none

/-- The agent moves for one tick. On the last tick of a move it arrives, looks around and goes on
with the sequel. -/
def advance (a : Agent) (g : Grid) : Except Interruption (Option Arrival × Agent) :=
  match a.motion with
  | none => .ok (none, a)
  | some motion =>
    let motion := motion.advance
    let moved := { a with motion := some motion }
    if motion.isOver then
      match motion.destination with
      | .error fault => .error ⟨fault, moved⟩
      | .ok pos =>
        match motion.elapsed with
        | .error fault => .error ⟨fault, moved⟩
        | .ok frames =>
          -- from here on the move is over, whatever the look around says
          let arrived := { a with motion := none, pos }
          match arrived.refresh g with
          | .error fault => .error ⟨fault, arrived⟩
          | .ok looked =>
            let sequel := a.sequelOnArrival
            .ok (some ⟨pos, frames, sequel⟩, { looked with phase := .idle }.follow sequel)
    else
      .ok (none, moved)

/-! ### What the journal says -/

/-- An entry about an agent. -/
def entry (id : AgentId) (message : String) (details : List (String × Detail)) : Entry :=
  ⟨.debug, "bg_exec::agent", message, ("agent", .text id.text) :: details⟩

/-- What is noted when an agent goes on with a sequel. -/
def followEntries (id : AgentId) : Sequel → List Entry
  | .resume _ => []
  | .finish reason => [entry id "finished" [("reason", .text reason.text)]]

/-- What is noted when an agent acts on a decision. -/
def applyEntries (id : AgentId) (d : Decision) : List Entry :=
  match d.action with
  | .move _ => []
  | _ => followEntries id d.sequel

/-- What is noted when the agent makes a decision. -/
def decisionEntries (a : Agent) (p : Program) (d : Decision) : List Entry :=
  let tags :=
    match a.cursor.bind p.node? with
    | some n => [("kind", Detail.text n.kind.tag), ("command", Detail.text n.command.tag)]
    | none => []
  entry a.id "dispatch"
    ([("node", .text (optionText (a.cursor.map Ident.text)))] ++ tags ++
      [("action", .text d.action.text)])
    :: applyEntries a.id d

/-- What is noted when an agent arrives. -/
def arrivalEntries (id : AgentId) (arrival : Arrival) : List Entry :=
  entry id "arrived"
    [("pos", .text arrival.pos.text), ("frames", .count arrival.frames.toNat)]
    :: followEntries id arrival.sequel

end Agent

end TileWalk
