import TileWalk.Geometry.Facing
import TileWalk.Ident
import TileWalk.Text.Quoted

/-!
# Decisions

Executing a node gives a decision: an action of the agent, and a sequel, which says where control
goes after the action or why the agent stops. Stopping is never an error; it is reported with its
reason.
-/

namespace TileWalk

/-- Why an agent stops. -/
inductive Ending
  /-- Control went past the last node. -/
  | endOfProgram
  /-- The node does not branch and has two links. -/
  | ambiguousLinks (node : NodeId)
  /-- The kind of the node does not know its command. -/
  | unknownCommand (node : NodeId) (kind command : String)
  /-- The argument of a call names no function. -/
  | invalidCallArgument (node : NodeId) (argument : String)
  deriving DecidableEq, Repr

/-- The wording of a reason to stop. -/
def Ending.text : Ending → String
  | .endOfProgram => "end of program"
  | .ambiguousLinks node => node.text ++ " has two successors"
  | .unknownCommand node kind command => node.text ++ ": unknown " ++ kind ++ "/" ++ command
  | .invalidCallArgument node argument =>
    node.text ++ ": invalid function id " ++ Text.Quoted.text argument

/-- Where control goes. -/
inductive Sequel
  /-- To a node; an absent one ends the program when it is to be executed. -/
  | resume (node : Option NodeId)
  /-- The agent stops. -/
  | finish (reason : Ending)
  deriving DecidableEq, Repr

/-- The reason to stop, if the agent stops. -/
def Sequel.reason? : Sequel → Option Ending
  | .resume _ => none
  | .finish reason => some reason

/-- What an agent does. -/
inductive Action
  | none
  /-- Face another way. -/
  | turn (facing : Facing)
  /-- Begin to move to the next cell. -/
  | move (dir : Vec)
  /-- Stay, for the front is not open. -/
  | blocked
  deriving DecidableEq, Repr

/-- The written form of an action in the journal. -/
def Action.text : Action → String
  | .none => "None"
  | .turn facing => "Turn(" ++ facing.name ++ ")"
  | .move dir =>
    "Move(Vec2i \x7b x: " ++ coordText dir.x ++ ", y: " ++ coordText dir.y ++ " \x7d)"
  | .blocked => "Blocked"

/-- An action and what follows it. -/
structure Decision where
  action : Action
  sequel : Sequel
  deriving DecidableEq, Repr

namespace Decision

/-- Control goes on, and the agent does nothing. -/
def resume (node : Option NodeId) : Decision :=
  ⟨.none, .resume node⟩

/-- The agent stops. -/
def finish (reason : Ending) : Decision :=
  ⟨.none, .finish reason⟩

end Decision

end TileWalk
