import TileWalk.Agent.Decision
import TileWalk.Board.Openings
import TileWalk.Program.Basic

/-!
# Deciding

What a node makes an agent do depends on the program, the node, the facing and the openings around
the agent, and on nothing else. The openings have to be those of the moment.
-/

namespace TileWalk

/-- Where control goes after a node that does not branch. -/
def Node.sequel (n : Node) : Sequel :=
  match n.successor with
  | .next node => .resume (some node)
  | .stop => .finish .endOfProgram
  | .ambiguous => .finish (.ambiguousLinks n.id)

/-- The reason to stop at a node that nobody knows how to execute. -/
def Node.unknown (n : Node) : Ending :=
  .unknownCommand n.id n.kind.tag n.command.tag

/-- The action of a basic command, if the command is one. -/
def Command.action? (c : Command) (f : Facing) (o : Openings) : Option Action :=
  match c with
  | .move => some (if o.front then .move f.vector else .blocked)
  | .turnRight => some (.turn f.right)
  | .turnLeft => some (.turn f.left)
  | .turnBack => some (.turn f.back)
  | .pass => some .none
  | _ => none

/-- What a node makes an agent do. -/
def Node.decide (n : Node) (p : Program) (f : Facing) (o : Openings) : Decision :=
  match n.kind with
  | .entry => ⟨.none, n.sequel⟩
  | .basic =>
    match n.command.action? f o with
    | some action => ⟨action, n.sequel⟩
    | none => .finish n.unknown
  | .case =>
    match n.command.side? with
    | some side => .resume (n.branch (o.get side))
    | none => .finish n.unknown
  | .tail =>
    match n.callTarget? with
    | some function => .resume <| p.functionEntry? function
    | none => .finish (.invalidCallArgument n.id n.argument)
  | .other _ => .finish n.unknown

/-- What an agent does whose control is at `cursor`. -/
def Program.decide (p : Program) (cursor : Option NodeId) (f : Facing) (o : Openings) : Decision :=
  match cursor.bind p.node? with
  | some n => n.decide p f o
  | none => .finish .endOfProgram

end TileWalk
