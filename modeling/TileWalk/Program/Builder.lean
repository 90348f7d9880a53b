import TileWalk.Fault
import TileWalk.Program.Basic

/-!
# Building programs

A program can be built node by node: nodes are appended without links, and links are set between
nodes that exist. A link to or from a node that does not exist is a fault and changes nothing; a
chain that meets this fault keeps the node it has appended.
-/

namespace TileWalk

/-- A program under construction. -/
structure Builder where
  nodes : Array Node
  deriving DecidableEq, Repr

/-- What makes up a node apart from its place and its links. -/
structure Instruction where
  kind : Kind
  command : Command
  argument : String
  deriving DecidableEq, Repr

namespace Builder

/-- The beginning of every construction. -/
def empty : Builder :=
  ⟨#[]⟩

/-- Appends a node without links, and gives its number. -/
def add (b : Builder) (i : Instruction) : Builder × NodeId :=
  let id := Ident.ofIndex b.nodes.size
  (⟨b.nodes.push ⟨id, none, i.kind, i.command, i.argument, none, none⟩⟩, id)

/-- Refuses a link between nodes that do not exist; a missing source is named first. -/
def checkLink (b : Builder) (source target : NodeId) : Except Fault Unit :=
  if b.nodes.size ≤ source.index then .error (.linkSource source)
  else if b.nodes.size ≤ target.index then .error (.linkTarget target)
  else .ok ()

/-- Sets the right link of a node, whether or not the target exists. -/
def setRight (b : Builder) (source target : NodeId) : Builder :=
  ⟨b.nodes.modify source.index fun n => { n with right := some target }⟩

/-- Sets the bottom link of a node, whether or not the target exists. -/
def setBottom (b : Builder) (source target : NodeId) : Builder :=
  ⟨b.nodes.modify source.index fun n => { n with bottom := some target }⟩

/-- Sets the right link of a node. -/
def linkRight (b : Builder) (source target : NodeId) : Except Fault Builder := do
  b.checkLink source target
  return b.setRight source target

/-- Sets the bottom link of a node. -/
def linkBottom (b : Builder) (source target : NodeId) : Except Fault Builder := do
  b.checkLink source target
  return b.setBottom source target

/-- Appends nodes one below the other, the first below `after`, and gives the number of the last. -/
def chain (b : Builder) (after : NodeId) : List Instruction → Builder × Except Fault NodeId
  | [] => (b, .ok after)
  | i :: rest =>
    let (b, next) := b.add i
    match b.checkLink after next with
    | .error fault => (b, .error fault)
    | .ok () => (b.setBottom after next).chain next rest

/-- The program that was built. -/
def build (b : Builder) : Program :=
  Program.ofNodes b.nodes

end Builder

end TileWalk
