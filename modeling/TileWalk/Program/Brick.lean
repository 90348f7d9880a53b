import TileWalk.Program.Basic
import TileWalk.Program.Error

/-!
# Bricks

An editor draws a program as bricks that hang to the right of and below other bricks. A program is
made from a list of such trees by walking through each of them: a brick comes first, then what
hangs to its right, then what hangs below it, and the place of a brick in this walk is its number.
The walk stops at the first thing that cannot be used: a name or an argument that is no text and no
number, or a link that is a text other than `Nil`.
-/

namespace TileWalk

/-- What a brick says about itself. -/
structure Head where
  kind : String
  command : String
  argument : Json.Value

/-- What hangs on one side of a brick. -/
inductive Link
  /-- Nothing. -/
  | absent
  /-- A text; `Nil` stands for nothing. -/
  | marker (text : String)
  /-- A brick, with the name its author gave it. -/
  | brick (name : Option Json.Value) (head : Head) (right bottom : Link)
  deriving Inhabited

/-- A brick that hangs nowhere, the top of its tree. -/
structure Brick where
  name : Option Json.Value
  head : Head
  right : Link
  bottom : Link

/-- A brick as something that hangs. -/
def Brick.toLink (b : Brick) : Link :=
  .brick b.name b.head b.right b.bottom

/-- The text that stands for an absent link. -/
def Link.nil : String := "Nil"

namespace Program

/-- The text of a name or an argument: texts stand for themselves, numbers for their numerals, and
`null` for the empty text. -/
def scalarText : Json.Value → Except ProgramError String
  | .null => .ok ""
  | .string s => .ok s
  | .number n => .ok n.text
  | value => .error (.badArgument value)

/-- A node without links for a brick at place `n`. -/
def bareNode (n : Nat) (name : Option Json.Value) (head : Head) : Except ProgramError Node := do
  let id ←
    match Ident.ofIndex? n with
    | some id => .ok id
    | none => .error .tooLarge
  let sourceId ←
    match name with
    | some value => (scalarText value).map some
    | none => .ok none
  let argument ← scalarText head.argument
  return ⟨id, sourceId, Kind.ofTag head.kind, Command.ofTag head.command, argument, none, none⟩

/-- Appends the bricks of a tree to a list of nodes, and gives the number of its top. -/
def place : Link → Array Node → Except ProgramError (Option NodeId × Array Node)
  | .absent, nodes => .ok (none, nodes)
  | .marker text, nodes => if text = Link.nil then .ok (none, nodes) else .error (.badLink text)
  | .brick name head right bottom, nodes => do
    let n := nodes.size
    let node ← bareNode n name head
    -- the brick takes its number before anything that hangs on it
    let (right, nodes) ← place right (nodes.push node)
    let (bottom, nodes) ← place bottom nodes
    return (some node.id, nodes.modify n fun node => { node with right, bottom })

/-- Appends the bricks of several trees to a list of nodes. -/
def placeAll : List Brick → Array Node → Except ProgramError (Array Node)
  | [], nodes => .ok nodes
  | b :: bricks, nodes => do
    let (_, nodes) ← place b.toLink nodes
    placeAll bricks nodes

/-- The program that a list of trees draws. -/
def ofBricks (bricks : List Brick) : Except ProgramError Program := do
  let nodes ← placeAll bricks #[]
  return ofNodes nodes

end Program

end TileWalk
