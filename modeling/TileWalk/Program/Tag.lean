import TileWalk.Geometry.Facing

/-!
# Kinds and commands

Every node of a program carries two tags: its kind, which says how control passes through it, and
its command, which says what it does. Tags that are not known are kept as they are, for a program
may contain them as long as no agent reaches them. The main statements are `Kind.tag_ofTag` and
`Command.tag_ofTag`: no tag is lost by reading it.
-/

namespace TileWalk

/-! ### Kinds -/

/-- How control passes through a node. -/
inductive Kind
  /-- The head of a program or of a function. -/
  | entry
  /-- A single action. -/
  | basic
  /-- A branch on a side of the agent. -/
  | case
  /-- A call of a function, from which there is no return. -/
  | tail
  /-- A kind that is not known. -/
  | other (tag : String)
  deriving DecidableEq, Repr

namespace Kind

/-- The kind with a tag. -/
def ofTag (tag : String) : Kind :=
  if tag = "EntryBrick" then entry
  else if tag = "BasicBrick" then basic
  else if tag = "CaseBrick" then case
  else if tag = "TailBrick" then tail
  else other tag

/-- The tag of a kind. -/
def tag : Kind → String
  | entry => "EntryBrick"
  | basic => "BasicBrick"
  | case => "CaseBrick"
  | tail => "TailBrick"
  | other tag => tag

/-- The kind is not known. -/
def isOther : Kind → Bool
  | other _ => true
  | _ => false

@[simp]
theorem tag_ofTag (tag : String) : (ofTag tag).tag = tag := by
  grind [ofTag, Kind.tag]

end Kind

/-! ### Commands -/

/-- What a node does. -/
inductive Command
  /-- Marks the node at which a program begins. -/
  | root
  /-- Marks the node at which a function begins; the argument is the number of the function. -/
  | funcStart
  /-- Step forward if the front is open. -/
  | move
  | turnRight
  | turnLeft
  | turnBack
  /-- Do nothing. -/
  | pass
  /-- Branch on a side of the agent. -/
  | test (side : Side)
  /-- A command that is not known. -/
  | other (tag : String)
  deriving DecidableEq, Repr

namespace Command

/-- The branch with a tag. -/
def testOfTag? (tag : String) : Option Side :=
  if tag = "CommandIfS" then some .front
  else if tag = "CommandIfL" then some .left
  else if tag = "CommandIfB" then some .back
  else if tag = "CommandIfR" then some .right
  else none

/-- The command with a tag. -/
def ofTag (tag : String) : Command :=
  if tag = "CommandNOP" then root
  else if tag = "CommandFuncStart" then funcStart
  else if tag = "CommandMove" then move
  else if tag = "CommandTurnRight" then turnRight
  else if tag = "CommandTurnLeft" then turnLeft
  else if tag = "CommandTurnBack" then turnBack
  else if tag = "CommandNone" then pass
  else
    match testOfTag? tag with
    | some side => test side
    | none => other tag

/-- The tag of a command. -/
def tag : Command → String
  | root => "CommandNOP"
  | funcStart => "CommandFuncStart"
  | move => "CommandMove"
  | turnRight => "CommandTurnRight"
  | turnLeft => "CommandTurnLeft"
  | turnBack => "CommandTurnBack"
  | pass => "CommandNone"
  | test .front => "CommandIfS"
  | test .left => "CommandIfL"
  | test .back => "CommandIfB"
  | test .right => "CommandIfR"
  | other tag => tag

/-- The command is not known. -/
def isOther : Command → Bool
  | other _ => true
  | _ => false

/-- The side that a branch looks at. -/
def side? : Command → Option Side
  | test side => some side
  | _ => none

theorem tag_test_of_testOfTag? {tag : String} {side : Side} (h : testOfTag? tag = some side) :
    (test side).tag = tag := by
  grind [testOfTag?, Command.tag]

@[simp]
theorem tag_ofTag (tag : String) : (ofTag tag).tag = tag := by
  grind [ofTag, Command.tag, tag_test_of_testOfTag?]

end Command

end TileWalk
