import TileWalk.Ident
import TileWalk.Program.Tag
import TileWalk.Text.Blank
import TileWalk.Text.Decimal

/-!
# Nodes

A node is one brick of a program, numbered by its place. It has up to two links. A branch takes one
of them, `right` if its side is open and `bottom` if not; any other node passes control along the
only link that it has.

The argument of a node is text. A call reads the number at its front, while a function is declared
by nothing but the canonical numeral of its number, so that `2`, ` 2` and `2.0` all call function
two and only `2` declares it.
-/

namespace TileWalk

/-- One brick of a program. -/
structure Node where
  id : NodeId
  /-- The name by which the author of the program knows the brick. -/
  sourceId : Option String
  kind : Kind
  command : Command
  argument : String
  right : Option NodeId
  bottom : Option NodeId
  deriving DecidableEq, Repr

/-- Where control goes after a node that does not branch. -/
inductive Successor
  | next (node : NodeId)
  /-- The node has no link. -/
  | stop
  /-- The node has two links, and nothing says which to take. -/
  | ambiguous
  deriving DecidableEq, Repr

namespace Node

/-- The only link of the node. -/
def successor (n : Node) : Successor :=
  match n.right, n.bottom with
  | some next, none => .next next
  | none, some next => .next next
  | none, none => .stop
  | some _, some _ => .ambiguous

/-- The link that a branch takes. -/
def branch (n : Node) (taken : Bool) : Option NodeId :=
  if taken then n.right else n.bottom

/-- The numbers of functions are below this one: they have 64 bits. -/
def functionLimit : Nat :=
  UInt64.size

/-- Splits off one sign: whether it is negative, and the rest. -/
def splitSign : List Char → Bool × List Char
  | '-' :: cs => (true, cs)
  | '+' :: cs => (false, cs)
  | cs => (false, cs)

/-- The number of the function that a call with this argument reaches: after white space and a sign
the leading digits count, and whatever follows them is ignored. Zero and negative numbers call
nothing. -/
def callTarget? (n : Node) : Option Nat :=
  let (negative, cs) := splitSign (n.argument.toList.dropWhile Text.isBlank)
  match Text.Decimal.below? functionLimit (cs.takeWhile Char.isDigit) with
  | some f => if negative = false ∧ 0 < f then some f else none
  | none => none

/-- The number of the function that begins at the node. -/
def declared? (n : Node) : Option Nat :=
  if n.command = .funcStart then Text.Decimal.canonical? functionLimit n.argument else none

end Node

end TileWalk
