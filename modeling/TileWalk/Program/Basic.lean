import TileWalk.Journal
import TileWalk.Program.Node

/-!
# Programs

A program is a list of nodes, each at the place of its number, with two tables that are made once:
where the program begins, and where each function begins. Where several nodes could be meant the
first one counts.
-/

namespace TileWalk

/-- A list of nodes with its tables. -/
structure Program where
  nodes : Array Node
  /-- The node at which the program begins. -/
  root : Option NodeId
  /-- The numbers of the functions with the nodes at which they begin. -/
  functions : List (Nat × NodeId)
  deriving DecidableEq, Repr

namespace Program

/-- The program without nodes. -/
def empty : Program :=
  ⟨#[], none, []⟩

instance : Inhabited Program :=
  ⟨empty⟩

/-! ### Making the tables -/

/-- The tables of the nodes seen so far. -/
structure Index where
  root : Option NodeId
  functions : List (Nat × NodeId)

/-- The tables with one more node, unless what it begins has begun before. -/
def Index.add (ix : Index) (n : Node) : Index where
  root :=
    match ix.root with
    | some first => some first
    | none => if n.command = .root then some n.id else none
  functions :=
    match n.declared? with
    | none => ix.functions
    | some f =>
      match ix.functions.lookup f with
      | some _ => ix.functions
      | none => ix.functions ++ [(f, n.id)]

/-- The tables of a list of nodes. -/
def Index.ofNodes (nodes : List Node) : Index :=
  nodes.foldl Index.add ⟨none, []⟩

/-- The program with the given nodes. -/
def ofNodes (nodes : Array Node) : Program :=
  let ix := Index.ofNodes nodes.toList
  ⟨nodes, ix.root, ix.functions⟩

/-! ### Looking things up -/

/-- The node with a number. -/
def node? (p : Program) (id : NodeId) : Option Node :=
  p.nodes[id.index]?

/-- The node at which a function begins. -/
def functionEntry? (p : Program) (f : Nat) : Option NodeId :=
  p.functions.lookup f

/-- How many nodes there are. -/
def size (p : Program) : Nat :=
  p.nodes.size

/-- How many functions there are. -/
def functionCount (p : Program) : Nat :=
  p.functions.length

/-! ### What the journal says -/

/-- A remark on the nodes of a program. -/
def remark (message : String) (details : List (String × Detail)) : Entry :=
  ⟨.warn, "bg_program::program", message, details⟩

/-- The remarks on one more node, given the tables before it. -/
def Index.remarks (ix : Index) (n : Node) : List Entry :=
  (match ix.root with
    | some first =>
      if n.command = .root then
        [remark "more than one CommandNOP root; using the first"
          [("first", .text first.text), ("duplicate", .text n.id.text)]]
      else []
    | none => []) ++
  (match n.declared? with
    | none => []
    | some f =>
      match ix.functions.lookup f with
      | some first =>
        [remark "duplicate function entry; using the first"
          [("function", .count f), ("first", .text first.text), ("duplicate", .text n.id.text)]]
      | none => []) ++
  (match n.kind with
    | .other tag =>
      [remark "unknown brick kind; agents stop if they reach it"
        [("node", .text n.id.text), ("kind", .text tag)]]
    | _ => []) ++
  (match n.command with
    | .other tag =>
      [remark "unknown command; agents stop if they reach it"
        [("node", .text n.id.text), ("command", .text tag)]]
    | _ => [])

/-- The remarks on a list of nodes, given the tables before them. -/
def remarksFrom (ix : Index) : List Node → List Entry
  | [] => []
  | n :: nodes => ix.remarks n ++ remarksFrom (ix.add n) nodes

/-- What is noted when a list of nodes becomes a program. -/
def remarks (nodes : List Node) : List Entry :=
  remarksFrom ⟨none, []⟩ nodes ++
    if (Index.ofNodes nodes).root.isNone && !nodes.isEmpty then
      [remark "program has no CommandNOP root" []]
    else []

end Program

end TileWalk
