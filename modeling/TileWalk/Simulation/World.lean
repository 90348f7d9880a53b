import TileWalk.Agent.Basic

/-!
# Worlds

A world holds what changes during a run: the agents and the items of a board. It is made anew from
the board whenever a run begins. An item is visible until an agent comes to its cell; items under a
starting place are collected from the beginning. How many items are still visible is counted along.
-/

namespace TileWalk

/-- An item that can be collected. -/
@[ext]
structure Item where
  id : ItemId
  pos : Pos
  /-- No agent has come to its cell yet. -/
  visible : Bool
  deriving DecidableEq, Repr

/-- The items of a world. -/
@[ext]
structure Stock where
  items : List Item
  /-- How many of them are visible. -/
  remaining : Nat
  deriving DecidableEq, Repr

namespace Stock

/-- All items of a board, visible. -/
def ofBoard (b : Board) : Stock :=
  ⟨b.items.mapIdx fun n pos => ⟨Ident.ofIndex n, pos, true⟩, b.items.length⟩

/-- The item is visible and lies on a cell. -/
def liesAt (pos : Pos) (i : Item) : Bool :=
  i.visible && i.pos = pos

/-- Hides the visible items of a cell, and gives their numbers. -/
def collectAt (s : Stock) (pos : Pos) : Except Fault (List ItemId × Stock) := do
  let collected := (s.items.filter (liesAt pos)).map Item.id
  let items := s.items.map fun i => if liesAt pos i then { i with visible := false } else i
  let remaining ← Checked.subSize s.remaining collected.length
  return (collected, ⟨items, remaining⟩)

/-- Hides the visible items of several cells. -/
def collectAll (s : Stock) : List Pos → Except Fault Stock
  | [] => .ok s
  | pos :: rest => do
    let (_, s) ← s.collectAt pos
    s.collectAll rest

end Stock

/-- The agents and the items of a run. -/
@[ext]
structure World where
  agents : List Agent
  stock : Stock
  deriving DecidableEq, Repr

namespace World

/-- The agents of a board at their starting places, numbered from `n`. -/
def spawnAll (g : Grid) : Nat → List Spawn → Except Fault (List Agent)
  | _, [] => .ok []
  | n, s :: spawns => do
    let a ← Agent.spawn (Ident.ofIndex n) s g
    let agents ← spawnAll g (n + 1) spawns
    return a :: agents

/-- The world at the beginning of a run. -/
def ofBoard (b : Board) : Except Fault World := do
  let agents ← spawnAll b.grid 0 b.spawns
  let stock ← (Stock.ofBoard b).collectAll (b.spawns.map Spawn.pos)
  return ⟨agents, stock⟩

/-- The agent with a number. -/
def agent? (w : World) (id : AgentId) : Option Agent :=
  w.agents[id.index]?

/-- Some agent executes or moves. -/
def isRunning (w : World) : Bool :=
  w.agents.any fun a => !a.isIdle

/-- How many items are visible. -/
def remainingItems (w : World) : Nat :=
  w.stock.remaining

end World

end TileWalk
