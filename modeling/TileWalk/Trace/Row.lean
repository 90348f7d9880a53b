import TileWalk.Simulation.Event

/-!
# Rows of a trace

A trace of a run consists of two tables: the state of every agent at every shown tick, and what
happened to agents. A row of the first kind is a view of an agent, and a row of the second kind is
an event without the world.
-/

namespace TileWalk.Trace

/-- The state of one agent at the end of a tick. -/
structure SnapshotRow where
  agentId : UInt32
  tick : UInt64
  x : Int32
  y : Int32
  facing : Nat
  phase : String
  remainFrames : UInt32
  /-- Where the agent is between two cells. -/
  fx : Float32
  fy : Float32
  front : Bool
  left : Bool
  right : Bool
  back : Bool

/-- The row of an agent. -/
def SnapshotRow.ofAgent (tick : Tick) (a : Agent) : Except Fault SnapshotRow := do
  let (fx, fy) ← a.gridPosition
  return {
    agentId := a.id.val
    tick := tick.count
    x := a.pos.x
    y := a.pos.y
    facing := a.facing.value
    phase := a.phase.label
    remainFrames := a.remainFrames
    fx
    fy
    front := a.openings.front
    left := a.openings.left
    right := a.openings.right
    back := a.openings.back }

/-- The rows of the agents of a world. -/
def snapshotRows (tick : Tick) (w : World) : Except Fault (List SnapshotRow) :=
  w.agents.mapM (SnapshotRow.ofAgent tick)

/-- Something that happened to one agent. -/
@[ext]
structure EventRow where
  tick : UInt64
  agentId : UInt32
  event : String
  detail : String
  deriving DecidableEq, Repr

namespace EventRow

/-- The row of an item that an agent collected. -/
def collected (tick : Tick) (agent : AgentId) (item : ItemId) : EventRow :=
  ⟨tick.count, agent.val, "item_collected", toString item.index⟩

/-- The row of an agent that stopped. -/
def finished (tick : Tick) (agent : AgentId) (reason : Ending) : EventRow :=
  ⟨tick.count, agent.val, "finished", reason.text⟩

end EventRow

end TileWalk.Trace
