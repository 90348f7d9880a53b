import TileWalk.Simulation.Basic

/-!
# Ticks of a simulation

A tick has two phases. First every agent that moves goes on for one tick, in the order of the
agents, and those that arrive collect the items of their cells. Then every agent that did not
arrive in this tick and is executing executes one node. The node after a move is thus executed one
tick after the arrival.
-/

namespace TileWalk

namespace Simulation

/-! ### Motion -/

/-- The event of an agent that is idle now, if it has a reason. -/
def finishEvents (now : Tick) (a : Agent) : List Event :=
  if a.isIdle then
    match a.finished with
    | some reason => [.agentFinished now a.id reason]
    | none => []
  else
    []

/-- An item has been collected. -/
def collected (now : Tick) (agent : AgentId) (pos : Pos) (item : ItemId) : Chronicle where
  events := [.itemCollected now agent item]
  entries :=
    [entry .debug "item collected"
      [("agent", .text agent.text), ("item", .text item.text), ("pos", .text pos.text)]]

/-- The first phase: moves every agent, and says which of them arrived. -/
def moveAgents (g : Grid) (now : Tick) :
    List Agent → Stock → Except Fault (List (Agent × Bool) × Stock × Chronicle)
  | [], stock => .ok ([], stock, .empty)
  | a :: agents, stock => do
    match a.advance g with
    | .error interruption => .error interruption.fault
    | .ok (none, a) =>
      let (moved, stock, c) ← moveAgents g now agents stock
      return ((a, false) :: moved, stock, c)
    | .ok (some arrival, a) =>
      let (items, stock) ← stock.collectAt arrival.pos
      -- an arrival is noted, then its items, then the end of the program
      let here : Chronicle :=
        .ofEntries (Agent.arrivalEntries a.id arrival)
          ++ (items.map (collected now a.id arrival.pos)).foldr (· ++ ·) .empty
          ++ .ofEvents (finishEvents now a)
      let (moved, stock, c) ← moveAgents g now agents stock
      return ((a, true) :: moved, stock, here ++ c)

/-! ### Execution -/

/-- The second phase: lets every agent that did not arrive execute, and counts those that did. -/
def dispatchAgents (p : Program) (g : Grid) (frames : UInt32) (now : Tick) :
    List (Agent × Bool) → Except Fault (List Agent × Nat × Chronicle)
  | [] => .ok ([], 0, .empty)
  | (a, true) :: moved => do
    let (agents, count, c) ← dispatchAgents p g frames now moved
    return (a :: agents, count, c)
  | (a, false) :: moved => do
    let (decision?, b) ← a.execute p g frames
    let (agents, count, c) ← dispatchAgents p g frames now moved
    match decision? with
    | none => return (b :: agents, count, c)
    | some d =>
      let here : Chronicle := ⟨finishEvents now b, a.decisionEntries p d⟩
      return (b :: agents, count + 1, here ++ c)

/-! ### Whole ticks -/

/-- The events of the agents that have not been reported. -/
def pendingEvents (s : Simulation) : List Event :=
  s.unreported.flatMap fun id =>
    match (s.world.agent? id).bind Agent.finished with
    | some reason => [.agentFinished s.clock id reason]
    | none => []

/-- The world is shown at the end of a tick. -/
def isSnapshotTick (interval : UInt64) (now : Tick) : Bool :=
  interval ≠ 0 && now.count.toNat % interval.toNat = 0

/-- Processes one tick, whatever signals wait, and counts the agents that executed a node. -/
def step (s : Simulation) : Except Fault (Nat × Simulation × Chronicle) := do
  let now := s.clock
  let (moved, stock, c) ← moveAgents s.board.grid now s.world.agents s.world.stock
  let (agents, count, d) ←
    dispatchAgents s.program s.board.grid s.config.moveFrames now moved
  let world : World := ⟨agents, stock⟩
  let shown := if isSnapshotTick s.config.snapshotInterval now then [.snapshot now world] else []
  -- all events of a tick carry its own number; the clock goes on last
  let clock ← now.next
  return (count, { s with world, clock, unreported := [] },
    .ofEvents (.tickStart now :: s.pendingEvents) ++ c ++ d
      ++ .ofEvents (.tickEnd now count :: shown))

/-- Carries out the signals that wait and processes one tick. -/
def tick (s : Simulation) : Except Fault (Nat × Simulation × Chronicle) := do
  let (s, c) ← s.drain
  let (count, s, d) ← s.step
  return (count, s, c ++ d)

/-- Processes `n` ticks, and gives the numbers of agents that executed a node. -/
def tickMany (s : Simulation) : Nat → Except Fault (List Nat × Simulation × Chronicle)
  | 0 => .ok ([], s, .empty)
  | n + 1 => do
    let (count, s, c) ← s.tick
    let (counts, s, d) ← s.tickMany n
    return (count :: counts, s, c ++ d)

end Simulation

end TileWalk
