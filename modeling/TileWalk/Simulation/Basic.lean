import TileWalk.Program.Load
import TileWalk.Simulation.Error
import TileWalk.Simulation.Event

/-!
# Simulations

A simulation is a board, a program and a world, with a clock that is never set back. The program is
only replaced together with a new world, so no agent stands at a node of another program. Signals
are requests from outside: they wait in a queue until the next tick and are then carried out in
order.

An agent that stops as soon as it is started, because the program has no beginning, is remembered as
unreported until the next tick or run tells the observers.
-/

namespace TileWalk

/-- A request that is carried out between two ticks. -/
inductive Signal
  /-- Begin anew with another program. -/
  | load (program : Program)
  /-- Begin anew and let every agent execute the program. -/
  | start
  /-- Begin anew. -/
  | reset
  deriving DecidableEq, Repr

/-- The name of a signal in the journal. -/
def Signal.name : Signal → String
  | .load _ => "LoadProgram"
  | .start => "Start"
  | .reset => "Reset"

/-- A board with a program, a world and a clock. -/
structure Simulation where
  config : Config
  /-- The tick that is processed next. -/
  clock : Tick
  board : Board
  program : Program
  world : World
  /-- The signals that wait, the oldest first. -/
  queue : List Signal
  /-- The agents that stopped when they were started and have not been reported. -/
  unreported : List AgentId

namespace Simulation

/-- An entry of the journal about a simulation. -/
def entry (level : Level) (message : String) (details : List (String × Detail)) : Entry :=
  ⟨level, "bg_sim::sim", message, details⟩

/-- The clock as a value in an entry. -/
def clockDetail (s : Simulation) : String × Detail :=
  ("tick", .count s.clock.count.toNat)

/-- The beginning of a program as a value in an entry. -/
def rootDetail (p : Program) : String × Detail :=
  ("root", .text (optionText (p.root.map Ident.text)))

/-! ### Making a simulation -/

/-- A simulation of a board that has not begun. The configuration is checked first. -/
def build (board : Board) (config : Config) (program : Program) :
    Except SimulationError (Except Fault (Simulation × Chronicle)) :=
  match config.check with
  | .error e => .error (.config e)
  | .ok () => .ok do
    let world ← World.ofBoard board
    let s : Simulation :=
      { config, clock := Tick.zero, board, program, world, queue := [], unreported := [] }
    return (s, .ofEntries
      [⟨.info, "bg_sim::builder", "sim built",
        [("agents", .count world.agents.length), ("items", .count world.stock.items.length),
          ("nodes", .count program.size), ("move_frames", .count config.moveFrames.toNat)]⟩])

/-! ### Looking at a simulation -/

/-- Some agent executes or moves. -/
def isRunning (s : Simulation) : Bool :=
  s.world.isRunning

/-! ### Control -/

/-- Begins anew: every agent at its starting place, every item visible. -/
def reset (s : Simulation) : Except Fault (Simulation × Chronicle) := do
  let world ← World.ofBoard s.board
  let s := { s with world, unreported := [] }
  return (s, .ofEntries
    [entry .info "reset" [s.clockDetail, ("agents", .count world.agents.length)]])

/-- Begins anew with another program. -/
def load (program : Program) (s : Simulation) : Except Fault (Simulation × Chronicle) := do
  let (s, c) ← s.reset
  return ({ s with program }, c ++ .ofEntries
    [entry .info "program installed"
      [("nodes", .count program.size), ("functions", .count program.functionCount),
        rootDetail program]])

/-- Begins anew and lets every agent execute the program from its beginning. If the program has
none, every agent stops at once. -/
def start (s : Simulation) : Except Fault (Simulation × Chronicle) := do
  let (s, c) ← s.reset
  let started := entry .info "start" [s.clockDetail, rootDetail s.program]
  let agents := s.world.agents
  match s.program.root with
  | some root =>
    let world := { s.world with agents := agents.map fun a => a.seed (some root) }
    return ({ s with world }, c ++ .ofEntries [started])
  | none =>
    -- nobody hears of these endings before the next tick or run
    let stop := Decision.finish .endOfProgram
    let world := { s.world with agents := agents.map fun a => a.apply stop s.config.moveFrames }
    let entries := agents.flatMap fun a => Agent.applyEntries a.id stop
    return ({ s with world, unreported := s.unreported ++ agents.map Agent.id },
      c ++ .ofEntries (entries ++ [started]))

/-- Carries out a signal. -/
def carryOut (s : Simulation) : Signal → Except Fault (Simulation × Chronicle)
  | .load program => s.load program
  | .start => s.start
  | .reset => s.reset

/-- Takes a payload from an editor: installs its program and starts it. A payload that is no program
changes nothing. -/
def deliver (p : Json.Payload) (s : Simulation) :
    Except SimulationError (Except Fault (Simulation × Chronicle)) :=
  match Program.ofPayload p with
  | .error e => .error (.program e)
  | .ok program => .ok do
    let (s, c) ← s.load program
    let (s, d) ← s.start
    return (s, .ofEntries program.loadEntries ++ c ++ d)

/-! ### Signals -/

/-- Puts a signal at the end of the queue. -/
def enqueue (s : Simulation) (signal : Signal) : Simulation :=
  { s with queue := s.queue ++ [signal] }

/-- Sends a signal to a simulation that may be gone. -/
def send (s? : Option Simulation) (signal : Signal) : Except SimulationError Simulation :=
  match s? with
  | some s => .ok (s.enqueue signal)
  | none => .error .disconnected

/-- Carries out signals in order. -/
def carryOutAll (s : Simulation) : List Signal → Except Fault (Simulation × Chronicle)
  | [] => .ok (s, .empty)
  | signal :: signals => do
    let (s, c) ← s.carryOut signal
    let (s, d) ← s.carryOutAll signals
    return (s, .ofEntries [entry .debug "signal" [("signal", .text signal.name)]] ++ c ++ d)

/-- Carries out the signals that wait. -/
def drain (s : Simulation) : Except Fault (Simulation × Chronicle) :=
  { s with queue := [] }.carryOutAll s.queue

end Simulation

end TileWalk
