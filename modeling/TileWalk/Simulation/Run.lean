import TileWalk.Simulation.Tick

/-!
# Runs

A run processes ticks until no agent executes or moves, or until the bound of the configuration is
reached. Signals are carried out before every tick, also before the one that turns out not to be
needed. No signal comes while a run goes on: observers only read what they are told.
-/

namespace TileWalk

namespace Simulation

/-- At most `bound` ticks of a run, and how many there were. Agents that have not been reported are
reported when the run stops because nothing moves. The signals that wait are carried out before the
first tick; after that none wait, for observers send none during the run. -/
def runFor (s : Simulation) : (bound : Nat) → Except Fault (Nat × Simulation × Chronicle)
  | 0 => .ok (0, s, .empty)
  | bound + 1 => do
    let (s, c) ← s.drain
    -- a signal may just have started agents that were idle
    if s.isRunning then
      let (_, s, d) ← s.step
      let (ticks, s, e) ← s.runFor bound
      return (ticks + 1, s, c ++ (d ++ e))
    else
      return (0, { s with unreported := [] }, c ++ .ofEvents s.pendingEvents)

/-- What is noted when a run stops at its bound. -/
def boundEntries (s : Simulation) : List Entry :=
  if s.isRunning then
    [entry .warn "tick bound reached with agents still running"
      [s.clockDetail, ("max_ticks", .count s.config.maxTicks.toNat)]]
  else
    []

/-- Runs until nothing moves or the bound is reached, and gives the number of ticks. -/
def run (s : Simulation) : Except Fault (Nat × Simulation × Chronicle) := do
  let (ticks, s, c) ← s.runFor s.config.maxTicks.toNat
  return (ticks, s, c ++ ⟨[.runEnd s.clock], s.boundEntries⟩)

end Simulation

end TileWalk
