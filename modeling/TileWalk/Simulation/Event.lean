import TileWalk.Simulation.World
import TileWalk.Tick

/-!
# Events

What a simulation tells its observers, in the order in which it happens. An observer is whoever
reads the list of events; nothing that it does comes back to the simulation, and no observer sends a
signal while a call goes on. The entries for the journal are collected beside the events.
-/

namespace TileWalk

/-- Something that observers are told. -/
inductive Event
  /-- A tick begins. -/
  | tickStart (tick : Tick)
  /-- A tick ends in which some number of agents executed a node. -/
  | tickEnd (tick : Tick) (dispatched : Nat)
  /-- The world at the end of a tick. -/
  | snapshot (tick : Tick) (world : World)
  /-- An agent came to the cell of a visible item. -/
  | itemCollected (tick : Tick) (agent : AgentId) (item : ItemId)
  /-- An agent stopped. -/
  | agentFinished (tick : Tick) (agent : AgentId) (reason : Ending)
  /-- A run is over; the tick is the next one. -/
  | runEnd (tick : Tick)
  deriving DecidableEq, Repr

/-- What an operation leaves to be read: events for observers and entries for the journal. -/
@[ext]
structure Chronicle where
  events : List Event
  entries : List Entry
  deriving DecidableEq, Repr

namespace Chronicle

/-- Nothing happened. -/
def empty : Chronicle :=
  ⟨[], []⟩

/-- One thing after the other. -/
def append (c d : Chronicle) : Chronicle :=
  ⟨c.events ++ d.events, c.entries ++ d.entries⟩

instance : Append Chronicle :=
  ⟨append⟩

/-- Events alone. -/
def ofEvents (events : List Event) : Chronicle :=
  ⟨events, []⟩

/-- Entries alone. -/
def ofEntries (entries : List Entry) : Chronicle :=
  ⟨[], entries⟩

@[simp]
theorem events_append (c d : Chronicle) : (c ++ d).events = c.events ++ d.events :=
  rfl

@[simp]
theorem entries_append (c d : Chronicle) : (c ++ d).entries = c.entries ++ d.entries :=
  rfl

theorem append_assoc (c d e : Chronicle) : c ++ d ++ e = c ++ (d ++ e) :=
  Chronicle.ext (List.append_assoc _ _ _) (List.append_assoc _ _ _)

end Chronicle

end TileWalk
