import TileWalk.Trace.Row

/-!
# Writing a trace

A writer takes rows, and every call of it may fail. A trace sends the events of a simulation to a
writer, never stops because of a failure, and remembers the first failure until somebody asks for
it.
-/

namespace TileWalk

namespace Trace

/-- Why a call of a writer fails. -/
inductive Error
  | io (cause : String)
  | csv (cause : String)
  deriving DecidableEq, Repr

/-- The wording of a failure. -/
def Error.message : Error → String
  | .io cause => "I/O error: " ++ cause
  | .csv cause => "CSV write error: " ++ cause

/-- A place for the rows of a trace. Each call gives the writer after the call, also if it fails. -/
class Writer (ω : Type) where
  /-- Takes the rows of one tick. -/
  snapshots : List SnapshotRow → ω → ω × Except Error Unit
  /-- Takes one row about an agent. -/
  event : EventRow → ω → ω × Except Error Unit
  /-- Brings everything to its place. -/
  finish : ω → ω × Except Error Unit

end Trace

/-- A writer with the first failure that nobody has asked for yet. -/
structure Trace (ω : Type) where
  writer : ω
  firstError : Option Trace.Error

namespace Trace

variable {ω : Type}

/-- The beginning of a trace. -/
def ofWriter (writer : ω) : Trace ω :=
  ⟨writer, none⟩

/-- The trace after a call of its writer. -/
def record (t : Trace ω) (call : ω → ω × Except Error Unit) : Trace ω :=
  let (writer, result) := call t.writer
  match t.firstError, result with
  | none, .error e => ⟨writer, some e⟩
  | firstError, _ => ⟨writer, firstError⟩

/-- The first failure, which is forgotten now. -/
def takeError (t : Trace ω) : Option Error × Trace ω :=
  (t.firstError, { t with firstError := none })

variable [Writer ω]

/-- Brings everything to its place. -/
def finish (t : Trace ω) : Trace ω :=
  t.record Writer.finish

/-- Sends one event to the writer. A world without agents has no rows and causes no call. -/
def observe (t : Trace ω) : Event → Except Fault (Trace ω)
  | .snapshot tick world => do
    let rows ← snapshotRows tick world
    return if rows.isEmpty then t else t.record (Writer.snapshots rows)
  | .itemCollected tick agent item =>
    .ok (t.record (Writer.event (EventRow.collected tick agent item)))
  | .agentFinished tick agent reason =>
    .ok (t.record (Writer.event (EventRow.finished tick agent reason)))
  | .runEnd _ => .ok t.finish
  | .tickStart _ => .ok t
  | .tickEnd _ _ => .ok t

/-- Sends events to the writer in order. -/
def observeAll (t : Trace ω) : List Event → Except Fault (Trace ω)
  | [] => .ok t
  | e :: events => do
    let t ← t.observe e
    t.observeAll events

end Trace

end TileWalk
