import TileWalk.Trace.Writer

/-!
# Recording writers

A writer that keeps a list of its calls and fails at chosen ones. It shows what a trace does with a
writer that cannot be relied on.
-/

namespace TileWalk.Trace

/-- A call of a writer. -/
inductive Call
  | snapshots (rows : List SnapshotRow)
  | event (row : EventRow)
  | finish

/-- The name of a call. -/
def Call.name : Call → String
  | .snapshots _ => "snapshots"
  | .event _ => "event"
  | .finish => "finish"

/-- The calls of a writer, and at which of them it fails. -/
structure Recorder where
  /-- The calls so far, the oldest first. -/
  calls : Array Call
  /-- The call with this number fails; numbers begin at zero. -/
  fails : Nat → Bool

namespace Recorder

/-- A writer without calls. -/
def ofFailures (fails : Nat → Bool) : Recorder :=
  ⟨#[], fails⟩

/-- Keeps a call, and fails if it is one of the chosen. -/
def keep (call : Call) (r : Recorder) : Recorder × Except Error Unit :=
  let n := r.calls.size
  ({ r with calls := r.calls.push call },
    if r.fails n then .error (.io (call.name ++ " failed at call " ++ toString n)) else .ok ())

instance : Writer Recorder where
  snapshots rows := keep (.snapshots rows)
  event row := keep (.event row)
  finish := keep .finish

end Recorder

end TileWalk.Trace
