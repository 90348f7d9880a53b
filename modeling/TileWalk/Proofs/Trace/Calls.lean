import TileWalk.Trace.Recorder

/-!
# Calls of a writer

A trace and whoever else uses a writer only ever calls it, one call after the other. What becomes of
the writer, and which calls fail, is a matter of the writer and of the list of calls
(`Trace.Call.performAll`).
-/

namespace TileWalk.Trace.Call

variable {ω : Type} [Writer ω]

/-- Makes a call. -/
def perform : Call → ω → ω × Except Error Unit
  | .snapshots rows => Writer.snapshots rows
  | .event row => Writer.event row
  | .finish => Writer.finish

/-- Makes calls one after the other, whether or not they fail: the writer after the last one, and
what each of them says. -/
def performAll : List Call → ω → ω × List (Except Error Unit)
  | [], w => (w, [])
  | call :: calls, w =>
    let (w, result) := call.perform w
    let (w, results) := performAll calls w
    (w, result :: results)

theorem performAll_append (calls more : List Call) (w : ω) :
    performAll (calls ++ more) w =
      ((performAll more (performAll calls w).1).1,
        (performAll calls w).2 ++ (performAll more (performAll calls w).1).2) := by
  induction calls generalizing w with
  | nil => rfl
  | cons call calls ih =>
    rw [List.cons_append, performAll, performAll]
    dsimp only
    rw [ih]
    rfl

end TileWalk.Trace.Call
