/-!
# Why a document is refused

Reading goes from left to right and stops at the first thing that is wrong. What is wrong is one of
three things, and nothing more is said about it.
-/

namespace TileWalk.Json

/-- Why a document is refused. -/
inductive Failure
  /-- The text breaks the grammar, or a limit on numbers or nesting. -/
  | malformed
  /-- The text ends inside a value. -/
  | truncated
  /-- The text is a document, but not one of the wanted shape. -/
  | mismatch
  deriving DecidableEq, Repr

end TileWalk.Json
