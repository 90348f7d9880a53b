import TileWalk.Ident

/-!
# Faults

A fault stops a computation in the middle: an arithmetic operation left its range, or a link was
asked for between nodes that do not exist. Faults are kept apart from errors, which answer an
unusable input: no input that passes its checks is meant to lead to a fault.
-/

namespace TileWalk

/-- Why a computation stopped in the middle. -/
inductive Fault
  /-- A sum left the range of its type. -/
  | addOverflow
  /-- A difference left the range of its type. -/
  | subOverflow
  /-- The opposite of a number left the range of its type. -/
  | negOverflow
  /-- A link was to leave a node that does not exist. -/
  | linkSource (node : NodeId)
  /-- A link was to reach a node that does not exist. -/
  | linkTarget (node : NodeId)
  deriving DecidableEq, Repr

/-- The wording of a fault. -/
def Fault.message : Fault → String
  | .addOverflow => "attempt to add with overflow"
  | .subOverflow => "attempt to subtract with overflow"
  | .negOverflow => "attempt to negate with overflow"
  | .linkSource node => "link source " ++ node.text ++ " not in this builder"
  | .linkTarget node => "link target " ++ node.text ++ " not in this builder"

end TileWalk
