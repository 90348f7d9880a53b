import TileWalk.Json.Value
import TileWalk.Text.Quoted

/-!
# Unusable programs

The reasons for which a payload does not become a program, and how each is worded.
-/

namespace TileWalk

/-- Why a payload does not become a program. -/
inductive ProgramError
  /-- The payload is no list of bricks. -/
  | json (failure : Json.Failure)
  /-- A link is a text that does not stand for an absent link. -/
  | badLink (marker : String)
  /-- The name or the argument of a brick is neither a text nor a number. -/
  | badArgument (value : Json.Value)
  /-- There are more bricks than numbers for nodes. -/
  | tooLarge
  /-- The payload could not be read at all. -/
  | io (cause : String)

/-- The wording of a failure to read a document. -/
def Json.Failure.message : Json.Failure → String
  | .malformed => "malformed document"
  | .truncated => "unexpected end of document"
  | .mismatch => "unexpected shape of document"

/-- The wording of a refusal. -/
def ProgramError.message : ProgramError → String
  | .json failure => "program JSON error: " ++ failure.message
  | .badLink marker =>
    "invalid link " ++ Text.Quoted.text marker ++ ": expected a brick object, \"Nil\", or null"
  | .badArgument value =>
    "invalid brick argument " ++ value.text ++ ": expected a string or a number"
  | .tooLarge => "program has more than u32::MAX bricks"
  | .io cause => "I/O error: " ++ cause

end TileWalk
