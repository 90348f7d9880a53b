import TileWalk.Json.Payload

/-!
# Files

A file as a program finds it: under a path there may be a content, or nothing.
-/

namespace TileWalk

/-- What lies under a path. -/
structure File where
  path : String
  /-- The content, if the file exists. -/
  content : Option Json.Payload

/-- The wording for a file that does not exist. -/
def File.missingText : String :=
  "No such file or directory (os error 2)"

end TileWalk
