/-!
# Columns

Tables with columns of fixed width: a text is filled up with blanks on its right, and a text that is
wider than its column is kept whole.
-/

namespace TileWalk.Text

/-- The text, filled up to `width` characters. -/
def padRight (width : Nat) (s : String) : String :=
  s ++ String.ofList (List.replicate (width - s.length) ' ')

end TileWalk.Text
