/-!
# Journal

What happens is also noted in a journal, for whoever wants to follow a run. An entry has a level,
the part of the library that noted it, a message and named values. The journal never decides
anything.
-/

namespace TileWalk

/-- How much an entry matters. -/
inductive Level
  | warn
  | info
  | debug
  deriving DecidableEq, Repr

namespace Level

/-- The written form of a level. -/
def text : Level → String
  | warn => "WARN"
  | info => "INFO"
  | debug => "DEBUG"

/-- The rank of a level; a lower rank matters more. -/
def rank : Level → Nat
  | warn => 0
  | info => 1
  | debug => 2

end Level

/-- A value in an entry. -/
inductive Detail
  | count (n : Nat)
  | text (s : String)
  deriving DecidableEq, Repr

/-- An entry of the journal. -/
structure Entry where
  level : Level
  /-- The part of the library that noted it. -/
  source : String
  message : String
  details : List (String × Detail)
  deriving DecidableEq, Repr

/-- The entry matters at least as much as a level. -/
def Entry.isAtLeast (level : Level) (e : Entry) : Bool :=
  e.level.rank ≤ level.rank

/-- The written form of a value that may be absent. -/
def optionText (text? : Option String) : String :=
  match text? with
  | none => "None"
  | some text => "Some(" ++ text ++ ")"

/-- The written form of a truth value. -/
def truthText (b : Bool) : String :=
  if b then "true" else "false"

end TileWalk
