import TileWalk.Json.Number

/-!
# Documents

A document that is kept whole. Objects keep their members in the order of the text, repeated names
included; only printing settles what a repeated name means: members are printed in the order of
their names, and of members with one name the last is kept.
-/

namespace TileWalk.Json

/-- A document. -/
inductive Value
  | null
  | bool (b : Bool)
  | number (n : Number)
  | string (s : String)
  | array (items : List Value)
  | object (members : List (String × Value))
  deriving Inhabited

/-! ### Strings in print -/

/-- A character as it stands in a printed string. -/
def escapeChar (c : Char) : List Char :=
  if c = '\"' then ['\\', '\"']
  else if c = '\\' then ['\\', '\\']
  else if c = '\x08' then ['\\', 'b']
  else if c = '\x0c' then ['\\', 'f']
  else if c = '\n' then ['\\', 'n']
  else if c = '\r' then ['\\', 'r']
  else if c = '\t' then ['\\', 't']
  else if c < ' ' then
    ['\\', 'u', '0', '0', Nat.digitChar (c.toNat / 16), Nat.digitChar (c.toNat % 16)]
  else [c]

/-- A text as a printed string. -/
def quote (s : String) : String :=
  String.ofList (['\"'] ++ s.toList.flatMap escapeChar ++ ['\"'])

/-! ### Collections in print -/

/-- Printed values between brackets. -/
def bracketed (items : List String) : String :=
  "[" ++ String.intercalate "," items ++ "]"

/-- Names and printed values between braces, in the given order. -/
def braced (members : List (String × String)) : String :=
  "\x7b" ++ String.intercalate "," (members.map fun (name, text) => quote name ++ ":" ++ text)
    ++ "\x7d"

/-- A list of members in the order of their names with one more member, which replaces a member of
its name. -/
def insertMember (name text : String) : List (String × String) → List (String × String)
  | [] => [(name, text)]
  | (n, t) :: members =>
    if name < n then (name, text) :: (n, t) :: members
    else if name = n then (name, text) :: members
    else (n, t) :: insertMember name text members

/-- The members in the order of their names, the last of each name. -/
def sortMembers (members : List (String × String)) : List (String × String) :=
  members.foldl (fun sorted (name, text) => insertMember name text sorted) []

namespace Value

mutual

/-- The compact text of a document. -/
def text : Value → String
  | null => "null"
  | bool b => if b then "true" else "false"
  | number n => n.text
  | string s => quote s
  | array items => bracketed (itemTexts items)
  | object members => braced (sortMembers (memberTexts members))

/-- The compact texts of documents. -/
def itemTexts : List Value → List String
  | [] => []
  | v :: items => v.text :: itemTexts items

/-- The names of members with the compact texts of their documents. -/
def memberTexts : List (String × Value) → List (String × String)
  | [] => []
  | (name, v) :: members => (name, v.text) :: memberTexts members

end

end Value

end TileWalk.Json
