import TileWalk.File
import TileWalk.Json.Record
import TileWalk.Program.Brick

/-!
# Loading programs

A payload is a list of bricks. A brick has a `node`, which holds its tags and its argument, and may
have an `id` and links `right` and `bottom`. A link is read as a document first and only then
understood: whatever is wrong with the text of a link is found before anything that is wrong with
its shape, and a link that holds neither a brick nor a text nor `null` is refused as a whole.
-/

namespace TileWalk

open Json (Value Payload Failure Reader)

/-! ### Drafts -/

/-- The `node` of a brick that is being read. -/
structure HeadDraft where
  kind : Option String
  command : Option String
  argument : Option Value

namespace HeadDraft

/-- Nothing is read yet. -/
def empty : HeadDraft :=
  ⟨none, none, none⟩

/-- The finished head; an argument that is missing is `null`. -/
def complete (d : HeadDraft) : Option Head :=
  return ⟨← d.kind, ← d.command, d.argument.getD .null⟩

end HeadDraft

/-- A brick that is being read. -/
structure BrickDraft where
  name : Option (Option Value)
  head : Option Head
  right : Option Link
  bottom : Option Link

namespace BrickDraft

/-- Nothing is read yet. -/
def empty : BrickDraft :=
  ⟨none, none, none, none⟩

/-- The finished brick; links that are missing are absent. -/
def complete (d : BrickDraft) : Option Brick :=
  return ⟨d.name.getD none, ← d.head, d.right.getD .absent, d.bottom.getD .absent⟩

end BrickDraft

/-! ### Links that are read as documents -/

namespace Head

/-- The text of a document that is a string. -/
def stringOf? : Value → Option String
  | .string s => some s
  | _ => none

/-- Adds the members of an object to a draft. -/
def ofMembers? : List (String × Value) → HeadDraft → Option HeadDraft
  | [], d => some d
  | (name, v) :: members, d =>
    if name = "getBrickType" then
      if d.kind.isSome then none
      else do
        let s ← stringOf? v
        ofMembers? members { d with kind := some s }
    else if name = "getBrickCommand" then
      if d.command.isSome then none
      else do
        let s ← stringOf? v
        ofMembers? members { d with command := some s }
    else if name = "getBrickArgument" then
      if d.argument.isSome then none else ofMembers? members { d with argument := some v }
    else
      ofMembers? members d

/-- The head that a document describes. -/
def ofValue? : Value → Option Head
  | .object members => (ofMembers? members .empty).bind HeadDraft.complete
  | .array [kind, command] => return ⟨← stringOf? kind, ← stringOf? command, .null⟩
  | .array [kind, command, argument] => return ⟨← stringOf? kind, ← stringOf? command, argument⟩
  | _ => none

end Head

namespace Link

/-- The name in a document, where `null` is no name. -/
def nameOf : Value → Option Value
  | .null => none
  | v => some v

mutual

/-- The link that a document describes. -/
def ofValue? : Value → Option Link
  | .null => some .absent
  | .string s => some (.marker s)
  | .object members => do
    let d ← ofMembers? members .empty
    let b ← d.complete
    return b.toLink
  | .array [name, head] => return .brick (nameOf name) (← Head.ofValue? head) .absent .absent
  | .array [name, head, right] =>
    return .brick (nameOf name) (← Head.ofValue? head) (← ofValue? right) .absent
  | .array [name, head, right, bottom] =>
    return .brick (nameOf name) (← Head.ofValue? head) (← ofValue? right) (← ofValue? bottom)
  | _ => none

/-- Adds the members of an object to a draft. -/
def ofMembers? : List (String × Value) → BrickDraft → Option BrickDraft
  | [], d => some d
  | (name, v) :: members, d =>
    if name = "id" then
      if d.name.isSome then none else ofMembers? members { d with name := some (nameOf v) }
    else if name = "node" then
      if d.head.isSome then none
      else do
        let head ← Head.ofValue? v
        ofMembers? members { d with head := some head }
    else if name = "right" then
      if d.right.isSome then none
      else do
        let link ← ofValue? v
        ofMembers? members { d with right := some link }
    else if name = "bottom" then
      if d.bottom.isSome then none
      else do
        let link ← ofValue? v
        ofMembers? members { d with bottom := some link }
    else
      ofMembers? members d

end

/-- Reads a link. -/
def read : Reader Link := fun depth p => do
  let (v, p) ← Json.value depth p
  match ofValue? v with
  | some link => return (link, p)
  | none => .error .mismatch

end Link

/-! ### Bricks at the top -/

/-- Reads the `node` of a brick. -/
def Head.read : Reader Head :=
  Json.Record.read
    [ { name := "getBrickType"
        isSet := fun d => d.kind.isSome
        read := fun d depth p => do
          let (s, p) ← Json.string depth p
          return ({ d with kind := some s }, p) },
      { name := "getBrickCommand"
        isSet := fun d => d.command.isSome
        read := fun d depth p => do
          let (s, p) ← Json.string depth p
          return ({ d with command := some s }, p) },
      { name := "getBrickArgument"
        isSet := fun d => d.argument.isSome
        read := fun d depth p => do
          let (v, p) ← Json.value depth p
          return ({ d with argument := some v }, p) } ]
    HeadDraft.empty HeadDraft.complete

/-- Reads a brick. -/
def Brick.read : Reader Brick :=
  Json.Record.read
    [ { name := "id"
        isSet := fun d => d.name.isSome
        read := fun d depth p => do
          let (v, p) ← Json.value? depth p
          return ({ d with name := some v }, p) },
      { name := "node"
        isSet := fun d => d.head.isSome
        read := fun d depth p => do
          let (head, p) ← Head.read depth p
          return ({ d with head := some head }, p) },
      { name := "right"
        isSet := fun d => d.right.isSome
        read := fun d depth p => do
          let (link, p) ← Link.read depth p
          return ({ d with right := some link }, p) },
      { name := "bottom"
        isSet := fun d => d.bottom.isSome
        read := fun d depth p => do
          let (link, p) ← Link.read depth p
          return ({ d with bottom := some link }, p) } ]
    BrickDraft.empty BrickDraft.complete

/-! ### Programs -/

namespace Program

/-- The trees of a payload. -/
def bricksOf (p : Payload) : Except Failure (List Brick) :=
  Json.document (Json.arrayOf Brick.read) p

/-- The program of a payload. -/
def ofPayload (p : Payload) : Except ProgramError Program :=
  match bricksOf p with
  | .ok bricks => ofBricks bricks
  | .error failure => .error (.json failure)

/-- The program in a file. -/
def ofFile (file : File) : Except ProgramError Program :=
  match file.content with
  | some p => ofPayload p
  | none => .error (.io File.missingText)

/-- What is noted when a payload has become a program. -/
def loadEntries (p : Program) : List Entry :=
  remarks p.nodes.toList ++
    [⟨.info, "bg_program::loader", "program loaded",
      [("nodes", .count p.size), ("functions", .count p.functionCount),
        ("has_root", .text (truthText p.root.isSome))]⟩]

end Program

end TileWalk
