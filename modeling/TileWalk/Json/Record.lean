import TileWalk.Json.Reader

/-!
# Records

A record is written as an object with a member for each field, and can also be written as an array
of its fields in order. It is read into a draft, in which fields are still open, and completed at
its end. An object may have its members in any order and members that no field asks for; a field
that is given twice is a mismatch. An array may leave out fields at its end, if the draft can be
completed without them.

A choice is written as the name of one of its cases, or as an object with that name and `null`. Only
what has one of these two forms can be a mismatch. Anything else, such as an object with a key that
is no string, is refused as malformed.
-/

namespace TileWalk.Json

/-- A field of a record that is read into drafts of type `δ`. -/
structure RecordField (δ : Type) where
  name : String
  /-- The draft has the field already. -/
  isSet : δ → Bool
  /-- Reads the value of the field into the draft. -/
  read : δ → Reader δ

namespace Record

variable {δ α : Type}

/-- Reads the fields of an array in order, up to its end or to the last field. -/
def elements (depth : Nat) :
    List (RecordField δ) → (first : Bool) → δ → Payload → Except Failure (δ × Payload)
  | [], _, draft, p => .ok (draft, p)
  | field :: fields, first, draft, p => do
    match ← nextItem first p with
    | none => return (draft, p)
    | some p =>
      let (draft, p) ← field.read draft depth p
      elements depth fields false draft p

/-- Reads the members of an object up to its closing brace. Every member takes at least one entry
off the payload, so `bound` may be any list that is not shorter, such as the payload itself. -/
def members (depth : Nat) (fields : List (RecordField δ)) :
    (bound : Payload) → (first : Bool) → δ → Payload → Except Failure (δ × Payload)
  | [], _, _, _ => .error .truncated
  | _ :: bound, first, draft, p => do
    match ← nextName first p with
    | none => return (draft, p)
    | some (name, p) =>
      match fields.find? fun field => field.name = name with
      | some field =>
        -- a name that comes again is refused before its colon is looked for
        if field.isSet draft then
          .error .mismatch
        else
          let p ← colon p
          let (draft, p) ← field.read draft depth p
          members depth fields bound false draft p
      | none =>
        let p ← colon p
        let p ← skipValue p
        members depth fields bound false draft p

/-- Reads a record: its fields, the draft to begin with, and how a draft is completed. -/
def read (fields : List (RecordField δ)) (empty : δ) (complete : δ → Option α) : Reader α :=
  fun depth p =>
    match dropBlank p with
    | [] => .error .truncated
    | some '[' :: p =>
      match depth with
      | 0 => .error .malformed
      | depth + 1 => do
        let (draft, p) ← elements depth fields true empty p
        -- a missing field comes before a bracket that is missing
        match complete draft with
        | none => .error .mismatch
        | some a =>
          let p ← closeArray p
          return (a, p)
    | some '\x7b' :: p =>
      match depth with
      | 0 => .error .malformed
      | depth + 1 => do
        let (draft, p) ← members depth fields p true empty p
        match complete draft with
        | none => .error .mismatch
        | some a =>
          let p ← closeObject p
          return (a, p)
    | p => .error (wrongKind p)

end Record

/-! ### Choices -/

/-- The case with a name. -/
def caseNamed {α : Type} (cases : List (String × α)) (name : String) : Except Failure α :=
  match cases.lookup name with
  | some a => .ok a
  | none => .error .mismatch

/-- Reads one of the named cases. A name that is no case is a mismatch, and so is what stands in the
place of `null`. A key that is no string breaks the rules of objects, whatever is chosen from. -/
def choice {α : Type} (cases : List (String × α)) : Reader α := fun depth p =>
  match dropBlank p with
  | [] => .error .truncated
  | some '\"' :: p => do
    let (name, p) ← readString p
    let a ← caseNamed cases name
    return (a, p)
  | some '\x7b' :: p =>
    match depth with
    | 0 => .error .malformed
    | depth + 1 =>
      match dropBlank p with
      | [] => .error .truncated
      | some '\"' :: p => do
        let (name, p) ← readString p
        let a ← caseNamed cases name
        let p ← colon p
        let ((), p) ← null depth p
        let p ← closeObject p
        return (a, p)
      -- a key has to be a string, so this is no object at all
      | _ => .error .malformed
  | _ => .error .malformed

example : choice [("a", 0)] 1 (.ofString "\x7b\"b\":null\x7d") = .error .mismatch :=
  rfl

example : choice [("a", 0)] 1 (.ofString "\x7b1e5:null\x7d") = .error .malformed :=
  rfl

end TileWalk.Json
