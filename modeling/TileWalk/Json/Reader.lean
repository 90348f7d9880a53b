import TileWalk.Json.Value

/-!
# Readers

A reader takes a value off the front of a payload. It is told how many more brackets may be opened
inside each other, and it stops at the first thing that is wrong: a value of the wrong kind is
refused as soon as its kind is seen, a member that is given twice as soon as its name is read, and
a missing member at the end of its object. Whatever a reader does not ask for is skipped by the
grammar alone, however deep it is nested.
-/

namespace TileWalk.Json

/-- Takes a value off the front of a payload, with a limit on nested brackets. -/
abbrev Reader (α : Type) := Nat → Payload → Except Failure (α × Payload)

/-- How many brackets may be open at a time. -/
def nestingLimit : Nat := 127

/-! ### Punctuation -/

/-- Reads the colon after a name. -/
def colon (p : Payload) : Except Failure Payload :=
  match dropBlank p with
  | [] => .error .truncated
  | some ':' :: p => .ok p
  | _ => .error .malformed

/-- Moves to the next item of an array, past the comma before it unless it is the first one; nothing
if the array ends here. -/
def nextItem (first : Bool) (p : Payload) : Except Failure (Option Payload) :=
  match dropBlank p with
  | [] => .error .truncated
  | some ']' :: _ => .ok none
  | some ',' :: p =>
    -- before the first item the comma is left for the item, which refuses it
    if first then
      .ok (some (some ',' :: p))
    else
      match dropBlank p with
      | [] => .error .truncated
      | some ']' :: _ => .error .malformed
      | p => .ok (some p)
  | p => if first then .ok (some p) else .error .malformed

/-- Reads the name of the next member of an object, past the comma before it unless it is the first
one; nothing if the object ends here. -/
def nextName (first : Bool) (p : Payload) : Except Failure (Option (String × Payload)) :=
  match dropBlank p with
  | [] => .error .truncated
  | some '\x7d' :: _ => .ok none
  | some ',' :: p =>
    if first then
      .error .malformed
    else
      match dropBlank p with
      | [] => .error .truncated
      | some '\"' :: p => (readString p).map some
      | _ => .error .malformed
  | some '\"' :: p => if first then (readString p).map some else .error .malformed
  | _ => .error .malformed

/-- Reads the bracket that ends an array. -/
def closeArray (p : Payload) : Except Failure Payload :=
  match dropBlank p with
  | [] => .error .truncated
  | some ']' :: p => .ok p
  | _ => .error .malformed

/-- Reads the brace that ends an object. -/
def closeObject (p : Payload) : Except Failure Payload :=
  match dropBlank p with
  | [] => .error .truncated
  | some '\x7d' :: p => .ok p
  | _ => .error .malformed

/-! ### Skipping -/

/-- What skipping waits for. -/
inductive Awaited
  | value
  | name
  /-- The end of the value that was just skipped: a comma or a closing bracket. -/
  | delimiter

/-- A bracket that is open. -/
inductive Bracket
  | array
  | object
  deriving DecidableEq

/-- Skips what is awaited and all that is open, innermost first. Every round takes at least one
entry off the payload, so `bound` may be any list that is no shorter, such as the payload itself. -/
def skipFrom : (bound : Payload) → Awaited → List Bracket → Payload → Except Failure Payload
  | _, .delimiter, [], p => .ok p
  | [], _, _, _ => .error .truncated
  | _ :: bound, .value, opened, p =>
    match dropBlank p with
    | [] => .error .truncated
    | some '[' :: p =>
      match dropBlank p with
      | [] => .error .truncated
      | some ']' :: p => skipFrom bound .delimiter opened p
      | p => skipFrom bound .value (.array :: opened) p
    | some '\x7b' :: p =>
      match dropBlank p with
      | [] => .error .truncated
      | some '\x7d' :: p => skipFrom bound .delimiter opened p
      | p => skipFrom bound .name (.object :: opened) p
    | some '\"' :: p =>
      match skipString p with
      | .ok p => skipFrom bound .delimiter opened p
      | .error e => .error e
    | some 'n' :: p =>
      match word ['u', 'l', 'l'] p with
      | .ok p => skipFrom bound .delimiter opened p
      | .error e => .error e
    | some 't' :: p =>
      match word ['r', 'u', 'e'] p with
      | .ok p => skipFrom bound .delimiter opened p
      | .error e => .error e
    | some 'f' :: p =>
      match word ['a', 'l', 's', 'e'] p with
      | .ok p => skipFrom bound .delimiter opened p
      | .error e => .error e
    | some '-' :: p =>
      match Number.skip p with
      | .ok p => skipFrom bound .delimiter opened p
      | .error e => .error e
    | p =>
      match Number.skip p with
      | .ok p => skipFrom bound .delimiter opened p
      | .error e => .error e
  | _ :: bound, .name, opened, p =>
    match dropBlank p with
    | [] => .error .truncated
    | some '\"' :: p =>
      match skipString p with
      | .ok p =>
        match colon p with
        | .ok p => skipFrom bound .value opened p
        | .error e => .error e
      | .error e => .error e
    | _ => .error .malformed
  | _ :: bound, .delimiter, bracket :: opened, p =>
    match dropBlank p, bracket with
    | [], _ => .error .truncated
    | some ',' :: p, .array => skipFrom bound .value (.array :: opened) p
    | some ',' :: p, .object => skipFrom bound .name (.object :: opened) p
    | some ']' :: p, .array => skipFrom bound .delimiter opened p
    | some '\x7d' :: p, .object => skipFrom bound .delimiter opened p
    | _, _ => .error .malformed

/-- Where nothing is open any more, skipping has come to its end. -/
theorem skipFrom_end (bound p : Payload) : skipFrom bound .delimiter [] p = .ok p := by
  rw [skipFrom]

/-- Skips a value. -/
def skipValue (p : Payload) : Except Failure Payload :=
  skipFrom p .value [] p

/-! ### Single values -/

/-- Why the value at the front is refused where its kind is wrong: a value that can be read so far
is a mismatch. -/
def wrongKind (p : Payload) : Failure :=
  let mismatch {α : Type} : Except Failure α → Failure
    | .ok _ => .mismatch
    | .error e => e
  match p with
  | some 'n' :: p => mismatch (word ['u', 'l', 'l'] p)
  | some 't' :: p => mismatch (word ['r', 'u', 'e'] p)
  | some 'f' :: p => mismatch (word ['a', 'l', 's', 'e'] p)
  | some '-' :: p => mismatch (Number.read true p)
  | some '\"' :: p => mismatch (readString p)
  | some '[' :: _ => .mismatch
  | some '\x7b' :: _ => .mismatch
  | some c :: p => if c.isDigit then mismatch (Number.read false (some c :: p)) else .malformed
  | _ => .malformed

/-- Reads a string. -/
def string : Reader String := fun _ p =>
  match dropBlank p with
  | [] => .error .truncated
  | some '\"' :: p => readString p
  | p => .error (wrongKind p)

/-- Reads a truth value. -/
def truth : Reader Bool := fun _ p =>
  match dropBlank p with
  | [] => .error .truncated
  | some 't' :: p => (word ['r', 'u', 'e'] p).map fun p => (true, p)
  | some 'f' :: p => (word ['a', 'l', 's', 'e'] p).map fun p => (false, p)
  | p => .error (wrongKind p)

/-- Reads a whole number from `low` to below `high`. -/
def integer (low high : Int) : Reader Int := fun _ p => do
  let (n, rest) ←
    match dropBlank p with
    | [] => .error .truncated
    | some '-' :: p => Number.read true p
    | some c :: p =>
      if c.isDigit then Number.read false (some c :: p) else .error (wrongKind (some c :: p))
    | p => .error (wrongKind p)
  match n with
  | .int n => if low ≤ n ∧ n < high then return (n, rest) else .error .mismatch
  | .real _ => .error .mismatch

/-- Reads `null`. -/
def null : Reader Unit := fun _ p =>
  match dropBlank p with
  | [] => .error .truncated
  | some 'n' :: p => (word ['u', 'l', 'l'] p).map fun p => ((), p)
  | p => .error (wrongKind p)

/-- Reads the items of an array up to its closing bracket. Every item takes at least one entry off
the payload, so `bound` may be any list that is not shorter, such as the payload itself. -/
def items {α : Type} (item : Payload → Except Failure (α × Payload)) :
    (bound : Payload) → (first : Bool) → Payload → Except Failure (List α × Payload)
  | [], _, _ => .error .truncated
  | _ :: bound, first, p => do
    match ← nextItem first p with
    | none => return ([], dropBlank p)
    | some p =>
      let (a, p) ← item p
      let (as, p) ← items item bound false p
      return (a :: as, p)

/-- Reads the members of an object up to its closing brace; `bound` as for items. -/
def members {α : Type} (item : Payload → Except Failure (α × Payload)) :
    (bound : Payload) → (first : Bool) → Payload → Except Failure (List (String × α) × Payload)
  | [], _, _ => .error .truncated
  | _ :: bound, first, p => do
    match ← nextName first p with
    | none => return ([], dropBlank p)
    | some (name, p) =>
      let p ← colon p
      let (a, p) ← item p
      let (as, p) ← members item bound false p
      return ((name, a) :: as, p)

/-- Reads an array of values of one kind. -/
def arrayOf {α : Type} (item : Reader α) : Reader (List α) := fun depth p =>
  match dropBlank p with
  | [] => .error .truncated
  | some '[' :: p =>
    match depth with
    | 0 => .error .malformed
    | depth + 1 => do
      let (as, p) ← items (item depth) p true p
      let p ← closeArray p
      return (as, p)
  | p => .error (wrongKind p)

/-! ### Whole documents -/

/-- Reads any value. -/
def value (depth : Nat) (p : Payload) : Except Failure (Value × Payload) :=
  match dropBlank p with
  | [] => .error .truncated
  | some 'n' :: p => (word ['u', 'l', 'l'] p).map fun p => (.null, p)
  | some 't' :: p => (word ['r', 'u', 'e'] p).map fun p => (.bool true, p)
  | some 'f' :: p => (word ['a', 'l', 's', 'e'] p).map fun p => (.bool false, p)
  | some '-' :: p => (Number.read true p).map fun (n, p) => (.number n, p)
  | some '\"' :: p => (readString p).map fun (s, p) => (.string s, p)
  | some '[' :: p =>
    match depth with
    | 0 => .error .malformed
    | depth + 1 => do
      let (vs, p) ← items (value depth) p true p
      let p ← closeArray p
      return (.array vs, p)
  | some '\x7b' :: p =>
    match depth with
    | 0 => .error .malformed
    | depth + 1 => do
      let (vs, p) ← members (value depth) p true p
      let p ← closeObject p
      return (.object vs, p)
  | some c :: p =>
    if c.isDigit then
      (Number.read false (some c :: p)).map fun (n, p) => (.number n, p)
    else
      .error .malformed
  | _ => .error .malformed

/-- Reads any value; `null` stands for none. -/
def value? : Reader (Option Value) := fun depth p =>
  match dropBlank p with
  | some 'n' :: p => (word ['u', 'l', 'l'] p).map fun p => (none, p)
  | p => (value depth p).map fun (v, p) => (some v, p)

/-- Reads a document that consists of one value, with nothing but blanks around it. -/
def document {α : Type} (reader : Reader α) (p : Payload) : Except Failure α := do
  let (a, rest) ← reader nestingLimit p
  if (dropBlank rest).isEmpty then return a else .error .malformed

end TileWalk.Json
