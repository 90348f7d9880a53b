import TileWalk.Json.Payload
import TileWalk.Json.Failure

/-!
# Blanks, words and strings

The smallest parts of a document. A string is first cut into pieces: characters, and the codes of
its escapes. Skipping a string asks for no more than that; reading it puts the codes of surrogate
pairs together and refuses codes and gaps that are no characters.
-/

namespace TileWalk.Json

/-- Space, tab, line feed and carriage return. -/
def isBlank (u : Option Char) : Bool :=
  u = some ' ' || u = some '\t' || u = some '\n' || u = some '\r'

/-- The payload without the blanks at its front. -/
def dropBlank (p : Payload) : Payload :=
  p.dropWhile isBlank

/-- Reads the letters of a word. -/
def word : List Char → Payload → Except Failure Payload
  | [], p => .ok p
  | _ :: _, [] => .error .truncated
  | c :: cs, u :: p => if u = some c then word cs p else .error .malformed

/-- The digits at the front, and what follows them. -/
def takeDigits : Payload → List Char × Payload
  | some c :: p =>
    if c.isDigit then
      let (digits, rest) := takeDigits p
      (c :: digits, rest)
    else
      ([], some c :: p)
  | p => ([], p)

/-! ### Pieces of strings -/

/-- A part of a string. -/
inductive Piece
  /-- A character as it stands or after a backslash, or a gap. -/
  | unit (u : Option Char)
  /-- The code of an escape with four digits. -/
  | code (n : Nat)
  deriving DecidableEq, Repr

/-- The value of a digit in base sixteen. -/
def hexDigit? : Option Char → Option Nat
  | none => none
  | some c =>
    if '0' ≤ c ∧ c ≤ '9' then some (c.toNat - '0'.toNat)
    else if 'a' ≤ c ∧ c ≤ 'f' then some (c.toNat - 'a'.toNat + 10)
    else if 'A' ≤ c ∧ c ≤ 'F' then some (c.toNat - 'A'.toNat + 10)
    else none

/-- The value of four digits in base sixteen. -/
def hexCode? (a b c d : Option Char) : Option Nat := do
  let a ← hexDigit? a
  let b ← hexDigit? b
  let c ← hexDigit? c
  let d ← hexDigit? d
  return ((a * 16 + b) * 16 + c) * 16 + d

/-- What a letter after a backslash stands for. -/
def escaped? : Option Char → Option Char
  | some '\"' => some '\"'
  | some '\\' => some '\\'
  | some '/' => some '/'
  | some 'b' => some '\x08'
  | some 'f' => some '\x0c'
  | some 'n' => some '\n'
  | some 'r' => some '\r'
  | some 't' => some '\t'
  | _ => none

/-- The failure where four digits are wanted and fewer than four entries are left: the text is cut
off only if it ends before the fourth byte. -/
def cutEscape (p : Payload) : Failure :=
  if p.byteLength < 4 then .truncated else .malformed

/-- Cuts a string into pieces, after its opening quote: the pieces up to its end or to the first
failure, and what follows the closing quote or that failure. -/
def pieces : Payload → List Piece × Except Failure Payload
  | [] => ([], .error .truncated)
  | some '\"' :: p => ([], .ok p)
  | some '\\' :: some 'u' :: a :: b :: c :: d :: p =>
    match hexCode? a b c d with
    | some n =>
      let (rest, ending) := pieces p
      (.code n :: rest, ending)
    | none => ([], .error .malformed)
  | some '\\' :: some 'u' :: p => ([], .error (cutEscape p))
  | [some '\\'] => ([], .error .truncated)
  | some '\\' :: u :: p =>
    match escaped? u with
    | some c =>
      let (rest, ending) := pieces p
      (.unit (some c) :: rest, ending)
    | none => ([], .error .malformed)
  | some c :: p =>
    if c < ' ' then
      ([], .error .malformed)
    else
      let (rest, ending) := pieces p
      (.unit (some c) :: rest, ending)
  | none :: p =>
    let (rest, ending) := pieces p
    (.unit none :: rest, ending)

/-! ### Strings -/

/-- The code opens a surrogate pair. -/
def isLeading (n : Nat) : Bool :=
  0xD800 ≤ n && n ≤ 0xDBFF

/-- The code closes a surrogate pair. -/
def isTrailing (n : Nat) : Bool :=
  0xDC00 ≤ n && n ≤ 0xDFFF

/-- The character of a surrogate pair. -/
def pairChar (lead trail : Nat) : Char :=
  Char.ofNat (0x10000 + (lead - 0xD800) * 0x400 + (trail - 0xDC00))

/-- The characters of a list of pieces. A surrogate code outside a pair is refused; a pair of which
only the first half has been cut is a gap, for it is the string that ends too early. -/
def resolve : List Piece → Option (List (Option Char))
  | [] => some []
  | .unit u :: rest => (resolve rest).map (u :: ·)
  | [.code n] =>
    if isTrailing n then none
    else if isLeading n then some [none]
    else some [some (Char.ofNat n)]
  | .code n :: .code m :: rest =>
    if isTrailing n then none
    else if isLeading n then
      if isTrailing m then (resolve rest).map (some (pairChar n m) :: ·) else none
    else (resolve (.code m :: rest)).map (some (Char.ofNat n) :: ·)
  | .code n :: .unit u :: rest =>
    if isTrailing n || isLeading n then none
    else (resolve rest).map fun us => some (Char.ofNat n) :: u :: us

/-- Reads a string, after its opening quote. -/
def readString (p : Payload) : Except Failure (String × Payload) :=
  let (parts, ending) := pieces p
  -- the codes come first: they are met before the end of the string
  match resolve parts with
  | none => .error .malformed
  | some units => do
    let rest ← ending
    if units.all Option.isSome then
      return (String.ofList (units.filterMap id), rest)
    else
      .error .malformed

/-- Skips a string, after its opening quote. -/
def skipString (p : Payload) : Except Failure Payload :=
  (pieces p).2

end TileWalk.Json
