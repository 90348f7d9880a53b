/-!
# Payloads

A payload is the text of a document as it arrives. It may come as bytes that are not all UTF-8, so
its entries are the characters that were recognised and, for every byte that belongs to none, a
gap. A gap is never a character of the grammar, and only a string that is skipped may contain one.
The main statement is `ofString_eq`: a text arrives without gaps.
-/

namespace TileWalk.Json

/-- The characters of a document in order, with `none` for each byte outside every character. -/
abbrev Payload := List (Option Char)

namespace Payload

/-- A text as a payload. -/
def ofString (s : String) : Payload :=
  s.toList.map some

/-- The low six bits of a byte that continues a character. -/
def tail? (b : UInt8) : Option Nat :=
  if 0x80 ≤ b ∧ b < 0xC0 then some (b.toNat - 0x80) else none

/-- The character with a code, if the code is at least `least` and is one of a character. -/
def charAbove? (least code : Nat) : Option Char :=
  if least ≤ code ∧ code.isValidChar then some (Char.ofNat code) else none

/-- The character that begins with the byte `a`, and how many of the following bytes belong to it.
Longer spellings than needed and the codes of surrogates are refused. -/
def char? (a : UInt8) (rest : List UInt8) : Option (Char × Nat) :=
  let a := a.toNat
  if a < 0x80 then
    some (Char.ofNat a, 0)
  else if a < 0xC0 then
    none
  else if a < 0xE0 then
    match rest with
    | b :: _ => do
      let b ← tail? b
      let c ← charAbove? 0x80 ((a - 0xC0) * 0x40 + b)
      return (c, 1)
    | _ => none
  else if a < 0xF0 then
    match rest with
    | b :: c :: _ => do
      let b ← tail? b
      let c ← tail? c
      let c ← charAbove? 0x800 ((a - 0xE0) * 0x1000 + b * 0x40 + c)
      return (c, 2)
    | _ => none
  else if a < 0xF8 then
    match rest with
    | b :: c :: d :: _ => do
      let b ← tail? b
      let c ← tail? c
      let d ← tail? d
      let c ← charAbove? 0x10000 ((a - 0xF0) * 0x40000 + b * 0x1000 + c * 0x40 + d)
      return (c, 3)
    | _ => none
  else
    none

/-- The characters of a list of bytes, of which the first `taken` belong to a character that is
already read. -/
def ofBytesFrom : Nat → List UInt8 → Payload
  | _, [] => []
  | taken + 1, _ :: rest => ofBytesFrom taken rest
  | 0, a :: rest =>
    match char? a rest with
    | some (c, more) => some c :: ofBytesFrom more rest
    | none => none :: ofBytesFrom 0 rest

/-- The characters of a list of bytes in UTF-8. -/
def ofBytes (bytes : List UInt8) : Payload :=
  ofBytesFrom 0 bytes

/-- How many bytes the entries take. -/
def byteLength : Payload → Nat
  | [] => 0
  | some c :: p => c.utf8Size + byteLength p
  | none :: p => 1 + byteLength p

theorem ofString_eq (s : String) : (ofString s).filterMap id = s.toList := by
  simp [ofString]

end Payload

end TileWalk.Json
