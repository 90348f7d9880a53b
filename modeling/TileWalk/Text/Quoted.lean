import TileWalk.Text.Shape

/-!
# Quotations

A text quoted for a message stands between double quotes, and every character in it can be seen: the
quote, the backslash and the common controls are written with a backslash, and whatever else has no
shape of its own is written by its number, as in `\u{200b}`.
-/

namespace TileWalk.Text.Quoted

/-- A character written by its number in base sixteen. -/
def byNumber (c : Char) : List Char :=
  ['\\', 'u', '\x7b'] ++ Nat.toDigits 16 c.toNat ++ ['\x7d']

/-- A character as it stands in a quotation. -/
def encodeChar (c : Char) : List Char :=
  if c = '\x00' then ['\\', '0']
  else if c = '\t' then ['\\', 't']
  else if c = '\r' then ['\\', 'r']
  else if c = '\n' then ['\\', 'n']
  else if c = '\"' then ['\\', '\"']
  else if c = '\\' then ['\\', '\\']
  else if isCombining c || isConcealed c then byNumber c
  else [c]

/-- The quotation of a text. -/
def text (s : String) : String :=
  String.ofList (['\"'] ++ s.toList.flatMap encodeChar ++ ['\"'])

end TileWalk.Text.Quoted
