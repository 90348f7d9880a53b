import TileWalk.Json.Lexical
import TileWalk.Number.Shortest

/-!
# Numbers of documents

A number without fraction and exponent is kept exactly as long as 64 bits hold it, unsigned or
signed. Every other number is a floating-point number of 64 bits: of the digits as many are kept as
64 bits hold, and the number they make is multiplied or divided once by a power of ten. It is
printed with the fewest digits that read back.
-/

namespace TileWalk.Json

/-- A number. -/
inductive Number
  | int (n : Int)
  /-- The number with the given bits. -/
  | real (bits : UInt64)
  deriving DecidableEq, Repr

namespace Number

/-! ### Reading -/

/-- Appends digits to a number as long as the result is below `2 ^ 64`: the result, and how many
digits were appended. -/
def absorb (n : Nat) : List Char → Nat × Nat
  | [] => (n, 0)
  | d :: ds =>
    let next := n * 10 + (d.toNat - '0'.toNat)
    if next < UInt64.size then
      let (m, count) := absorb next ds
      (m, count + 1)
    else
      (n, 0)

/-- The power of ten with a natural exponent. -/
def tenPower (n : Nat) : Float :=
  Float.ofScientific 1 false n

/-- `digits · 10 ^ exponent` in floating point, by one multiplication or division with a power up to
`10 ^ 308`, after a division by `10 ^ 308` where the exponent is smaller than that. Numbers that are
too large are refused, and numbers that are too small are zero. -/
def scaled (digits : Nat) (exponent : Int) : Except Failure Float :=
  let f := digits.toUInt64.toFloat
  if digits = 0 then
    .ok f
  else if 308 < exponent then
    .error .malformed
  else if 0 ≤ exponent then
    let r := f * tenPower exponent.toNat
    if r.isInf then .error .malformed else .ok r
  else if -308 ≤ exponent then
    .ok (f / tenPower (-exponent).toNat)
  else if -616 ≤ exponent then
    .ok (f / tenPower 308 / tenPower (-exponent - 308).toNat)
  else
    .ok 0

/-- A floating-point number with its sign. -/
def ofFloat (negative : Bool) (f : Float) : Number :=
  .real (if negative then -f else f).toBits

/-- The number without fraction and exponent: zero with a sign and what no word holds are floating
point. -/
def ofDigits (negative : Bool) (digits : Nat) : Number :=
  if negative then
    if digits = 0 ∨ -(digits : Int) < Int64.minValue.toInt then
      ofFloat true digits.toUInt64.toFloat
    else
      .int (-digits)
  else
    .int digits

/-- Reads the rest of a number after its mark of exponent; `digits · 10 ^ exponent` is what stands
before it. -/
def readExponent (negative : Bool) (digits : Nat) (exponent : Int) (p : Payload) :
    Except Failure (Number × Payload) :=
  let (down, p) :=
    match p with
    | some '+' :: p => (false, p)
    | some '-' :: p => (true, p)
    | p => (false, p)
  let (ds, rest) := takeDigits p
  if ds.isEmpty then
    .error (if p.isEmpty then .truncated else .malformed)
  else
    let e := Nat.ofDigitChars 10 ds 0
    if e ≤ Int32.maxValue.toInt then do
      let f ← scaled digits (if down then exponent - e else exponent + e)
      return (ofFloat negative f, rest)
    -- the exponent alone decides: the number is too small or too large
    else if digits = 0 ∨ down then
      .ok (ofFloat negative 0, rest)
    else
      .error .malformed

/-- Reads the rest of a number after its fraction, before which `digits · 10 ^ exponent` stands. -/
def readTail (negative : Bool) (digits : Nat) (exponent : Int) (p : Payload) :
    Except Failure (Number × Payload) :=
  match p with
  | some 'e' :: p => readExponent negative digits exponent p
  | some 'E' :: p => readExponent negative digits exponent p
  | p => do
    let f ← scaled digits exponent
    return (ofFloat negative f, p)

/-- Reads a number, after its sign. -/
def read (negative : Bool) (p : Payload) : Except Failure (Number × Payload) :=
  let (ds, rest) := takeDigits p
  match ds with
  | [] => .error (if p.isEmpty then .truncated else .malformed)
  -- a zero at the front stands alone
  | '0' :: _ :: _ => .error .malformed
  | ds =>
    let (digits, kept) := absorb 0 ds
    -- each digit that is not kept multiplies by ten, each kept one of the fraction divides by it
    let dropped : Int := ds.length - kept
    match rest with
    | some '.' :: p =>
      let (fs, rest) := takeDigits p
      if fs.isEmpty then
        .error (if p.isEmpty then .truncated else .malformed)
      else
        let (digits, kept) := absorb digits fs
        readTail negative digits (dropped - kept) rest
    | some 'e' :: p => readExponent negative digits dropped p
    | some 'E' :: p => readExponent negative digits dropped p
    | p =>
      if dropped = 0 then .ok (ofDigits negative digits, p) else readTail negative digits dropped p

/-! ### Skipping -/

/-- Skips the rest of a number after its mark of exponent. -/
def skipExponent (p : Payload) : Except Failure Payload :=
  let p :=
    match p with
    | some '+' :: p => p
    | some '-' :: p => p
    | p => p
  let (ds, rest) := takeDigits p
  if ds.isEmpty then .error .malformed else .ok rest

/-- Skips a number, after its sign. Unlike in reading, a number that is cut off is malformed. -/
def skip (p : Payload) : Except Failure Payload :=
  let (ds, rest) := takeDigits p
  match ds with
  | [] => .error .malformed
  | '0' :: _ :: _ => .error .malformed
  | _ =>
    match rest with
    | some '.' :: p =>
      let (fs, rest) := takeDigits p
      if fs.isEmpty then
        .error .malformed
      else
        match rest with
        | some 'e' :: p => skipExponent p
        | some 'E' :: p => skipExponent p
        | p => .ok p
    | some 'e' :: p => skipExponent p
    | some 'E' :: p => skipExponent p
    | p => .ok p

/-! ### Printing -/

/-- The text of a positive decimal: positional from `10 ^ -5` to below `10 ^ 16`, always with a
fraction, and else with one digit before the point and a signed exponent. -/
def decimalText (d : TileWalk.Number.Decimal) : List Char :=
  let digits := Nat.toDigits 10 d.digits
  let point : Int := digits.length + d.exponent
  if -5 < point ∧ point ≤ 16 then
    if point ≤ 0 then
      ['0', '.'] ++ List.replicate (-point).toNat '0' ++ digits
    else if digits.length ≤ point then
      digits ++ List.replicate d.exponent.toNat '0' ++ ['.', '0']
    else
      digits.take point.toNat ++ ['.'] ++ digits.drop point.toNat
  else
    let e := point - 1
    let fraction := if digits.length = 1 then [] else '.' :: digits.drop 1
    let sign := if e < 0 then '-' else '+'
    digits.take 1 ++ fraction ++ ['e', sign] ++ Nat.toDigits 10 e.natAbs

/-- The text of a number. -/
def text : Number → String
  | .int n => toString n
  | .real bits =>
    match TileWalk.Number.Binary.ofBits .double bits.toNat with
    | .nan | .infinite _ => "null"
    | .finite negative m q =>
      let magnitude :=
        if m = 0 then ['0', '.', '0'] else decimalText (TileWalk.Number.shortest .double m q)
      String.ofList ((if negative then ['-'] else []) ++ magnitude)

end Number

end TileWalk.Json
