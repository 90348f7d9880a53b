import TileWalk.Number.Binary

/-!
# The shortest decimal that reads back

Among the decimals that lie in the interval of reals which round to a given floating-point number,
the shortest are those with the fewest digits, and of these the nearest to the number is chosen. The
interval reaches half a unit in the last place to each side, less below a power of two, and contains
its ends exactly if the number is an even multiple.

For each count of digits only the two neighbours of the number on the decimal grid of that count
have to be looked at, for if any point of the grid lies in the interval, one of these does.
-/

namespace TileWalk.Number

/-- The positive decimal `digits · 10 ^ exponent`. -/
structure Decimal where
  digits : Nat
  exponent : Int
  deriving DecidableEq, Repr

/-- A positive number `m · 2 ^ q` with the interval of reals that round to it. All three are
multiples of `num / den`, a quarter of the last place. -/
structure RoundingInterval where
  value : Nat
  low : Nat
  high : Nat
  num : Nat
  den : Nat
  /-- The ends belong to the interval. -/
  closed : Bool

namespace RoundingInterval

/-- The interval of a positive number of a format. -/
def ofFinite (f : BinaryFormat) (m : Nat) (q : Int) : RoundingInterval :=
  let (num, den) := powerRatio 2 (q - 2)
  -- just below a power of two the numbers lie twice as dense
  let gap := if m = f.fractions ∧ f.minExponent < q then 1 else 2
  ⟨4 * m, 4 * m - gap, 4 * m + 2, num, den, m % 2 = 0⟩

/-- The exponent `e` with `10 ^ (e - 1) ≤ value < 10 ^ e`. -/
def decade (v : RoundingInterval) : Int :=
  let a := v.value * v.num
  let e : Int := (Nat.toDigits 10 a).length - (Nat.toDigits 10 v.den).length
  let (up, down) := powerRatio 10 e
  -- the lengths of the two numerals leave a doubt of one
  if up * v.den ≤ a * down then e + 1 else e

/-- The decimal lies in the interval. -/
def contains (v : RoundingInterval) (d : Decimal) : Bool :=
  let (up, down) := powerRatio 10 d.exponent
  let here := d.digits * up * v.den
  let low := v.low * v.num * down
  let high := v.high * v.num * down
  if v.closed then low ≤ here && here ≤ high else low < here && here < high

/-- The point of the interval on the grid of decimals with `count` digits that is nearest to the
number, if the grid has a point in the interval; of two equally near points it is the even one. -/
def onGrid? (v : RoundingInterval) (decade : Int) (count : Nat) : Option Decimal :=
  let exponent := decade - count
  let (up, down) := powerRatio 10 exponent
  let num := v.value * v.num * down
  let den := v.den * up
  let below : Decimal := ⟨num / den, exponent⟩
  let above : Decimal := ⟨num / den + 1, exponent⟩
  let rest := num % den
  -- `rest / den` is the distance from `below` in units of the last digit
  let first := 2 * rest < den || 2 * rest = den && below.digits % 2 = 0
  match v.contains below, v.contains above with
  | true, true => some (if first then below else above)
  | true, false => some below
  | false, true => some above
  | false, false => none

/-- The first hit on `grids` grids: of `count` digits, `count + 1` digits and so on. -/
def search (v : RoundingInterval) (decade : Int) : Nat → Nat → Option Decimal
  | 0, _ => none
  | grids + 1, count =>
    match v.onGrid? decade count with
    | some d => some d
    | none => search v decade grids (count + 1)

end RoundingInterval

/-- The decimal without zeros at its end; `n` zeros can be dropped at most. -/
def Decimal.trim : Nat → Decimal → Decimal
  | 0, d => d
  | n + 1, d =>
    if d.digits ≠ 0 ∧ d.digits % 10 = 0 then trim n ⟨d.digits / 10, d.exponent + 1⟩ else d

/-- The shortest decimal that reads back as the positive number `m · 2 ^ q` of a format. Seventeen
digits always suffice for 64 bits. -/
def shortest (f : BinaryFormat) (m : Nat) (q : Int) : Decimal :=
  let v := RoundingInterval.ofFinite f m q
  ((v.search v.decade 17 1).getD ⟨0, 0⟩).trim 17

end TileWalk.Number
