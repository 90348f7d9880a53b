/-!
# Binary floating point, taken apart

The bits of a floating-point number say whether it is a number at all and, if it is finite, which
multiple of which power of two it is. Everything that prints such a number starts from there and
goes on in whole numbers.
-/

namespace TileWalk.Number

/-- How many bits of a word hold the fraction and how many the exponent. -/
structure BinaryFormat where
  fractionBits : Nat
  exponentBits : Nat
  deriving DecidableEq, Repr

namespace BinaryFormat

/-- The format of 32 bits. -/
def single : BinaryFormat :=
  ⟨23, 8⟩

/-- The format of 64 bits. -/
def double : BinaryFormat :=
  ⟨52, 11⟩

/-- How many fractions there are. -/
def fractions (f : BinaryFormat) : Nat :=
  Nat.pow 2 f.fractionBits

/-- How many exponents there are; the greatest is kept for what is not finite. -/
def exponents (f : BinaryFormat) : Nat :=
  Nat.pow 2 f.exponentBits

/-- The power of two of the last place of the smallest numbers. -/
def minExponent (f : BinaryFormat) : Int :=
  2 - (f.exponents / 2 : Nat) - f.fractionBits

end BinaryFormat

/-- What a floating-point word stands for. -/
inductive Binary
  | nan
  | infinite (negative : Bool)
  /-- The number `m · 2 ^ q`, with its sign. -/
  | finite (negative : Bool) (m : Nat) (q : Int)
  deriving DecidableEq, Repr

/-- What the bits of a word stand for. -/
def Binary.ofBits (f : BinaryFormat) (bits : Nat) : Binary :=
  let fraction := bits % f.fractions
  let exponent := bits / f.fractions % f.exponents
  let negative := bits / (f.fractions * f.exponents) % 2 = 1
  if exponent + 1 = f.exponents then
    if fraction = 0 then .infinite negative else .nan
  else if exponent = 0 then
    .finite negative fraction f.minExponent
  else
    .finite negative (f.fractions + fraction) (f.minExponent + exponent - 1)

/-- A power of an integer exponent as a numerator and a denominator. -/
def powerRatio (base : Nat) (e : Int) : Nat × Nat :=
  (Nat.pow base e.toNat, Nat.pow base (-e).toNat)

end TileWalk.Number
