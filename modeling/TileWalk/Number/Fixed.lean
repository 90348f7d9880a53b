import TileWalk.Number.Binary

/-!
# Numbers with a fixed count of places

A finite floating-point number is printed with a given count of places after the point: its exact
value is rounded to the nearest such decimal, and a value halfway between two goes to the even one.
The sign is kept even where nothing but zeros is left. The main statement about rounding is
`roundDiv_bounds`: the rounded quotient is within half a unit of the quotient.
-/

namespace TileWalk.Number

/-- The quotient rounded to the nearest whole number, halves to the even one. -/
def roundDiv (num den : Nat) : Nat :=
  let q := num / den
  let r := num % den
  if den < 2 * r ∨ 2 * r = den ∧ q % 2 = 1 then q + 1 else q

theorem roundDiv_bounds (num : Nat) {den : Nat} (h : 0 < den) :
    2 * num ≤ (2 * roundDiv num den + 1) * den ∧ 2 * roundDiv num den * den ≤ 2 * num + den := by
  have hd : den * (num / den) + num % den = num := Nat.div_add_mod num den
  have hr : num % den < den := Nat.mod_lt num h
  simp only [roundDiv]
  generalize num / den = q at *
  generalize num % den = r at *
  have hq : 2 * q * den = 2 * (den * q) := by rw [Nat.mul_assoc, Nat.mul_comm q den]
  split
  · rw [Nat.add_mul, Nat.mul_add, Nat.add_mul, hq]
    omega
  · rw [Nat.add_mul, hq]
    omega

/-- A whole number as decimal digits, at least `width` of them. -/
def paddedDigits (width n : Nat) : List Char :=
  let digits := Nat.toDigits 10 n
  List.replicate (width - digits.length) '0' ++ digits

/-- The text of a number with `places` places after the point, and no point if there are none. -/
def fixedText (places : Nat) : Binary → String
  | .nan => "NaN"
  | .infinite negative => if negative then "-inf" else "inf"
  | .finite negative m q =>
    let (num, den) := powerRatio 2 q
    let unit := Nat.pow 10 places
    let scaled := roundDiv (m * num * unit) den
    let whole := Nat.toDigits 10 (scaled / unit)
    let rest := if places = 0 then [] else '.' :: paddedDigits places (scaled % unit)
    String.ofList ((if negative then ['-'] else []) ++ whole ++ rest)

end TileWalk.Number
