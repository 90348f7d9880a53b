import Mathlib.Data.BitVec
import Mathlib.Data.Rat.Lemmas
import Mathlib.Algebra.Order.Field.Basic
import Mathlib.Tactic.FieldSimp
import Mathlib.Tactic.Linarith
import Mathlib.Tactic.Ring
import TileWalk.Number.Fixed

/-!
# Four places after the point

What a word of 32 bits stands for is told from its fields: a sign, eight bits of exponent and
twenty-three bits of fraction. A finite number is written with four places after the point. These
are the digits of the whole number that is nearest to its ten-thousandfold, which is taken exactly;
halfway between two whole numbers the even one is taken (`IsFourPlaces`). There is one such text for
every word, and it is what `fixedText` gives (`isFourPlaces_iff`).
-/

namespace TileWalk.Number

/-! ### Words of 32 bits -/

/-- The exponent as it stands in a word. -/
def exponentField (w : BitVec 32) : Nat :=
  (w.extractLsb 30 23).toNat

/-- The fraction as it stands in a word. -/
def fractionField (w : BitVec 32) : Nat :=
  (w.extractLsb 22 0).toNat

/-- The sign of a number in front of its text. -/
def signText (w : BitVec 32) : String :=
  if w.msb then "-" else ""

/-- The absolute value of a finite number. -/
def magnitude (w : BitVec 32) : ℚ :=
  if exponentField w = 0 then 2 ^ (-126 : ℤ) * (fractionField w / 2 ^ 23)
  else 2 ^ ((exponentField w : ℤ) - 127) * (1 + fractionField w / 2 ^ 23)

/-! ### The nearest whole number -/

/-- The whole number that is nearest to `x`; halfway between two of them it is the even one. -/
structure IsNearest (x : ℚ) (n : ℕ) : Prop where
  near : |x - n| ≤ 1 / 2
  even_of_half : |x - n| = 1 / 2 → Even n

theorem IsNearest.unique {x : ℚ} {m n : ℕ} (hm : IsNearest x m) (hn : IsNearest x n) : m = n := by
  wlog hlt : m < n generalizing m n
  · rcases Nat.lt_or_eq_of_le (Nat.not_lt.mp hlt) with hlt | heq
    · exact (this hn hm hlt).symm
    · exact heq.symm
  -- both are half a unit away, so they are neighbours and both even
  have hle : (m : ℚ) + 1 ≤ n := by exact_mod_cast hlt
  obtain ⟨-, hbelow⟩ := abs_le.mp hm.near
  obtain ⟨habove, -⟩ := abs_le.mp hn.near
  have hhalf : x - m = 1 / 2 := by linarith
  have hhalf' : x - n = -(1 / 2) := by linarith
  have hnext : (n : ℚ) = ((m + 1 : ℕ) : ℚ) := by
    push_cast
    linarith
  have hnext : n = m + 1 := by exact_mod_cast hnext
  have heven : Even m := hm.even_of_half (by rw [hhalf]; norm_num)
  have heven' : Even n := hn.even_of_half (by rw [hhalf']; norm_num)
  rw [hnext, Nat.even_add_one] at heven'
  exact absurd heven heven'

/-- The rounded quotient is even if the quotient lies halfway between two whole numbers. -/
theorem even_roundDiv_of_half (num : Nat) {den : Nat} (h : 0 < den)
    (hhalf : 2 * num = (2 * roundDiv num den + 1) * den ∨
      2 * num + den = 2 * roundDiv num den * den) : Even (roundDiv num den) := by
  have hd : den * (num / den) + num % den = num := Nat.div_add_mod num den
  have hr : num % den < den := Nat.mod_lt num h
  rw [Nat.even_iff]
  simp only [roundDiv] at hhalf ⊢
  generalize num / den = q at *
  generalize num % den = r at *
  have hq : 2 * q * den = 2 * (den * q) := by rw [Nat.mul_assoc, Nat.mul_comm q den]
  split_ifs at hhalf ⊢ with hup
  · rw [Nat.add_mul, Nat.mul_add, Nat.add_mul, hq] at hhalf
    omega
  · rw [Nat.add_mul, hq] at hhalf
    omega

theorem isNearest_roundDiv (num : Nat) {den : Nat} (h : 0 < den) :
    IsNearest (num / den) (roundDiv num den) := by
  have hpos : (0 : ℚ) < den := by exact_mod_cast h
  obtain ⟨habove, hbelow⟩ := roundDiv_bounds num h
  have heven := even_roundDiv_of_half num h
  generalize roundDiv num den = n at *
  have habove : 2 * (num : ℚ) ≤ (2 * n + 1) * den := by exact_mod_cast habove
  have hbelow : 2 * (n : ℚ) * den ≤ 2 * num + den := by exact_mod_cast hbelow
  -- the distance as a multiple of `1 / den`
  have hdist : (num / den - n : ℚ) * den = num - n * den := by field_simp
  constructor
  · rw [abs_le]
    constructor
    · rw [← mul_le_mul_iff_left₀ hpos, hdist]
      linarith
    · rw [← mul_le_mul_iff_left₀ hpos, hdist]
      linarith
  · intro hhalf
    apply heven
    rcases eq_or_eq_neg_of_abs_eq hhalf with hhalf | hhalf
    · left
      rw [hhalf] at hdist
      have heq : 2 * (num : ℚ) = (2 * n + 1) * den := by linarith
      exact_mod_cast heq
    · right
      rw [hhalf] at hdist
      have heq : 2 * (num : ℚ) + den = 2 * n * den := by linarith
      exact_mod_cast heq

/-! ### Four places -/

/-- So many ten-thousandths, with all their digits. -/
def placesText (n : ℕ) : String :=
  toString (n / 10 ^ 4) ++ "." ++ toString (n / 10 ^ 3 % 10) ++ toString (n / 10 ^ 2 % 10) ++
    toString (n / 10 % 10) ++ toString (n % 10)

/-- The text of the number that a word stands for, with four places after the point. -/
inductive IsFourPlaces (w : BitVec 32) : String → Prop
  | nan (hexponent : exponentField w = 255) (hfraction : fractionField w ≠ 0) :
    IsFourPlaces w "NaN"
  | infinite (hexponent : exponentField w = 255) (hfraction : fractionField w = 0) :
    IsFourPlaces w (signText w ++ "inf")
  | finite {n : ℕ} (hexponent : exponentField w < 255) (hn : IsNearest (magnitude w * 10 ^ 4) n) :
    IsFourPlaces w (signText w ++ placesText n)

theorem IsFourPlaces.unique {w : BitVec 32} {s t : String} (hs : IsFourPlaces w s)
    (ht : IsFourPlaces w t) : s = t := by
  cases hs with
  | nan hexponent hfraction =>
    cases ht with
    | nan => rfl
    | infinite _ hzero => exact absurd hzero hfraction
    | finite hlt => omega
  | infinite hexponent hfraction =>
    cases ht with
    | nan _ hne => exact absurd hfraction hne
    | infinite => rfl
    | finite hlt => omega
  | finite hlt hn =>
    cases ht with
    | nan hexponent => omega
    | infinite hexponent => omega
    | finite _ hn' => rw [hn.unique hn']

/-! ### What is written -/

theorem paddedDigits_of_lt {n : Nat} (h : n < 10) : paddedDigits 1 n = [n.digitChar] := by
  rw [paddedDigits, Nat.toDigits_of_lt_base h]
  rfl

theorem paddedDigits_add_one {width : Nat} (hwidth : 0 < width) (n : Nat) :
    paddedDigits (width + 1) n = paddedDigits width (n / 10) ++ [(n % 10).digitChar] := by
  unfold paddedDigits
  rcases Nat.lt_or_ge n 10 with hn | hn
  · rw [Nat.toDigits_of_lt_base hn, Nat.div_eq_of_lt hn, Nat.mod_eq_of_lt hn, Nat.toDigits_zero]
    obtain ⟨width, rfl⟩ := Nat.exists_eq_add_one.mpr hwidth
    simp [List.replicate_succ']
  · rw [Nat.toDigits_of_base_le (by decide) hn]
    simp

/-- The last four digits of a number, zeros in front included. -/
theorem paddedDigits_four (n : Nat) :
    paddedDigits 4 (n % 10 ^ 4) =
      [(n / 10 ^ 3 % 10).digitChar, (n / 10 ^ 2 % 10).digitChar, (n / 10 % 10).digitChar,
        (n % 10).digitChar] := by
  have hthird : n % 10 ^ 4 / 10 / 10 / 10 = n / 10 ^ 3 % 10 := by omega
  have hsecond : n % 10 ^ 4 / 10 / 10 % 10 = n / 10 ^ 2 % 10 := by omega
  have hfirst : n % 10 ^ 4 / 10 % 10 = n / 10 % 10 := by omega
  have hlast : n % 10 ^ 4 % 10 = n % 10 := by omega
  rw [paddedDigits_add_one (by decide), paddedDigits_add_one (by decide),
    paddedDigits_add_one (by decide), hthird, hsecond, hfirst, hlast,
    paddedDigits_of_lt (Nat.mod_lt _ (by decide))]
  rfl

theorem toList_toString_mod (n : Nat) : (toString (n % 10)).toList = [(n % 10).digitChar] := by
  rw [Nat.toString_eq_repr, Nat.toList_repr, Nat.toDigits_of_lt_base (Nat.mod_lt _ (by decide))]

theorem powerRatio_two (q : ℤ) :
    ((powerRatio 2 q).1 : ℚ) / (powerRatio 2 q).2 = 2 ^ q ∧ 0 < (powerRatio 2 q).2 := by
  refine ⟨?_, Nat.pow_pos (by decide)⟩
  obtain ⟨k, rfl | rfl⟩ := q.eq_nat_or_neg <;> simp [powerRatio]

/-- A number is written with the digits of its rounded ten-thousandfold. -/
theorem exists_fixedText (negative : Bool) (m : Nat) (q : ℤ) :
    ∃ n, IsNearest (m * 2 ^ q * 10 ^ 4) n ∧
      fixedText 4 (.finite negative m q) = (if negative then "-" else "") ++ placesText n := by
  obtain ⟨hratio, hden⟩ := powerRatio_two q
  refine ⟨roundDiv (m * (powerRatio 2 q).1 * 10 ^ 4) (powerRatio 2 q).2, ?_, ?_⟩
  · have hvalue : (m * 2 ^ q * 10 ^ 4 : ℚ) =
        ((m * (powerRatio 2 q).1 * 10 ^ 4 : ℕ) : ℚ) / (powerRatio 2 q).2 := by
      rw [← hratio]
      push_cast
      ring
    rw [hvalue]
    exact isNearest_roundDiv _ hden
  · have hunit : Nat.pow 10 4 = 10 ^ 4 := rfl
    simp only [fixedText, hunit]
    generalize roundDiv (m * (powerRatio 2 q).1 * 10 ^ 4) (powerRatio 2 q).2 = n
    rw [← String.toList_inj, placesText]
    simp only [String.toList_append, toList_toString_mod, String.toList_ofList, paddedDigits_four]
    rw [Nat.toString_eq_repr, Nat.toList_repr]
    cases negative <;> simp

/-! ### Words and their fields -/

theorem exponentField_eq (w : BitVec 32) : exponentField w = w.toNat / 2 ^ 23 % 2 ^ 8 := by
  rw [exponentField, BitVec.extractLsb_toNat, Nat.shiftRight_eq_div_pow]

theorem fractionField_eq (w : BitVec 32) : fractionField w = w.toNat % 2 ^ 23 := by
  rw [fractionField, BitVec.extractLsb_toNat, Nat.shiftRight_zero]

theorem msb_eq (w : BitVec 32) : w.msb = decide (w.toNat / (2 ^ 23 * 2 ^ 8) % 2 = 1) := by
  rw [BitVec.msb_eq_decide, decide_eq_decide]
  have hlt := w.isLt
  omega

theorem magnitude_of_eq_zero {w : BitVec 32} (h : exponentField w = 0) :
    magnitude w = fractionField w * 2 ^ (-149 : ℤ) := by
  rw [magnitude, if_pos h]
  norm_num
  ring

theorem magnitude_of_ne_zero {w : BitVec 32} (h : exponentField w ≠ 0) :
    magnitude w = (2 ^ 23 + fractionField w : ℕ) * 2 ^ (-149 + (exponentField w : ℤ) - 1) := by
  have hexponent : -149 + (exponentField w : ℤ) - 1 = (exponentField w : ℤ) - 127 - 23 := by ring
  rw [magnitude, if_neg h, hexponent, zpow_sub₀ two_ne_zero ((exponentField w : ℤ) - 127) 23]
  push_cast
  field_simp
  norm_num
  ring

/-- The text with four places after the point is what is written. -/
theorem isFourPlaces_fixedText (w : BitVec 32) :
    IsFourPlaces w (fixedText 4 (.ofBits .single w.toNat)) := by
  have hsign : signText w =
      if decide (w.toNat / (2 ^ 23 * 2 ^ 8) % 2 = 1) then "-" else "" := by rw [signText, msb_eq]
  have hfractions : BinaryFormat.single.fractions = 2 ^ 23 := rfl
  have hexponents : BinaryFormat.single.exponents = 2 ^ 8 := rfl
  have hmin : BinaryFormat.single.minExponent = -149 := rfl
  have hlt : exponentField w < 256 := by
    rw [exponentField_eq]
    exact Nat.mod_lt _ (by decide)
  simp only [Binary.ofBits, hfractions, hexponents, hmin, ← exponentField_eq, ← fractionField_eq]
  generalize decide (w.toNat / (2 ^ 23 * 2 ^ 8) % 2 = 1) = negative at *
  split_ifs with hlast hfraction hzero
  · have htext : fixedText 4 (.infinite negative) = signText w ++ "inf" := by
      rw [hsign]
      cases negative <;> rfl
    rw [htext]
    exact .infinite (by omega) hfraction
  · exact .nan (by omega) hfraction
  · obtain ⟨n, hn, htext⟩ := exists_fixedText negative (fractionField w) (-149)
    rw [← magnitude_of_eq_zero hzero] at hn
    rw [htext, ← hsign]
    exact .finite (by omega) hn
  · obtain ⟨n, hn, htext⟩ :=
      exists_fixedText negative (2 ^ 23 + fractionField w) (-149 + exponentField w - 1)
    rw [← magnitude_of_ne_zero hzero] at hn
    rw [htext, ← hsign]
    exact .finite (by omega) hn

/-- A word has one text with four places after the point, which is what is written. -/
theorem isFourPlaces_iff {w : BitVec 32} {s : String} :
    IsFourPlaces w s ↔ s = fixedText 4 (.ofBits .single w.toNat) := by
  constructor
  · intro h
    exact h.unique (isFourPlaces_fixedText w)
  · rintro rfl
    exact isFourPlaces_fixedText w

-- a thirty-second lies halfway between two ten-thousandths
example : fixedText 4 (.ofBits .single 0xBD000000) = "-0.0312" := by
  decide

end TileWalk.Number
