import Mathlib.Tactic.IntervalCases
import Mathlib.Tactic.SplitIfs
import TileWalk.Text.Decimal

/-!
# Decimal numerals

Every number has one numeral: digits alone, at least one of them, and no zero in front of others
(`Text.Decimal.IsNumeral`). Printing a number gives its numeral, and no other text is a numeral of
it (`Text.Decimal.isNumeral_iff`).

A machine reads more texts than it prints, for it lets a plus sign and zeros in front pass. What it
prints again is the text that it has read only if the text is a numeral
(`Text.Decimal.canonical?_eq_filter`).
-/

namespace TileWalk.Text.Decimal

/-! ### Numerals -/

/-- The text is how a number is written: without a sign, without padding and without zeros in
front. -/
structure IsNumeral (digits : List Char) (n : Nat) : Prop where
  ne_nil : digits ≠ []
  isDigit : ∀ c ∈ digits, c.isDigit = true
  head_ne : 1 < digits.length → digits.head? ≠ some '0'
  value_eq : value digits = n

theorem lt_and_digitChar_of_isDigit {c : Char} (h : c.isDigit = true) :
    c.toNat - '0'.toNat < 10 ∧ (c.toNat - '0'.toNat).digitChar = c := by
  obtain ⟨hlow, hhigh⟩ := Char.isDigit_iff_toNat.mp h
  change 48 ≤ c.toNat at hlow
  change c.toNat ≤ 57 at hhigh
  change c.toNat - 48 < 10 ∧ (c.toNat - 48).digitChar = c
  refine ⟨by omega, ?_⟩
  rw [← Char.toNat_inj]
  interval_cases c.toNat <;> rfl

/-- Digits behind a numeral that is not zero make the numeral longer. -/
theorem toDigits_append {n : Nat} (hn : 0 < n) {digits : List Char}
    (h : ∀ c ∈ digits, c.isDigit = true) :
    Nat.toDigits 10 n ++ digits = Nat.toDigits 10 (Nat.ofDigitChars 10 digits n) := by
  induction digits generalizing n with
  | nil => rw [List.append_nil, Nat.ofDigitChars_nil]
  | cons c digits ih =>
    obtain ⟨hlt, hchar⟩ := lt_and_digitChar_of_isDigit (h c List.mem_cons_self)
    have hstep := Nat.toDigits_append_toDigits (by decide : 1 < 10) hn hlt
    rw [Nat.toDigits_of_lt_base hlt, hchar] at hstep
    rw [Nat.ofDigitChars_cons, List.append_cons, hstep]
    exact ih (by omega) fun d hd => h d (List.mem_cons_of_mem _ hd)

theorem head?_toDigits_ne {n : Nat} (h : 0 < n) : (Nat.toDigits 10 n).head? ≠ some '0' := by
  induction n using Nat.strong_induction_on with
  | _ n ih =>
    rw [Nat.toDigits_eq_if (by decide)]
    split
    · rw [List.head?_cons, ne_eq, Option.some_inj, Nat.digitChar_eq_zero]
      omega
    -- what comes in front of the last digit is the numeral of a smaller number
    · rw [List.head?_append, List.head?_eq_some_head Nat.toDigits_ne_nil, Option.some_or,
        ← List.head?_eq_some_head]
      exact ih (n / 10) (by omega) (by omega)

theorem isNumeral_toDigits (n : Nat) : IsNumeral (Nat.toDigits 10 n) n where
  ne_nil := Nat.toDigits_ne_nil
  isDigit _ := Nat.isDigit_of_mem_toDigits (by decide) (by decide)
  head_ne hlength := by
    apply head?_toDigits_ne
    by_contra hzero
    obtain rfl : n = 0 := by omega
    rw [Nat.toDigits_zero] at hlength
    exact absurd hlength (by decide)
  value_eq := Nat.ofDigitChars_ten_toDigits

/-- A numeral is what printing its number gives. -/
theorem IsNumeral.eq_toDigits {digits : List Char} {n : Nat} (h : IsNumeral digits n) :
    digits = Nat.toDigits 10 n := by
  obtain ⟨hne, hdigits, hhead, rfl⟩ := h
  cases digits with
  | nil => exact absurd rfl hne
  | cons c rest =>
    obtain ⟨hlt, hchar⟩ := lt_and_digitChar_of_isDigit (hdigits c List.mem_cons_self)
    have hfirst := Nat.toDigits_of_lt_base hlt
    rw [hchar] at hfirst
    rw [value, Nat.ofDigitChars_cons, Nat.mul_zero, Nat.zero_add]
    cases rest with
    | nil => rw [Nat.ofDigitChars_nil, hfirst]
    | cons d rest =>
      -- the first digit stands in front of others, so it is not zero
      have hc : c ≠ '0' := fun hc => hhead (by simp) (congrArg some hc)
      have hpos : 0 < c.toNat - '0'.toNat := by
        rw [Nat.pos_iff_ne_zero]
        intro hzero
        rw [hzero] at hchar
        exact hc hchar.symm
      rw [← toDigits_append hpos fun d hd => hdigits d (List.mem_cons_of_mem _ hd), hfirst,
        List.singleton_append]

/-- Printing a number gives its only numeral. -/
theorem isNumeral_iff {s : String} {n : Nat} : IsNumeral s.toList n ↔ s = toString n := by
  rw [← String.toList_inj, Nat.toString_eq_repr, Nat.toList_repr]
  constructor
  · exact IsNumeral.eq_toDigits
  · intro h
    rw [h]
    exact isNumeral_toDigits n

/-! ### Reading -/

/-- What follows a plus sign. -/
def afterPlus : List Char → List Char
  | '+' :: rest => rest
  | s => s

/-- Reads a number below `bound` as machines do: one plus sign and zeros in front may pass. -/
def lenient? (bound : Nat) (s : List Char) : Option Nat :=
  if (afterPlus s).all Char.isDigit then below? bound (afterPlus s) else none

/-- Digits alone are read as they stand. -/
theorem lenient?_of_isDigit {digits : List Char} (h : ∀ c ∈ digits, c.isDigit = true)
    (bound : Nat) : lenient? bound digits = below? bound digits := by
  have hplus : afterPlus digits = digits := by
    unfold afterPlus
    split
    · next rest => exact absurd (h '+' List.mem_cons_self) (by decide)
    · rfl
  rw [lenient?, hplus, if_pos (List.all_eq_true.mpr h)]

theorem lenient?_of_isNumeral {bound n : Nat} {digits : List Char} (h : IsNumeral digits n)
    (hn : n < bound) : lenient? bound digits = some n := by
  rw [lenient?_of_isDigit h.isDigit, below?, h.value_eq, if_pos ⟨h.ne_nil, hn⟩]

theorem lt_of_lenient? {bound n : Nat} {s : List Char} (h : lenient? bound s = some n) :
    n < bound := by
  unfold lenient? below? at h
  split_ifs at h with _ hbelow
  obtain rfl := Option.some.inj h
  exact hbelow.2

/-- The numeral of a number below `bound` is a text that is printed again as it was read. -/
theorem canonical?_eq_filter (bound : Nat) (s : String) :
    canonical? bound s = (lenient? bound s.toList).filter fun n => toString n = s := by
  apply Option.ext
  intro n
  rw [canonical?_eq_some_iff, Option.filter_eq_some_iff, decide_eq_true_iff]
  constructor
  · rintro ⟨hn, hs⟩
    exact ⟨lenient?_of_isNumeral (isNumeral_iff.mpr hs) hn, hs.symm⟩
  · rintro ⟨hread, hs⟩
    exact ⟨lt_of_lenient? hread, hs.symm⟩

end TileWalk.Text.Decimal
