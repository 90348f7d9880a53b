/-!
# Decimal numerals

Reading numbers from text. A numeral is canonical if it is what printing the number gives: no sign,
no padding, no leading zero (`canonical?_eq_some_iff`).
-/

namespace TileWalk.Text.Decimal

/-- The number that a run of digits stands for. -/
def value (digits : List Char) : Nat :=
  Nat.ofDigitChars 10 digits 0

/-- The number that a run of digits stands for, if there is a digit and the number is below
`bound`. -/
def below? (bound : Nat) (digits : List Char) : Option Nat :=
  if digits ≠ [] ∧ value digits < bound then some (value digits) else none

/-- The number below `bound` whose canonical numeral is the text. -/
def canonical? (bound : Nat) (s : String) : Option Nat :=
  if value s.toList < bound ∧ toString (value s.toList) = s then some (value s.toList) else none

@[simp]
theorem value_toString (n : Nat) : value (toString n).toList = n := by
  rw [value, Nat.toString_eq_repr, Nat.toList_repr]
  exact Nat.ofDigitChars_toDigits (by decide) (by decide)

theorem canonical?_eq_some_iff {bound n : Nat} {s : String} :
    canonical? bound s = some n ↔ n < bound ∧ s = toString n := by
  unfold canonical?
  constructor
  · intro h
    split at h
    · next hc =>
      obtain rfl := Option.some.inj h
      exact ⟨hc.1, hc.2.symm⟩
    · cases h
  · rintro ⟨hn, rfl⟩
    rw [value_toString, if_pos ⟨hn, rfl⟩]

end TileWalk.Text.Decimal
