import TileWalk.Fault

/-!
# Checked arithmetic

Sums, differences and opposites of machine words that stop with a fault where the exact result does
not fit. Each operation has one statement about exact numbers (`add32_eq_ok_iff`,
`sub32_eq_ok_iff`, `add64_eq_ok_iff`, `sub64_eq_ok_iff`, `neg32_eq_ok_iff`), and after it nobody
needs to look at the words.
-/

namespace TileWalk.Checked

/-! ### Coordinates -/

/-- The sum of two coordinates. -/
def add32 (a b : Int32) : Except Fault Int32 :=
  if Int32.minValue.toInt ≤ a.toInt + b.toInt ∧ a.toInt + b.toInt ≤ Int32.maxValue.toInt then
    .ok (a + b)
  else
    .error .addOverflow

/-- The opposite of a coordinate; only the least one has none. -/
def neg32 (a : Int32) : Except Fault Int32 :=
  if a = Int32.minValue then .error .negOverflow else .ok (-a)

theorem add32_eq_ok_iff {a b c : Int32} : add32 a b = .ok c ↔ c.toInt = a.toInt + b.toInt := by
  have hlow := c.minValue_le_toInt
  have hhigh := c.toInt_le
  unfold add32
  split
  · next h =>
    have hsum : (a + b).toInt = a.toInt + b.toInt := by
      rw [Int32.toInt_add]
      exact Int.bmod_eq_of_le h.1 (Int.lt_add_one_of_le h.2)
    constructor
    · intro he
      rw [← Except.ok.inj he, hsum]
    · intro he
      exact congrArg Except.ok (Int32.toInt_inj.1 (hsum.trans he.symm))
  · next h =>
    constructor
    · intro he
      cases he
    · intro he
      exact absurd (he ▸ ⟨hlow, hhigh⟩) h

theorem neg32_eq_ok_iff {a c : Int32} : neg32 a = .ok c ↔ c.toInt = -a.toInt := by
  have hhigh := c.toInt_le
  unfold neg32
  split
  · next h =>
    subst h
    constructor
    · intro he
      cases he
    · intro he
      rw [he] at hhigh
      exact absurd hhigh (by decide)
  · next h =>
    have hneg : (-a).toInt = -a.toInt := by
      have hne : a.toInt ≠ Int32.minValue.toInt := fun he => h (Int32.toInt_inj.1 he)
      have hlow := a.minValue_le_toInt
      have hhigh := a.toInt_le
      rw [Int32.toInt_minValue] at hne hlow
      rw [Int32.toInt_maxValue] at hhigh
      rw [Int32.toInt_neg]
      exact Int.bmod_eq_of_le (by omega) (by omega)
    constructor
    · intro he
      rw [← Except.ok.inj he, hneg]
    · intro he
      exact congrArg Except.ok (Int32.toInt_inj.1 (hneg.trans he.symm))

/-! ### Counters -/

/-- The difference of two counters of 32 bits. -/
def sub32 (a b : UInt32) : Except Fault UInt32 :=
  if b ≤ a then .ok (a - b) else .error .subOverflow

/-- The sum of two counters of 64 bits. -/
def add64 (a b : UInt64) : Except Fault UInt64 :=
  if a.toNat + b.toNat < UInt64.size then .ok (a + b) else .error .addOverflow

/-- The difference of two counters of 64 bits. -/
def sub64 (a b : UInt64) : Except Fault UInt64 :=
  if b ≤ a then .ok (a - b) else .error .subOverflow

/-- The difference of two sizes. -/
def subSize (a b : Nat) : Except Fault Nat :=
  if b ≤ a then .ok (a - b) else .error .subOverflow

theorem sub32_eq_ok_iff {a b c : UInt32} : sub32 a b = .ok c ↔ c.toNat + b.toNat = a.toNat := by
  unfold sub32
  split
  · next h =>
    have h3 := UInt32.toNat_sub_of_le a b h
    have h4 := UInt32.le_iff_toNat_le.1 h
    constructor
    · intro he
      rw [← Except.ok.inj he, h3]
      omega
    · intro he
      refine congrArg Except.ok (UInt32.toNat_inj.1 ?_)
      omega
  · next h =>
    rw [UInt32.le_iff_toNat_le] at h
    constructor
    · intro he
      cases he
    · intro he
      omega

theorem add64_eq_ok_iff {a b c : UInt64} : add64 a b = .ok c ↔ c.toNat = a.toNat + b.toNat := by
  have hc := c.toNat_lt_size
  unfold add64
  split
  · next h =>
    have h3 : (a + b).toNat = a.toNat + b.toNat := by
      rw [UInt64.toNat_add, Nat.mod_eq_of_lt h]
    constructor
    · intro he
      rw [← Except.ok.inj he, h3]
    · intro he
      exact congrArg Except.ok (UInt64.toNat_inj.1 (by omega))
  · next h =>
    constructor
    · intro he
      cases he
    · intro he
      exact absurd (he ▸ hc) h

theorem sub64_eq_ok_iff {a b c : UInt64} : sub64 a b = .ok c ↔ c.toNat + b.toNat = a.toNat := by
  unfold sub64
  split
  · next h =>
    have h3 := UInt64.toNat_sub_of_le a b h
    have h4 := UInt64.le_iff_toNat_le.1 h
    constructor
    · intro he
      rw [← Except.ok.inj he, h3]
      omega
    · intro he
      refine congrArg Except.ok (UInt64.toNat_inj.1 ?_)
      omega
  · next h =>
    rw [UInt64.le_iff_toNat_le] at h
    constructor
    · intro he
      cases he
    · intro he
      omega

theorem subSize_eq_ok_iff {a b c : Nat} : subSize a b = .ok c ↔ c + b = a := by
  unfold subSize
  split
  · next h =>
    constructor
    · intro he
      rw [← Except.ok.inj he]
      omega
    · intro he
      exact congrArg Except.ok (by omega)
  · next h =>
    constructor
    · intro he
      cases he
    · intro he
      omega

end TileWalk.Checked
