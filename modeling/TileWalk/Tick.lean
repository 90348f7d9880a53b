import TileWalk.Checked

/-!
# Ticks

Time is counted in ticks, the frames of a display. A tick is a counter of 64 bits that only moves
forward; passing its end is a fault.
-/

namespace TileWalk

/-- A moment, counted in ticks from the beginning. -/
@[ext]
structure Tick where
  count : UInt64
  deriving DecidableEq, Repr, Inhabited

namespace Tick

/-- The first tick. -/
def zero : Tick :=
  ⟨0⟩

/-- The tick `n` ticks later. -/
def later (t : Tick) (n : UInt64) : Except Fault Tick := do
  let c ← Checked.add64 t.count n
  return ⟨c⟩

/-- The following tick. -/
def next (t : Tick) : Except Fault Tick :=
  t.later 1

/-- How many ticks have passed since an earlier tick. -/
def since (t u : Tick) : Except Fault UInt64 :=
  Checked.sub64 t.count u.count

/-- The earlier tick is the smaller one. -/
def order (t u : Tick) : Ordering :=
  compare t.count.toNat u.count.toNat

/-- The written form, such as `T17`. -/
def text (t : Tick) : String :=
  "T" ++ toString t.count.toNat

theorem later_eq_ok_iff {t u : Tick} {n : UInt64} :
    t.later n = .ok u ↔ u.count.toNat = t.count.toNat + n.toNat := by
  unfold later
  rw [← Checked.add64_eq_ok_iff]
  cases h : Checked.add64 t.count n <;>
    simp [bind, Except.bind, pure, Except.pure, Tick.ext_iff]

theorem next_eq_ok_iff {t u : Tick} : t.next = .ok u ↔ u.count.toNat = t.count.toNat + 1 :=
  later_eq_ok_iff

end Tick

end TileWalk
