import TileWalk.Proofs.Program.Journey

/-!
# Looking around at the end of the coordinates

Looking around asks for the next position on all four sides, whichever way the agent faces. Where an
answer comes, a side is open only if the next cell on it can be walked on, so what nobody can reach
is never taken for open. At the end of the coordinates no answer comes: there the question itself
ends in a fault (`Openings.failsClosed_iff`).
-/

namespace TileWalk

/-- The second position is the next one on a side of an agent at the first one, in exact numbers. -/
def Pos.IsNext (p : Pos) (f : Facing) (side : Side) (next : Pos) : Prop :=
  next.x.toInt = p.x.toInt + (f.toward side).vector.x.toInt ∧
    next.y.toInt = p.y.toInt + (f.toward side).vector.y.toInt

/-- Looking around gives an answer, and in it every side is blocked on which no cell of the grid
comes next that can be walked on. -/
def Openings.FailsClosed (g : Grid) (p : Pos) (f : Facing) : Prop :=
  ∃ o, around g p f = .ok o ∧ ∀ side,
    (¬ ∃ next, p.IsNext f side next ∧ g.contains next = true ∧ g.isWalkable next = true) →
      o.get side = false

theorem Pos.isNext_iff {p next : Pos} {f : Facing} {side : Side} :
    p.IsNext f side next ↔ p.add (f.toward side).vector = .ok next :=
  add_eq_ok_iff.symm

namespace Openings

variable {g : Grid} {p : Pos} {f : Facing} {o : Openings}

theorem exists_next_of_around (ho : around g p f = .ok o) (side : Side) :
    ∃ next, p.add (f.toward side).vector = .ok next ∧ o.get side = g.isWalkable next := by
  obtain ⟨front, left, back, right, hfront, hleft, hback, hright, rfl⟩ := around_eq_ok_iff.mp ho
  cases side with
  | front => exact ⟨front, hfront, rfl⟩
  | left => exact ⟨left, hleft, rfl⟩
  | back => exact ⟨back, hback, rfl⟩
  | right => exact ⟨right, hright, rfl⟩

/-- Looking around fails closed from the positions that are not at the end of the coordinates, and
from no other ones. -/
theorem failsClosed_iff : FailsClosed g p f ↔ p.IsInner := by
  constructor
  · rintro ⟨o, ho, -⟩
    exact exists_around_iff.mp ⟨o, ho⟩
  · intro hp
    obtain ⟨o, ho⟩ := exists_around_iff.mpr hp
    refine ⟨o, ho, fun side hnone => ?_⟩
    obtain ⟨next, hadd, hget⟩ := exists_next_of_around ho side
    rw [hget, ← Bool.not_eq_true]
    intro hwalkable
    exact hnone ⟨next, Pos.isNext_iff.mpr hadd, Grid.contains_of_isWalkable hwalkable, hwalkable⟩

/-- From the last column the position in front has no column, and asking for it is a fault. -/
theorem exists_around_not_failsClosed :
    ∃ (rows : List (List UInt32)) (g : Grid) (p : Pos) (f : Facing), Grid.ofRows rows = .ok g ∧
      around g p f = .error .addOverflow ∧ ¬ FailsClosed g p f := by
  refine ⟨[[1]], _, ⟨Int32.maxValue, 0⟩, .southEast, rfl, rfl, ?_⟩
  rintro ⟨o, ho, -⟩
  cases ho

end Openings

end TileWalk
