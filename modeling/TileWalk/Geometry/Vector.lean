import TileWalk.Checked

/-!
# Positions and vectors

Cells are addressed by a column `x` and a row `y`, both signed and of 32 bits; a position may lie
outside every board. A vector is the difference of two positions. Adding a vector to a position and
turning a vector are the two operations, and both are checked: `Pos.add_eq_ok_iff` and
`Vec.turnLeft_eq_ok_iff` say what they give where they give anything.
-/

namespace TileWalk

/-- A step on the board. -/
@[ext]
structure Vec where
  x : Int32
  y : Int32
  deriving DecidableEq, Repr, Inhabited

/-- The place of a cell: column and row. -/
@[ext]
structure Pos where
  x : Int32
  y : Int32
  deriving DecidableEq, Repr, Inhabited

/-- The written form of a coordinate. -/
def coordText (c : Int32) : String :=
  toString c.toInt

/-! ### Vectors -/

/-- A quarter turn to the left: `(x, y)` becomes `(y, -x)`. -/
def Vec.turnLeft (v : Vec) : Except Fault Vec := do
  let y ← Checked.neg32 v.x
  return ⟨v.y, y⟩

theorem Vec.turnLeft_eq_ok_iff {v w : Vec} :
    v.turnLeft = .ok w ↔ w.x = v.y ∧ w.y.toInt = -v.x.toInt := by
  unfold Vec.turnLeft
  cases h : Checked.neg32 v.x with
  | error f =>
    have hn : ¬ w.y.toInt = -v.x.toInt := fun hw => by
      rw [Checked.neg32_eq_ok_iff.2 hw] at h
      cases h
    simp [bind, Except.bind, hn]
  | ok c =>
    have hc := Checked.neg32_eq_ok_iff.1 h
    simp only [bind, Except.bind, pure, Except.pure, Except.ok.injEq, Vec.ext_iff]
    rw [← hc, Int32.toInt_inj]
    exact ⟨fun ⟨a, b⟩ => ⟨a.symm, b.symm⟩, fun ⟨a, b⟩ => ⟨a.symm, b.symm⟩⟩

/-! ### Positions -/

/-- The position one vector further, column first. -/
def Pos.add (p : Pos) (v : Vec) : Except Fault Pos := do
  let x ← Checked.add32 p.x v.x
  let y ← Checked.add32 p.y v.y
  return ⟨x, y⟩

/-- The written form of a position, such as `(2, -1)`. -/
def Pos.text (p : Pos) : String :=
  "(" ++ coordText p.x ++ ", " ++ coordText p.y ++ ")"

theorem Pos.add_eq_ok_iff {p q : Pos} {v : Vec} :
    p.add v = .ok q ↔ q.x.toInt = p.x.toInt + v.x.toInt ∧ q.y.toInt = p.y.toInt + v.y.toInt := by
  unfold Pos.add
  rw [← Checked.add32_eq_ok_iff, ← Checked.add32_eq_ok_iff]
  cases hx : Checked.add32 p.x v.x <;> cases hy : Checked.add32 p.y v.y <;>
    simp [bind, Except.bind, pure, Except.pure, Pos.ext_iff]

end TileWalk
