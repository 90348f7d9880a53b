import Mathlib.Algebra.Group.Nat.Defs
import TileWalk.Board.Openings
import TileWalk.Proofs.Outcome

/-!
# Neighbours of a position

The next positions on all sides of an agent exist together, for the positions that are not at the
end of the coordinates (`Pos.isInner_iff`), and looking around succeeds from there and from nowhere
else (`Openings.exists_around_iff`). All positions of a grid are such positions if its width and
height fit into the coordinates (`Grid.isInner_of_contains`). What is seen on a side is whether the
next position there can be walked on (`Openings.around_eq_ok_iff`), so two grids that agree on that
look the same (`Openings.around_congr`).
-/

namespace TileWalk

open Outcome

/-! ### Vectors of facings -/

namespace Facing

/-- A facing points to one of the four neighbours. -/
theorem vector_toInt (f : Facing) :
    -1 ≤ f.vector.x.toInt ∧ f.vector.x.toInt ≤ 1 ∧ -1 ≤ f.vector.y.toInt ∧ f.vector.y.toInt ≤ 1 := by
  cases f <;> decide

/-- Every facing is one of the four turns of another one. -/
theorem eq_turn (f f' : Facing) : f' = f ∨ f' = f.left ∨ f' = f.back ∨ f' = f.right := by
  cases f <;> cases f' <;> decide

end Facing

/-! ### Positions with neighbours -/

/-- Both coordinates lie strictly between the least and the greatest one. -/
structure Pos.IsInner (p : Pos) : Prop where
  column_gt : Int32.minValue.toInt < p.x.toInt
  column_lt : p.x.toInt < Int32.maxValue.toInt
  row_gt : Int32.minValue.toInt < p.y.toInt
  row_lt : p.y.toInt < Int32.maxValue.toInt

/-- All four neighbours of a position have coordinates exactly if it is not at the end of them. -/
theorem Pos.isInner_iff {p : Pos} : p.IsInner ↔ ∀ f : Facing, ∃ q, p.add f.vector = .ok q := by
  have hmin : Int32.minValue.toInt = -2 ^ 31 := rfl
  have hmax : Int32.maxValue.toInt = 2 ^ 31 - 1 := rfl
  constructor
  · rintro ⟨hx, hx', hy, hy'⟩ f
    obtain ⟨h1, h2, h3, h4⟩ := f.vector_toInt
    refine ⟨⟨Int32.ofInt (p.x.toInt + f.vector.x.toInt), Int32.ofInt (p.y.toInt + f.vector.y.toInt)⟩,
      add_eq_ok_iff.mpr ⟨?_, ?_⟩⟩
    · exact Int32.toInt_ofInt_of_le (by omega) (by omega)
    · exact Int32.toInt_ofInt_of_le (by omega) (by omega)
  · intro h
    -- each facing keeps one coordinate away from one end
    obtain ⟨east, heast⟩ := h .southEast
    obtain ⟨north, hnorth⟩ := h .northEast
    obtain ⟨west, hwest⟩ := h .northWest
    obtain ⟨south, hsouth⟩ := h .southWest
    have hx := (add_eq_ok_iff.mp heast).1
    have hy := (add_eq_ok_iff.mp hnorth).2
    have hx' := (add_eq_ok_iff.mp hwest).1
    have hy' := (add_eq_ok_iff.mp hsouth).2
    have hone : (1 : Int32).toInt = 1 := rfl
    have hminus : (-1 : Int32).toInt = -1 := rfl
    simp only [Facing.vector, hone, hminus] at hx hy hx' hy'
    have heastx := east.x.toInt_lt
    have hsouthy := south.y.toInt_lt
    have hwestx := west.x.le_toInt
    have hnorthy := north.y.le_toInt
    constructor <;> omega

/-! ### Positions of a grid -/

namespace Grid

variable {g : Grid} {p : Pos}

/-- Every neighbour of a position of the grid has coordinates. -/
def IsSmall (g : Grid) : Prop :=
  g.width < 2 ^ 31 ∧ g.height < 2 ^ 31

theorem contains_iff : g.contains p = true ↔
    0 ≤ p.x.toInt ∧ 0 ≤ p.y.toInt ∧ p.x.toInt < g.width ∧ p.y.toInt < g.height := by
  unfold contains offset?
  dsimp only
  split_ifs with h
  · simp [h]
  · simp only [Option.isSome_none, Bool.false_eq_true, false_iff]
    exact h

/-- What can be walked on lies on the grid. -/
theorem contains_of_isWalkable (h : g.isWalkable p = true) : g.contains p = true := by
  unfold isWalkable cell? at h
  unfold contains
  cases ho : g.offset? p with
  | none => simp [ho] at h
  | some n => rfl

/-- Grids of the same size agree on what can be walked on if their cells do. -/
theorem isWalkable_congr {g' : Grid} (hw : g.width = g'.width) (hh : g.height = g'.height)
    (hcells : g.cells.map Cell.isWalkable = g'.cells.map Cell.isWalkable) (q : Pos) :
    g.isWalkable q = g'.isWalkable q := by
  have hoffset : g.offset? q = g'.offset? q := by
    unfold offset?
    rw [hw, hh]
  have hany : ∀ n : Nat, (g.cells[n]?).any Cell.isWalkable = (g'.cells[n]?).any Cell.isWalkable := by
    intro n
    have hn : (g.cells.map Cell.isWalkable)[n]? = (g'.cells.map Cell.isWalkable)[n]? := by
      rw [hcells]
    simp only [Array.getElem?_map] at hn
    cases hc : g.cells[n]? <;> cases hc' : g'.cells[n]? <;> simp_all
  unfold isWalkable cell?
  rw [hoffset]
  cases g'.offset? q with
  | none => rfl
  | some n => exact hany n

/-- On a small grid no position is at the end of the coordinates. -/
theorem isInner_of_contains (hg : g.IsSmall) (hp : g.contains p = true) : p.IsInner := by
  obtain ⟨hx0, hy0, hx, hy⟩ := contains_iff.mp hp
  obtain ⟨hw, hh⟩ := hg
  have hmin : Int32.minValue.toInt = -2 ^ 31 := rfl
  have hmax : Int32.maxValue.toInt = 2 ^ 31 - 1 := rfl
  constructor <;> omega

end Grid

/-! ### Looking around -/

namespace Openings

variable {g g' : Grid} {p : Pos} {f : Facing} {o : Openings}

/-- The view of an agent, with the vectors of the four sides written out. -/
theorem around_eq (g : Grid) (p : Pos) (f : Facing) :
    around g p f = do
      let front ← p.add f.vector
      let left ← p.add f.left.vector
      let back ← p.add f.back.vector
      let right ← p.add f.right.vector
      return ⟨g.isWalkable front, g.isWalkable left, g.isWalkable back, g.isWalkable right⟩ := by
  unfold around Facing.back Facing.right
  dsimp only
  -- one turn after the other; none of them overflows
  rw [f.turnLeft_vector]
  show (p.add f.vector >>= fun _ => p.add f.left.vector >>= fun _ =>
    f.left.vector.turnLeft >>= _) = _
  rw [f.left.turnLeft_vector]
  show (p.add f.vector >>= fun _ => p.add f.left.vector >>= fun _ =>
    p.add f.left.left.vector >>= fun _ => f.left.left.vector.turnLeft >>= _) = _
  rw [f.left.left.turnLeft_vector]
  rfl

theorem around_eq_ok_iff : around g p f = .ok o ↔
    ∃ front left back right, p.add f.vector = .ok front ∧ p.add f.left.vector = .ok left ∧
      p.add f.back.vector = .ok back ∧ p.add f.right.vector = .ok right ∧
      o = ⟨g.isWalkable front, g.isWalkable left, g.isWalkable back, g.isWalkable right⟩ := by
  rw [around_eq]
  simp only [bind_eq_ok_iff, pure_eq_ok_iff]
  constructor
  · rintro ⟨front, hf, left, hl, back, hb, right, hr, rfl⟩
    exact ⟨front, left, back, right, hf, hl, hb, hr, rfl⟩
  · rintro ⟨front, left, back, right, hf, hl, hb, hr, rfl⟩
    exact ⟨front, hf, left, hl, back, hb, right, hr, rfl⟩

/-- An open front leads to a position that can be walked on. -/
theorem exists_front_of_around (h : around g p f = .ok o) (ho : o.front = true) :
    ∃ q, p.add f.vector = .ok q ∧ g.isWalkable q = true := by
  obtain ⟨front, _, _, _, hf, _, _, _, rfl⟩ := around_eq_ok_iff.mp h
  exact ⟨front, hf, ho⟩

/-- There is a view from every position that is not at the end of the coordinates, and from no
other one. -/
theorem exists_around_iff : (∃ o, around g p f = .ok o) ↔ p.IsInner := by
  rw [Pos.isInner_iff]
  constructor
  · rintro ⟨o, ho⟩ f'
    obtain ⟨front, left, back, right, hfront, hleft, hback, hright, -⟩ := around_eq_ok_iff.mp ho
    rcases f.eq_turn f' with rfl | rfl | rfl | rfl
    · exact ⟨front, hfront⟩
    · exact ⟨left, hleft⟩
    · exact ⟨back, hback⟩
    · exact ⟨right, hright⟩
  · intro h
    obtain ⟨front, hfront⟩ := h f
    obtain ⟨left, hleft⟩ := h f.left
    obtain ⟨back, hback⟩ := h f.back
    obtain ⟨right, hright⟩ := h f.right
    exact ⟨_, around_eq_ok_iff.mpr ⟨front, left, back, right, hfront, hleft, hback, hright, rfl⟩⟩

theorem exists_around (hg : g.IsSmall) (hp : g.contains p = true) (f : Facing) :
    ∃ o, around g p f = .ok o :=
  exists_around_iff.mpr (Grid.isInner_of_contains hg hp)

/-- Only what can be walked on is seen. -/
theorem around_congr (h : ∀ q, g.isWalkable q = g'.isWalkable q) (p : Pos) (f : Facing) :
    around g p f = around g' p f := by
  have hw : g.isWalkable = g'.isWalkable := funext h
  rw [around_eq, around_eq, hw]

end Openings

end TileWalk
