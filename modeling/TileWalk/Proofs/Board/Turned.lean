import Mathlib.Data.List.Perm.Basic
import TileWalk.Proofs.Board.Rows
import TileWalk.Proofs.Program.Journey

/-!
# Boards turned to the left

A board of width `w` is turned to the left by carrying the cell `(x, y)` to `(y, w - 1 - x)` and
turning the starting places on it (`Grid.IsTurned`). Forward vectors turn along, so the cell ahead is
carried to the cell ahead (`Pos.ahead_turned`), and an agent that is carried over sees what it saw
before (`Grid.IsTurned.around`). The starting places and the items of the turned board are those of
the board, in another order (`Board.perm_spawns_turned`, `Board.perm_items_turned`).
-/

namespace TileWalk

open Outcome

/-! ### Positions and vectors -/

/-- Where a cell of a board of width `w` comes to when the board is turned to the left. On the board
nothing overflows (`Pos.toInt_y_turned`). -/
def Pos.turned (w : Nat) (p : Pos) : Pos :=
  ⟨p.y, Int32.ofNat w - 1 - p.x⟩

/-- A step on the turned board. -/
def Vec.turned (v : Vec) : Vec :=
  ⟨v.y, -v.x⟩

/-- A starting place on the turned board of a board of width `w`. -/
def Spawn.turned (w : Nat) (s : Spawn) : Spawn :=
  ⟨s.pos.turned w, s.facing.left⟩

theorem Facing.vector_left (f : Facing) : f.left.vector = f.vector.turned := by
  cases f <;> rfl

theorem Facing.left_injective : Function.Injective Facing.left := by
  intro f f' h
  rw [← f.left_left_left_left, ← f'.left_left_left_left, h]

theorem Facing.toward_left (f : Facing) (side : Side) : f.left.toward side = (f.toward side).left := by
  cases side <;> rfl

namespace Pos

variable {w : Nat} {p q : Pos}

theorem turned_injective (w : Nat) : Function.Injective (turned w) := by
  intro p q h
  obtain ⟨hy, hx⟩ := Pos.mk.inj h
  apply Pos.ext
  · grind
  · exact hy

theorem exists_turned_eq (w : Nat) (q : Pos) : ∃ p, turned w p = q := by
  refine ⟨⟨Int32.ofNat w - 1 - q.y, q.x⟩, ?_⟩
  apply Pos.ext
  · rfl
  · show Int32.ofNat w - 1 - (Int32.ofNat w - 1 - q.y) = q.y
    grind

/-- The cell ahead is carried to the cell ahead. -/
theorem ahead_turned (w : Nat) (p : Pos) (f : Facing) :
    (p.ahead f).turned w = (p.turned w).ahead f.left := by
  unfold ahead
  rw [f.vector_left]
  apply Pos.ext
  · rfl
  · show Int32.ofNat w - 1 - (p.x + f.vector.x) = Int32.ofNat w - 1 - p.x + -f.vector.x
    grind

theorem toInt_y_turned (hw : w < 2 ^ 31) (hx : 0 ≤ p.x.toInt) (hlt : p.x.toInt < w) :
    (p.turned w).y.toInt = w - 1 - p.x.toInt := by
  have hone : (1 : Int32).toInt = 1 := rfl
  show (Int32.ofNat w - 1 - p.x).toInt = _
  rw [Int32.toInt_sub, Int32.toInt_sub, Int32.toInt_ofNat_of_lt hw, hone]
  simp only [Int.bmod]
  omega

/-- Columns are carried to rows and no other ones. -/
theorem toInt_y_turned_lt_iff (hw : w < 2 ^ 31) :
    0 ≤ (p.turned w).y.toInt ∧ (p.turned w).y.toInt < w ↔ 0 ≤ p.x.toInt ∧ p.x.toInt < w := by
  have hlow := p.x.le_toInt
  have hhigh := p.x.toInt_lt
  have hone : (1 : Int32).toInt = 1 := rfl
  have hword : (p.turned w).y.toInt = (Int32.ofNat w - 1 - p.x).toInt := rfl
  rw [Int32.toInt_sub, Int32.toInt_sub, Int32.toInt_ofNat_of_lt hw, hone] at hword
  simp only [Int.bmod] at hword
  omega

/-- Steps from one cell of a board to another one are carried over. -/
theorem add_turned {v : Vec} (hw : w < 2 ^ 31) (hp : 0 ≤ p.x.toInt ∧ p.x.toInt < w)
    (hq : 0 ≤ q.x.toInt ∧ q.x.toInt < w) (h : p.add v = .ok q) :
    (p.turned w).add v.turned = .ok (q.turned w) := by
  obtain ⟨hx, hy⟩ := Pos.add_eq_ok_iff.mp h
  rw [Pos.add_eq_ok_iff]
  refine ⟨hy, ?_⟩
  have hneg : v.turned.y.toInt = -v.x.toInt := by
    show (-v.x).toInt = _
    rw [Int32.toInt_neg]
    apply Int.bmod_eq_of_le
    · omega
    · omega
  rw [toInt_y_turned hw hp.1 hp.2, toInt_y_turned hw hq.1 hq.2, hneg]
  omega

end Pos

theorem Spawn.turned_injective (w : Nat) : Function.Injective (Spawn.turned w) := by
  intro s s' h
  obtain ⟨hpos, hfacing⟩ := Spawn.mk.inj h
  exact Spawn.ext (Pos.turned_injective w hpos) (Facing.left_injective hfacing)

theorem Spawn.exists_turned_eq (w : Nat) (s' : Spawn) : ∃ s, Spawn.turned w s = s' := by
  obtain ⟨p, hp⟩ := Pos.exists_turned_eq w s'.pos
  exact ⟨⟨p, s'.facing.right⟩, Spawn.ext hp (Facing.left_left_left_left s'.facing)⟩

/-! ### Cells and grids -/

/-- What a cell is on the turned board: it is the same but for the facing of an agent that starts
there. -/
structure Cell.IsTurned (c c' : Cell) : Prop where
  walkable : c'.isWalkable = c.isWalkable
  item : c'.hasItem = c.hasItem
  spawn : c'.hasSpawn = c.hasSpawn
  facing : c.hasSpawn = true → ∀ f, Facing.ofRaw c.facingBits = .ok f →
    Facing.ofRaw c'.facingBits = .ok f.left

namespace Grid

variable {g g' : Grid} {p : Pos} {f : Facing}

/-- Every cell of the grid is found on the turned one at the place to which it is carried. -/
structure IsTurned (g g' : Grid) : Prop where
  width_eq : g'.width = g.height
  height_eq : g'.height = g.width
  cell : ∀ p c, g.cell? p = some c → ∃ c', g'.cell? (p.turned g.width) = some c' ∧ c.IsTurned c'

theorem columns_of_contains (h : g.contains p = true) : 0 ≤ p.x.toInt ∧ p.x.toInt < g.width := by
  obtain ⟨hx, -, hlt, -⟩ := contains_iff.mp h
  exact ⟨hx, hlt⟩

namespace IsTurned

theorem contains_turned (h : g.IsTurned g') (hw : g.width < 2 ^ 31) (p : Pos) :
    g'.contains (p.turned g.width) = g.contains p := by
  have hrows := Pos.toInt_y_turned_lt_iff (p := p) hw
  have hcolumns : (p.turned g.width).x.toInt = p.y.toInt := rfl
  rw [Bool.eq_iff_iff, contains_iff, contains_iff, h.width_eq, h.height_eq, hcolumns]
  omega

/-- Either there is a cell in both places or there is none. -/
theorem cell?_turned (h : g.IsTurned g') (hw : g.width < 2 ^ 31) (p : Pos) :
    g.cell? p = none ∧ g'.cell? (p.turned g.width) = none ∨
      ∃ c c', g.cell? p = some c ∧ g'.cell? (p.turned g.width) = some c' ∧ c.IsTurned c' := by
  cases hc : g.cell? p with
  | some c =>
    obtain ⟨c', hc', hturned⟩ := h.cell p c hc
    exact Or.inr ⟨c, c', rfl, hc', hturned⟩
  | none =>
    cases hc' : g'.cell? (p.turned g.width) with
    | none => exact Or.inl ⟨rfl, rfl⟩
    | some c' =>
      have hon := contains_of_cell? hc'
      rw [h.contains_turned hw] at hon
      obtain ⟨c, hsome⟩ := exists_cell? hon
      rw [hc] at hsome
      cases hsome

theorem isWalkable_turned (h : g.IsTurned g') (hw : g.width < 2 ^ 31) (p : Pos) :
    g'.isWalkable (p.turned g.width) = g.isWalkable p := by
  unfold isWalkable
  rcases h.cell?_turned hw p with ⟨hc, hc'⟩ | ⟨c, c', hc, hc', hboth⟩
  · rw [hc, hc']
  · rw [hc, hc']
    exact hboth.walkable

theorem isOpen_turned (h : g.IsTurned g') (hw : g.width < 2 ^ 31) (p : Pos) (f : Facing)
    (side : Side) : g'.isOpen (p.turned g.width) f.left side = g.isOpen p f side := by
  unfold isOpen
  rw [f.toward_left, ← Pos.ahead_turned, h.isWalkable_turned hw]

/-- The turned grid is small as well. -/
theorem isSmall (h : g.IsTurned g') (hg : g.IsSmall) : g'.IsSmall := by
  unfold IsSmall
  rw [h.width_eq, h.height_eq]
  exact ⟨hg.2, hg.1⟩

/-- Who is carried over sees what there was to be seen before. -/
theorem around (h : g.IsTurned g') (hg : g.IsSmall) (hp : g.contains p = true) {o : Openings}
    (ho : Openings.around g p f = .ok o) :
    Openings.around g' (p.turned g.width) f.left = .ok o := by
  have hon : g'.contains (p.turned g.width) = true := by
    rw [h.contains_turned hg.1, hp]
  obtain ⟨o', ho'⟩ := Openings.exists_around (h.isSmall hg) hon f.left
  have hside : ∀ side, o'.get side = o.get side := by
    intro side
    rw [Openings.get_of_around ho', Openings.get_of_around ho, h.isOpen_turned hg.1]
  have hsame : o' = o :=
    Openings.ext (hside .front) (hside .left) (hside .back) (hside .right)
  rw [ho', hsame]

end IsTurned

end Grid

/-! ### Starting places and items -/

namespace Board

variable {b b' : Board} {rows rows' : List (List UInt32)}

/-- The starting places of the turned board are those of the board, carried over. -/
theorem perm_spawns_turned (h : ofRows rows = .ok b) (h' : ofRows rows' = .ok b')
    (hg : b.grid.IsSmall) (hturned : b.grid.IsTurned b'.grid) :
    b'.spawns.Perm (b.spawns.map (Spawn.turned b.grid.width)) := by
  have hnodup := (nodup_spawns h hg).map (Spawn.turned_injective b.grid.width)
  rw [List.perm_ext_iff_of_nodup (nodup_spawns h' (hturned.isSmall hg)) hnodup]
  intro s'
  obtain ⟨s, rfl⟩ := Spawn.exists_turned_eq b.grid.width s'
  rw [List.mem_map_of_injective (Spawn.turned_injective _), mem_spawns_iff h hg,
    mem_spawns_iff h' (hturned.isSmall hg)]
  show (∃ c, b'.grid.cell? (s.pos.turned b.grid.width) = some c ∧ _) ↔ _
  rcases hturned.cell?_turned hg.1 s.pos with ⟨hc, hc'⟩ | ⟨c, c', hc, hc', hboth⟩
  · simp [hc, hc']
  · simp only [hc, hc', Option.some.injEq, exists_eq_left', hboth.spawn, hboth.walkable]
    refine and_congr_right fun hspawn => and_congr_right fun _ => ?_
    constructor
    · intro hfacing
      obtain ⟨-, f, hf⟩ := exists_facing_of_hasSpawn h hg hc hspawn
      have hleft := hboth.facing hspawn f hf
      have heq : f.left = s.facing.left := Except.ok.inj (hleft.symm.trans hfacing)
      rw [hf, Facing.left_injective heq]
    · exact hboth.facing hspawn s.facing

/-- The items of the turned board are those of the board, carried over. -/
theorem perm_items_turned (h : ofRows rows = .ok b) (h' : ofRows rows' = .ok b')
    (hg : b.grid.IsSmall) (hturned : b.grid.IsTurned b'.grid) :
    b'.items.Perm (b.items.map (Pos.turned b.grid.width)) := by
  have hnodup := (nodup_items h hg).map (Pos.turned_injective b.grid.width)
  rw [List.perm_ext_iff_of_nodup (nodup_items h' (hturned.isSmall hg)) hnodup]
  intro q
  obtain ⟨p, rfl⟩ := Pos.exists_turned_eq b.grid.width q
  rw [List.mem_map_of_injective (Pos.turned_injective _), mem_items_iff h hg,
    mem_items_iff h' (hturned.isSmall hg)]
  rcases hturned.cell?_turned hg.1 p with ⟨hc, hc'⟩ | ⟨c, c', hc, hc', hboth⟩
  · simp [hc, hc']
  · simp [hc, hc', hboth.walkable, hboth.item]

end Board

end TileWalk
