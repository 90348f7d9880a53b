import Mathlib.Data.List.Rotate
import TileWalk.Proofs.Agent.Step
import TileWalk.Proofs.Board.Sides

/-!
# Sides, turns and branches

The number of a side counts the left turns that bring the front there. This one number is meant in
several places, and they agree (`Openings.exists_agrees`): as a number of quarter turns of the
facing and of its vector, as the place of a side in the view of an agent, as the shift of that view
when the agent turns, and as the side that a branch asks for, where the answer is whether an agent
that has turned there could move.
-/

namespace TileWalk

open Outcome

/-! ### Turning -/

namespace Facing

/-- As many quarter turns as the number of a side bring the front to that side. -/
theorem turned_index (f : Facing) (side : Side) :
    f.turned (UInt8.ofNat side.index) = .ok (f.toward side) := by
  cases f <;> cases side <;> rfl

theorem iterate_left_index (f : Facing) (side : Side) : left^[side.index] f = f.toward side := by
  cases side <;> rfl

end Facing

namespace Openings

variable {g : Grid} {p : Pos} {f : Facing} {o : Openings}

theorem toList_of_around (h : around g p f = .ok o) :
    o.toList =
      [g.isOpen p f .front, g.isOpen p f .left, g.isOpen p f .back, g.isOpen p f .right] := by
  rw [← get_of_around h, ← get_of_around h, ← get_of_around h, ← get_of_around h]
  rfl

/-- After a turn to the left, what was on the left is in front, and so on around the agent. -/
theorem exists_around_left (h : around g p f = .ok o) :
    ∃ o', around g p f.left = .ok o' ∧ o'.toList = o.toList.rotate 1 := by
  have hp : p.IsInner := exists_around_iff.mp ⟨o, h⟩
  obtain ⟨o', h'⟩ : ∃ o', around g p f.left = .ok o' := exists_around_iff.mpr hp
  have hright : g.isOpen p f.left .right = g.isOpen p f .front := by
    show g.isWalkable (p.ahead f.left.left.left.left) = _
    rw [f.left_left_left_left]
    rfl
  refine ⟨o', h', ?_⟩
  rw [toList_of_around h', toList_of_around h, hright]
  rfl

/-- The view after each of the turns that there are. -/
theorem exists_around_turns (h : around g p f = .ok o) :
    (∃ o', around g p f.left = .ok o' ∧ o'.toList = o.toList.rotate 1) ∧
    (∃ o', around g p f.back = .ok o' ∧ o'.toList = o.toList.rotate 2) ∧
    ∃ o', around g p f.right = .ok o' ∧ o'.toList = o.toList.rotate 3 := by
  obtain ⟨left, hleft, hleftList⟩ := exists_around_left h
  obtain ⟨back, hback, hbackList⟩ := exists_around_left hleft
  obtain ⟨right, hright, hrightList⟩ := exists_around_left hback
  rw [hleftList, List.rotate_rotate] at hbackList
  rw [hbackList, List.rotate_rotate] at hrightList
  exact ⟨⟨left, hleft, hleftList⟩, ⟨back, hback, hbackList⟩, right, hright, hrightList⟩

end Openings

/-! ### Branching -/

namespace Agent

variable {a : Agent} {g : Grid} {program : Program} {n : Node} {side : Side} {o : Openings}
  {frames : UInt32}

/-- The agent executes the node next. -/
structure IsAbout (a : Agent) (program : Program) (n : Node) : Prop where
  phase_eq : a.phase = .executing
  node_eq : a.cursor.bind program.node? = some n

theorem IsAbout.decide_eq (h : a.IsAbout program n) (o : Openings) :
    program.decide a.cursor a.facing o = n.decide program a.facing o := by
  rw [Program.decide, h.node_eq]

/-- A branch is decided by the side that it asks for. -/
theorem exists_execute_of_case (h : a.IsAbout program n) (hkind : n.kind = .case)
    (hcommand : n.command = .test side) (ho : Openings.around g a.pos a.facing = .ok o) :
    ∃ b, a.execute program g frames =
      .ok (some (.resume (if o.get side then n.right else n.bottom)), b) := by
  have hdecide : program.decide a.cursor a.facing o =
      .resume (if o.get side then n.right else n.bottom) := by
    rw [h.decide_eq, Node.decide, hkind, hcommand]
    rfl
  rw [← hdecide]
  exact exists_execute_of_around h.phase_eq ho

/-- A move begins exactly if the front is open. -/
theorem exists_execute_move_iff (h : a.IsAbout program n) (hkind : n.kind = .basic)
    (hcommand : n.command = .move) (ho : Openings.around g a.pos a.facing = .ok o) :
    (∃ b, a.execute program g frames = .ok (some ⟨.move a.facing.vector, n.sequel⟩, b)) ↔
      o.front = true := by
  have hdecide : program.decide a.cursor a.facing o =
      ⟨if o.front then .move a.facing.vector else .blocked, n.sequel⟩ := by
    rw [h.decide_eq, Node.decide, hkind, hcommand]
    rfl
  constructor
  · rintro ⟨b, hb⟩
    obtain ⟨o', ho', hd, -⟩ := (execute_eq_ok_iff h.phase_eq).mp hb
    obtain rfl := Except.ok.inj (ho.symm.trans ho')
    rw [hdecide, Option.some_inj, Decision.mk.injEq] at hd
    by_contra hfront
    rw [if_neg hfront] at hd
    exact nomatch hd.1
  · intro hfront
    rw [if_pos hfront] at hdecide
    rw [← hdecide]
    exact exists_execute_of_around h.phase_eq ho

end Agent

/-! ### Agreement -/

namespace Openings

variable {g : Grid} {p : Pos} {f : Facing} {o : Openings}

/-- What the numbers of the sides mean agrees in the view of an agent at `p` that faces `f`. -/
structure Agrees (o : Openings) (g : Grid) (p : Pos) (f : Facing) : Prop where
  /-- A side is open if the cell can be walked on that is next after as many quarter turns, and
  beyond the grid no side is open. -/
  side : ∀ side : Side, ∃ turned next, f.turned (UInt8.ofNat side.index) = .ok turned ∧
    p.add turned.vector = .ok next ∧ o.get side = g.isWalkable next ∧
    (g.contains next = false → o.get side = false)
  left : ∃ o', around g p f.left = .ok o' ∧ o'.toList = o.toList.rotate 1
  back : ∃ o', around g p f.back = .ok o' ∧ o'.toList = o.toList.rotate 2
  right : ∃ o', around g p f.right = .ok o' ∧ o'.toList = o.toList.rotate 3
  /-- A branch goes to the right exactly if an agent at the same place, after as many left turns,
  would begin to move when told to. -/
  branch : ∀ (side : Side) (program : Program) (frames : UInt32) (a : Agent) (n : Node),
    a.pos = p → a.facing = f → a.IsAbout program n → n.kind = .case → n.command = .test side →
    ∃ taken a', a.execute program g frames =
        .ok (some (.resume (if taken then n.right else n.bottom)), a') ∧
      ∀ (program' : Program) (frames' : UInt32) (b : Agent) (m : Node), b.pos = p →
        b.facing = Facing.left^[side.index] f → b.IsAbout program' m → m.kind = .basic →
        m.command = .move →
        (taken = true ↔
          ∃ b', b.execute program' g frames' = .ok (some ⟨.move b.facing.vector, m.sequel⟩, b'))

theorem exists_next_of_index (ho : around g p f = .ok o) (side : Side) :
    ∃ turned next, f.turned (UInt8.ofNat side.index) = .ok turned ∧
      p.add turned.vector = .ok next ∧ o.get side = g.isWalkable next ∧
      (g.contains next = false → o.get side = false) := by
  obtain ⟨next, hadd, hget⟩ := exists_next_of_around ho side
  refine ⟨f.toward side, next, f.turned_index side, hadd, hget, fun hout => ?_⟩
  rw [hget, ← Bool.not_eq_true]
  intro hwalkable
  rw [Grid.contains_of_isWalkable hwalkable] at hout
  cases hout

/-- Whoever is not at the end of the coordinates has a view, on the grid or beyond it, and all that
is meant by the numbers of its sides agrees. -/
theorem exists_agrees (g : Grid) (hp : p.IsInner) (f : Facing) :
    ∃ o, around g p f = .ok o ∧ o.Agrees g p f := by
  obtain ⟨o, ho⟩ : ∃ o, around g p f = .ok o := exists_around_iff.mpr hp
  obtain ⟨hleft, hback, hright⟩ := exists_around_turns ho
  refine ⟨o, ho, exists_next_of_index ho, hleft, hback, hright, ?_⟩
  rintro side program frames a n rfl rfl hn hkind hcommand
  obtain ⟨a', ha'⟩ : ∃ a', a.execute program g frames =
      .ok (some (.resume (if o.get side then n.right else n.bottom)), a') :=
    Agent.exists_execute_of_case hn hkind hcommand ho
  refine ⟨o.get side, a', ha', ?_⟩
  intro program' frames' b m hpos hfacing hm hkind' hcommand'
  rw [Facing.iterate_left_index] at hfacing
  obtain ⟨o', ho'⟩ : ∃ o', around g b.pos b.facing = .ok o' :=
    exists_around_iff.mpr (hpos ▸ hp)
  rw [Agent.exists_execute_move_iff hm hkind' hcommand' ho']
  -- what is in front of the one is on that side of the other
  have hfront : o'.front = g.isOpen b.pos b.facing .front := get_of_around ho' .front
  rw [hfront, get_of_around ho side, hpos, hfacing]
  rfl

/-- Two cells, of which only the first can be walked on. -/
def edgeGrid : Grid :=
  ⟨2, 1, #[⟨1⟩, ⟨0⟩], rfl⟩

/-- Beside the board and with the upper edge ahead, the first cell is seen on the right. -/
theorem exists_agrees_edgeGrid :
    (⟨-1, 0⟩ : Pos).IsInner ∧ Grid.ofRows [[1, 0]] = .ok edgeGrid ∧
      ∃ o, around edgeGrid ⟨-1, 0⟩ .northEast = .ok o ∧
        o.toList = [false, false, false, true] ∧ o.Agrees edgeGrid ⟨-1, 0⟩ .northEast := by
  have hp : (⟨-1, 0⟩ : Pos).IsInner := ⟨by decide, by decide, by decide, by decide⟩
  obtain ⟨o, ho, hagrees⟩ := exists_agrees edgeGrid hp .northEast
  have hseen : around edgeGrid ⟨-1, 0⟩ .northEast = .ok ⟨false, false, false, true⟩ := rfl
  obtain rfl := Except.ok.inj (ho.symm.trans hseen)
  exact ⟨hp, rfl, _, ho, rfl, hagrees⟩

end Openings

end TileWalk
