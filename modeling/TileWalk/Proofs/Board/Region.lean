import Mathlib.Data.List.Chain
import TileWalk.Board.Basic
import TileWalk.Proofs.Board.Neighbours

/-!
# Regions

A path leads from cell to cell, each of which can be walked on and is a neighbour of the one before.
Cells that a path joins lie in one region. A path gets longer cell by cell
(`Grid.Connects.step`), and what is closed under such steps contains the whole region
(`Grid.Connects.mem_of_closed`).
-/

namespace TileWalk

namespace Grid

/-- The cells lead from `p` to `q`: all of them lie on the grid and can be walked on, and each is
the next one ahead of the one before, for some facing. -/
structure IsPath (g : Grid) (p q : Pos) (cells : List Pos) : Prop where
  head?_eq : cells.head? = some p
  getLast?_eq : cells.getLast? = some q
  walkable : ∀ c ∈ cells, g.contains c = true ∧ g.isWalkable c = true
  next : cells.IsChain fun c d => ∃ f : Facing, c.add f.vector = .ok d

/-- Some path leads from `p` to `q`. -/
def Connects (g : Grid) (p q : Pos) : Prop :=
  ∃ cells, g.IsPath p q cells

variable {g : Grid} {p q r : Pos} {f : Facing}

theorem connects_self (hp : g.isWalkable p = true) : g.Connects p p := by
  refine ⟨[p], rfl, rfl, ?_, List.isChain_singleton p⟩
  intro c hc
  obtain rfl := List.mem_singleton.mp hc
  exact ⟨contains_of_isWalkable hp, hp⟩

/-- A path goes on to every neighbour that can be walked on. -/
theorem Connects.step (h : g.Connects p q) (hadd : q.add f.vector = .ok r)
    (hr : g.isWalkable r = true) : g.Connects p r := by
  obtain ⟨cells, hpath⟩ := h
  refine ⟨cells ++ [r], ?_, List.getLast?_concat, ?_, ?_⟩
  · rw [List.head?_append, hpath.head?_eq]
    rfl
  · intro c hc
    rcases List.mem_append.mp hc with hold | hnew
    · exact hpath.walkable c hold
    · obtain rfl := List.mem_singleton.mp hnew
      exact ⟨contains_of_isWalkable hr, hr⟩
  · rw [List.isChain_append]
    refine ⟨hpath.next, List.isChain_singleton r, ?_⟩
    rw [hpath.getLast?_eq]
    rintro c ⟨⟩ d ⟨⟩
    exact ⟨f, hadd⟩

/-- Cells that cannot be left on foot contain the region of each of them. -/
theorem Connects.mem_of_closed {cells : List Pos} (h : g.Connects p q) (hp : p ∈ cells)
    (hclosed : ∀ c ∈ cells, ∀ (f : Facing) (d : Pos), c.add f.vector = .ok d →
      g.isWalkable d = true → d ∈ cells) : q ∈ cells := by
  obtain ⟨path, hpath⟩ := h
  obtain ⟨hhead, hlast, hwalkable, hnext⟩ := hpath
  induction path generalizing p with
  | nil => cases hhead
  | cons c path ih =>
    obtain rfl := Option.some.inj hhead
    cases path with
    | nil =>
      obtain rfl := Option.some.inj hlast
      exact hp
    | cons d path =>
      obtain ⟨⟨f, hadd⟩, hrest⟩ := List.isChain_cons_cons.mp hnext
      have hd := (hwalkable d (List.mem_cons_of_mem _ List.mem_cons_self)).2
      apply ih (hclosed _ hp f d hadd hd) rfl
      · rw [← hlast, List.getLast?_cons_cons]
      · exact fun e he => hwalkable e (List.mem_cons_of_mem _ he)
      · exact hrest

end Grid

/-- No path leads from a starting place to the cell. -/
def Board.IsCutOff (b : Board) (pos : Pos) : Prop :=
  ∀ s ∈ b.spawns, ¬ b.grid.Connects s.pos pos

open Classical in
/-- The items that no path leads to. -/
noncomputable def Board.cutOffItems (b : Board) : List Pos :=
  b.items.filter fun pos => b.IsCutOff pos

theorem Board.mem_cutOffItems {b : Board} {pos : Pos} :
    pos ∈ b.cutOffItems ↔ pos ∈ b.items ∧ b.IsCutOff pos := by
  simp [cutOffItems]

end TileWalk
