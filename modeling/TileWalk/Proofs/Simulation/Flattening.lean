import TileWalk.Proofs.Agent.Walker
import TileWalk.Proofs.Simulation.Separate

/-!
# Flattening keeps the meaning

Making a program of brick trees numbers the bricks and forgets how they were nested. Nothing is lost
by it: an agent that runs the program in a simulation agrees at every tick with a walker that
executes the trees themselves (`Simulation.flattening_preserves`).
-/

namespace TileWalk

open Outcome

namespace Walker

variable {trees : List Brick} {p : Program} {g : Grid} {s : Spawn} {a : Agent} {id : AgentId}

/-- A walker and an agent begin alike. -/
theorem exists_start (hp : Program.ofBricks trees = .ok p) (h : Agent.spawn id s g = .ok a) :
    ∃ w, start trees g s = .ok w ∧ w.Agrees trees (a.begun p) := by
  obtain ⟨o, ho, rfl⟩ := Agent.spawn_eq_ok_iff.mp h
  have hroot := Occurrence.rel_root? hp
  refine ⟨_, bind_eq_ok_iff.mpr ⟨o, ho, rfl⟩, ?_⟩
  unfold Agent.begun
  cases hbrick : Occurrence.root? trees with
  | none =>
    rw [hbrick] at hroot
    cases hnode : p.root with
    | none => exact ⟨rfl, rfl, rfl, .stopped _, rfl, .none, .some .endOfProgram⟩
    | some root =>
      rw [hnode] at hroot
      cases hroot
  | some brick =>
    rw [hbrick] at hroot
    cases hnode : p.root with
    | none =>
      rw [hnode] at hroot
      cases hroot
    | some root =>
      rw [hnode] at hroot
      exact ⟨rfl, rfl, rfl, .executing _, rfl, hroot, .none⟩

end Walker

/-- Flattening keeps the meaning: at every tick of a run an agent is where the walker through the
trees is, and does the same, at the node with the number of the walker's brick. On every board of
fewer than `2 ^ 31` cells there are such runs of any length that the clock can count. -/
theorem Simulation.flattening_preserves {trees : List Brick} {s : Simulation} {k i : Nat}
    {sp : Spawn} (hprogram : Program.ofBricks trees = .ok s.program) (hqueue : s.queue = [])
    (hsp : s.board.spawns[i]? = some sp) :
    (∀ s₁ c₁ counts s₂ c₂, s.start = .ok (s₁, c₁) → s₁.tickMany k = .ok (counts, s₂, c₂) →
      ∃ w₀ w a, Walker.start trees s.board.grid sp = .ok w₀ ∧
        w₀.run trees s.board.grid s.config.moveFrames k = .ok w ∧
        s₂.world.agents[i]? = some a ∧ w.Agrees trees a) ∧
    (∀ rows, Board.ofRows rows = .ok s.board → s.board.grid.cells.size < 2 ^ 31 →
      s.clock.count.toNat + k < 2 ^ 64 →
      ∃ s₁ c₁ counts s₂ c₂, s.start = .ok (s₁, c₁) ∧
        s₁.tickMany k = .ok (counts, s₂, c₂)) := by
  constructor
  · intro s₁ c₁ counts s₂ c₂ hstart hticks
    obtain ⟨a, b, ha, hb, hlive⟩ := exists_agent_of_run hqueue hstart hticks hsp
    obtain ⟨w₀, hw₀, hagrees⟩ := Walker.exists_start hprogram ha
    obtain ⟨w, hw, hresult⟩ :=
      hagrees.exists_run hprogram (Agent.coherent_begun_of_spawn ha) hlive
    exact ⟨w₀, w, b, hw₀, hw, hb, hresult⟩
  · intro rows hrows hcells hclock
    exact exists_run (Board.isProper_of_ofRows hrows hcells)
      (Program.isClosed_of_ofBricks hprogram) hqueue hclock

/-- A tree that steps forward once. -/
def Brick.stride : Brick where
  name := none
  head := ⟨"EntryBrick", "CommandNOP", .null⟩
  right := .absent
  bottom := .brick none ⟨"BasicBrick", "CommandMove", .null⟩ .absent .absent

/-- In the corridor the walker and the agent are both on the second cell after three ticks. -/
theorem Simulation.flattening_preserves_corridor : ∃ s₁ c₁ counts s₂ c₂ w₀ w a,
    corridor.start = .ok (s₁, c₁) ∧ s₁.tickMany 3 = .ok (counts, s₂, c₂) ∧
      Walker.start [Brick.stride] corridor.board.grid ⟨⟨0, 0⟩, .southEast⟩ = .ok w₀ ∧
      w₀.run [Brick.stride] corridor.board.grid 1 3 = .ok w ∧
      s₂.world.agents[0]? = some a ∧ a.pos = ⟨1, 0⟩ ∧ w.Agrees [Brick.stride] a := by
  have hprogram : Program.ofBricks [Brick.stride] = .ok corridor.program := rfl
  have hrows : Board.ofRows [[5, 3]] = .ok corridor.board := rfl
  obtain ⟨hagree, hexists⟩ := flattening_preserves (k := 3) (i := 0) hprogram rfl rfl
  obtain ⟨s₁, c₁, counts, s₂, c₂, hs₁, hs₂⟩ := hexists _ hrows (by decide) (by decide)
  obtain ⟨w₀, w, a, hw₀, hw, ha, hagrees⟩ := hagree s₁ c₁ counts s₂ c₂ hs₁ hs₂
  have hpos : a.pos = ⟨1, 0⟩ := by
    obtain ⟨rfl, rfl⟩ := Prod.mk.inj (Except.ok.inj hs₁)
    obtain ⟨rfl, rfl, rfl⟩ := by simpa using Except.ok.inj hs₂
    obtain rfl := Option.some.inj ha
    rfl
  exact ⟨s₁, c₁, counts, s₂, c₂, w₀, w, a, hs₁, hs₂, hw₀, hw, ha, hpos, hagrees⟩

end TileWalk
