import TileWalk.Proofs.Agent.Alone
import TileWalk.Proofs.Simulation.Progress

/-!
# Agents do not meet

In a tick every agent does what it would do on its own, so after any number of ticks it is where it
would be on its own (`Simulation.forall₂_liveFor`). Two agents that start on the same cell, of
boards that agree on what can be walked on, therefore go the same way
(`Simulation.agents_separate`): other agents, items and numbers do not matter.
-/

namespace TileWalk

open Outcome

namespace Simulation

variable {s t : Simulation} {c : Chronicle} {counts : List Nat} {k : Nat}

/-- After any number of ticks every agent is where it would be on its own. -/
theorem forall₂_liveFor (hs : ∀ a ∈ s.world.agents, a.Coherent) (hq : s.queue = [])
    (h : s.tickMany k = .ok (counts, t, c)) :
    List.Forall₂ (fun a b => a.liveFor s.program s.board.grid s.config.moveFrames k = .ok b)
      s.world.agents t.world.agents := by
  induction k generalizing s counts c with
  | zero =>
    obtain ⟨-, rfl, -⟩ := by simpa [tickMany] using h
    exact List.forall₂_same.mpr fun a _ => rfl
  | succ k ih =>
    obtain ⟨count, u, c₁, rest, c₂, hu, ht, -, -⟩ := tickMany_succ_eq_ok_iff.mp h
    -- no signal waits, now or later, so a tick only lets the agents act
    rw [tick_of_queue_nil hq] at hu
    obtain ⟨hconfig, hboard, hprogram, hqueue, -⟩ := frame_of_step hu
    have hrest := ih (coherent_of_step hs hu) (hqueue.trans hq) ht
    rw [hconfig, hboard, hprogram] at hrest
    have hfirst := mapM_eq_ok_iff.mp (mapM_live_of_step hs hu).1
    rw [List.forall₂_iff_get]
    refine ⟨hfirst.length_eq.trans hrest.length_eq, fun i hi hi' => ?_⟩
    have hmid : i < u.world.agents.length := hfirst.length_eq ▸ hi
    exact Agent.liveFor_succ_eq_ok_iff.mpr ⟨_, hfirst.get hi hmid, hrest.get hmid hi'⟩

/-- A run can begin and go on for as many ticks as the clock can count. -/
theorem exists_run (hs : s.board.IsProper) (hp : s.program.IsClosed) (hq : s.queue = [])
    (hclock : s.clock.count.toNat + k < 2 ^ 64) :
    ∃ s₁ c₁ counts s₂ c₂, s.start = .ok (s₁, c₁) ∧ s₁.tickMany k = .ok (counts, s₂, c₂) := by
  obtain ⟨w, hw⟩ := World.exists_ofBoard hs
  obtain ⟨c₁, hstart⟩ := exists_start_iff.mpr ⟨w, hw, rfl⟩
  obtain ⟨counts, s₂, c₂, hticks⟩ := (Sound.of_begun hs hp hw).exists_tickMany hq hclock
  exact ⟨_, c₁, counts, s₂, c₂, hstart, hticks⟩

/-- A run keeps a simulation sound. -/
theorem Sound.of_run {s₁ s₂ : Simulation} {c₁ c₂ : Chronicle} (hs : s.Sound) (hq : s.queue = [])
    (hstart : s.start = .ok (s₁, c₁)) (hticks : s₁.tickMany k = .ok (counts, s₂, c₂)) :
    s₂.Sound := by
  have hs₁ := hs.start hstart
  obtain ⟨w, -, rfl⟩ := exists_start_iff.mp ⟨c₁, hstart⟩
  exact hs₁.tickMany hq hticks

/-- The agent of a starting place after a run has begun and `k` ticks have passed. -/
theorem exists_agent_of_run {s₁ s₂ : Simulation} {c₁ c₂ : Chronicle} (hq : s.queue = [])
    (hstart : s.start = .ok (s₁, c₁)) (hticks : s₁.tickMany k = .ok (counts, s₂, c₂)) {i : Nat}
    {sp : Spawn} (hsp : s.board.spawns[i]? = some sp) :
    ∃ a b, Agent.spawn (Ident.ofIndex i) sp s.board.grid = .ok a ∧
      s₂.world.agents[i]? = some b ∧
      (a.begun s.program).liveFor s.program s.board.grid s.config.moveFrames k = .ok b := by
  obtain ⟨w, hw, rfl⟩ := exists_start_iff.mp ⟨c₁, hstart⟩
  have hcoherent : ∀ a ∈ (s.begun w).world.agents, a.Coherent := by
    intro a ha
    obtain ⟨fresh, hfresh, rfl⟩ := List.mem_map.mp ha
    obtain ⟨n, sp, -, hspawn⟩ := World.exists_spawn_of_mem hw hfresh
    exact Agent.coherent_begun_of_spawn hspawn
  obtain ⟨a, ha, hspawn⟩ := World.exists_agent_of_ofBoard hw hsp
  obtain ⟨b, hb, hlive⟩ :=
    exists_getElem?_of_forall₂ (forall₂_liveFor hcoherent hq hticks) (getElem?_begun s ha)
  exact ⟨a, b, hspawn, hb, hlive⟩

/-- Agents do not interfere. A tick is, on the list of agents, one single-agent step for each, and
counts those that were executing after the waiting signals had been carried out. So an agent runs
in the same way on every board with the same cells to walk on, whatever else there is. -/
theorem agents_separate :
    (∀ s : Simulation, s.Reachable → s.clock.count.toNat + 1 < 2 ^ 64 →
      ∃ ready c₁ count t c₂, s.drain = .ok (ready, c₁) ∧ s.tick = .ok (count, t, c₂) ∧
        ready.world.agents.mapM
            (Agent.live ready.program ready.board.grid ready.config.moveFrames) =
          .ok t.world.agents ∧
        count = ready.world.agents.countP Agent.isExecuting) ∧
    (∀ (s t : Simulation) (k i j : Nat) (sp : Spawn), s.Reachable → t.Reachable →
      s.queue = [] → t.queue = [] →
      s.clock.count.toNat + k < 2 ^ 64 → t.clock.count.toNat + k < 2 ^ 64 →
      s.program = t.program → s.config.moveFrames = t.config.moveFrames →
      s.board.grid.width = t.board.grid.width → s.board.grid.height = t.board.grid.height →
      s.board.grid.cells.map Cell.isWalkable = t.board.grid.cells.map Cell.isWalkable →
      s.board.spawns[i]? = some sp → t.board.spawns[j]? = some sp →
      ∃ s₁ c₁ ns s₂ c₂ t₁ d₁ ms t₂ d₂ a b,
        s.start = .ok (s₁, c₁) ∧ s₁.tickMany k = .ok (ns, s₂, c₂) ∧
        t.start = .ok (t₁, d₁) ∧ t₁.tickMany k = .ok (ms, t₂, d₂) ∧
        s₂.world.agents[i]? = some a ∧ t₂.world.agents[j]? = some b ∧
        { a with id := b.id } = b) := by
  constructor
  · intro s hs hclock
    obtain ⟨ready, c₁, hready, -, hsame, -, -⟩ := exists_drain hs.sound.board
    have hsound := (hs.isAttained.drain hready).sound
    obtain ⟨count, t, c₂, ht⟩ := hsound.exists_step (hsame ▸ hclock)
    obtain ⟨hlive, hcount⟩ := mapM_live_of_step hsound.coherent ht
    exact ⟨ready, c₁, count, t, _, hready,
      bind_eq_ok_iff.mpr ⟨_, hready, bind_eq_ok_iff.mpr ⟨_, ht, rfl⟩⟩, hlive, hcount⟩
  · intro s t k i j sp hs ht hsq htq hsclock htclock hprogram hframes hwidth hheight hcells hi hj
    obtain ⟨s₁, c₁, ns, s₂, c₂, hs₁, hs₂⟩ := exists_run hs.sound.board hs.sound.program hsq hsclock
    obtain ⟨t₁, d₁, ms, t₂, d₂, ht₁, ht₂⟩ := exists_run ht.sound.board ht.sound.program htq htclock
    obtain ⟨a, a', ha, ha', hlives⟩ := exists_agent_of_run hsq hs₁ hs₂ hi
    obtain ⟨b, b', hb, hb', hliveb⟩ := exists_agent_of_run htq ht₁ ht₂ hj
    have hwalk := Grid.isWalkable_congr hwidth hheight hcells
    -- the agents begin alike but for their numbers
    have hrenamed : b = a.renamed (Ident.ofIndex j) := by
      obtain ⟨o, ho, rfl⟩ := Agent.spawn_eq_ok_iff.mp ha
      obtain ⟨o', ho', rfl⟩ := Agent.spawn_eq_ok_iff.mp hb
      rw [Openings.around_congr hwalk] at ho
      obtain rfl := Except.ok.inj (ho.symm.trans ho')
      rfl
    have hbegun : b.begun t.program = (a.begun s.program).renamed (Ident.ofIndex j) := by
      rw [hrenamed, ← hprogram]
      unfold Agent.begun
      cases s.program.root <;> rfl
    rw [Agent.liveFor_congr hwalk, hprogram, hframes] at hlives
    rw [hbegun, ← hprogram] at hliveb
    have hsame := Agent.liveFor_renamed (Ident.ofIndex j) hlives
    rw [hprogram, hsame] at hliveb
    obtain rfl := Except.ok.inj hliveb
    exact ⟨s₁, c₁, ns, s₂, c₂, t₁, d₁, ms, t₂, d₂, a', _, hs₁, hs₂, ht₁, ht₂, ha', hb', rfl⟩

/-- Three cells in a row, an agent on the middle one, and an item ahead of it. -/
def hall : Simulation :=
  { corridor with
    board := ⟨⟨3, 1, #[⟨1⟩, ⟨5⟩, ⟨3⟩], rfl⟩, [⟨⟨1, 0⟩, .southEast⟩], [⟨2, 0⟩]⟩
    world :=
      ⟨[⟨⟨0⟩, ⟨1, 0⟩, .southEast, ⟨true, false, true, false⟩, none, .idle, none, none⟩],
        ⟨[⟨⟨0⟩, ⟨2, 0⟩, true⟩], 1⟩⟩ }

/-- The same cells with an agent on the first one, too, and with the only item under the agent on
the middle one, which is number one here. -/
def crowdedHall : Simulation :=
  { corridor with
    board :=
      ⟨⟨3, 1, #[⟨29⟩, ⟨7⟩, ⟨1⟩], rfl⟩, [⟨⟨0, 0⟩, .southWest⟩, ⟨⟨1, 0⟩, .southEast⟩], [⟨1, 0⟩]⟩
    world :=
      ⟨[⟨⟨0⟩, ⟨0, 0⟩, .southWest, ⟨false, true, false, false⟩, none, .idle, none, none⟩,
          ⟨⟨1⟩, ⟨1, 0⟩, .southEast, ⟨true, false, true, false⟩, none, .idle, none, none⟩],
        ⟨[⟨⟨0⟩, ⟨1, 0⟩, false⟩], 0⟩⟩ }

/-- The agent on the middle cell steps forward in both halls, onto an item or not, whatever its number
is and whoever else there is. -/
theorem agents_separate_halls : hall.Reachable ∧ crowdedHall.Reachable ∧
    (∃ (s ready : Simulation) (c₁ : Chronicle) (t : Simulation) (c₂ : Chronicle),
      s.drain = .ok (ready, c₁) ∧ s.tick = .ok (2, t, c₂) ∧
      ready.world.agents.mapM
          (Agent.live ready.program ready.board.grid ready.config.moveFrames) =
        .ok t.world.agents ∧
      2 = ready.world.agents.countP Agent.isExecuting) ∧
    ∃ s₁ c₁ ns s₂ c₂ t₁ d₁ ms t₂ d₂ a b,
      hall.start = .ok (s₁, c₁) ∧ s₁.tickMany 3 = .ok (ns, s₂, c₂) ∧
      crowdedHall.start = .ok (t₁, d₁) ∧ t₁.tickMany 3 = .ok (ms, t₂, d₂) ∧
      s₂.world.agents[0]? = some a ∧ t₂.world.agents[1]? = some b ∧
      { a with id := b.id } = b ∧ a.id ≠ b.id ∧ a.pos = ⟨2, 0⟩ := by
  have hrows : Board.ofRows [[1, 5, 3]] = .ok hall.board := rfl
  have hrows' : Board.ofRows [[29, 7, 1]] = .ok crowdedHall.board := rfl
  have hbuild : build hall.board corridor.config corridor.program = .ok (.ok (hall, _)) := rfl
  have hbuild' : build crowdedHall.board corridor.config corridor.program =
      .ok (.ok (crowdedHall, _)) := rfl
  have hhall : hall.Reachable :=
    .build hrows (by decide) (.built Builder.strideCalls rfl (by decide)) hbuild
  have hcrowded : crowdedHall.Reachable :=
    .build hrows' (by decide) (.built Builder.strideCalls rfl (by decide)) hbuild'
  have hcells : hall.board.grid.cells.map Cell.isWalkable =
      crowdedHall.board.grid.cells.map Cell.isWalkable := by
    rw [← Array.toList_inj, Array.toList_map, Array.toList_map]
    rfl
  have hstarted := hcrowded.perform (show Request.start.IsAdmissible from trivial) rfl
  obtain ⟨ready, c, count, t, d, hready, ht, hlive, hcount⟩ :=
    agents_separate.1 _ hstarted (by decide)
  obtain ⟨s₁, c₁, ns, s₂, c₂, t₁, d₁, ms, t₂, d₂, a, b, hs₁, hs₂, ht₁, ht₂, ha, hb, hsame⟩ :=
    agents_separate.2 hall crowdedHall 3 0 1 ⟨⟨1, 0⟩, .southEast⟩ hhall hcrowded rfl rfl (by decide)
      (by decide) rfl rfl rfl rfl hcells rfl rfl
  have hcounted : count = 2 := by
    cases ht
    rfl
  have hmoved : a.id ≠ b.id ∧ a.pos = ⟨2, 0⟩ := by
    cases hs₁
    cases hs₂
    cases ht₁
    cases ht₂
    cases ha
    cases hb
    exact ⟨by decide, rfl⟩
  rw [hcounted] at ht hcount
  exact ⟨hhall, hcrowded, ⟨_, ready, c, t, d, hready, ht, hlive, hcount⟩, s₁, c₁, ns, s₂, c₂, t₁, d₁,
    ms, t₂, d₂, a, b, hs₁, hs₂, ht₁, ht₂, ha, hb, hsame, hmoved.1, hmoved.2⟩

end Simulation

end TileWalk
