import TileWalk.Proofs.Agent.Turned
import TileWalk.Proofs.Board.TurnedRows
import TileWalk.Proofs.Simulation.Separate
import TileWalk.Proofs.Simulation.Visits

/-!
# Runs on a turned board

Nothing in a run prefers a direction. On the turned board every agent goes where the agent of the
board is carried, and the hidden items are those to which the hidden items of the board are carried
(`Simulation.Reachable.run_turned`). Only the order of agents and items differs, for cells are listed
row by row.
-/

namespace TileWalk

open Outcome

/-! ### Agents -/

namespace Agent

variable {p : Program} {g g' : Grid} {frames : UInt32} {a b : Agent} {w k : Nat} {id : AgentId}
  {sp : Spawn}

/-- What an agent of the board and the agent of the turned board that started where it is carried
have to do with each other; their numbers may differ. -/
structure IsTurned (w : Nat) (a a' : Agent) : Prop where
  pos_eq : a'.pos = a.pos.turned w
  facing_eq : a'.facing = a.facing.left
  openings_eq : a'.openings = a.openings
  cursor_eq : a'.cursor = a.cursor
  phase_eq : a'.phase = a.phase
  finished_eq : a'.finished = a.finished
  motion : Option.Rel (fun m m' => m'.origin = m.origin.turned w ∧ m.dir.turnLeft = .ok m'.dir ∧
    m'.total = m.total ∧ m'.remaining = m.remaining) a.motion a'.motion

theorem Coherent.isTurned (h : a.Coherent) (w : Nat) (id : AgentId) :
    a.IsTurned w ((a.turned w).renamed id) := by
  refine ⟨rfl, rfl, rfl, rfl, rfl, rfl, ?_⟩
  show Option.Rel _ a.motion (a.motion.map (Motion.turned w))
  cases hm : a.motion with
  | none => exact .none
  | some m =>
    have hway := h.isUnderWay hm
    refine .some ⟨rfl, ?_, rfl, rfl⟩
    show m.dir.turnLeft = .ok m.dir.turned
    rw [hway.dir_eq, Facing.turnLeft_vector, Facing.vector_left]

theorem begun_renamed (p : Program) (a : Agent) (id : AgentId) :
    (a.renamed id).begun p = (a.begun p).renamed id := by
  unfold begun
  cases p.root <;> rfl

theorem begun_turned (p : Program) (a : Agent) (w : Nat) :
    (a.turned w).begun p = (a.begun p).turned w := by
  unfold begun
  cases p.root <;> rfl

/-- Who starts where an agent is carried, starts as the agent that is carried over. -/
theorem spawn_turned (ht : g.IsTurned g') (hg : g.IsSmall) (hsp : g.isWalkable sp.pos = true)
    (h : spawn id sp g = .ok a) (id' : AgentId) :
    spawn id' (sp.turned g.width) g' = .ok ((a.turned g.width).renamed id') := by
  obtain ⟨o, ho, rfl⟩ := spawn_eq_ok_iff.mp h
  rw [spawn_eq_ok_iff]
  exact ⟨o, ht.around hg (Grid.contains_of_isWalkable hsp) ho, rfl⟩

/-! ### The cells to which an agent comes -/

theorem goal?_turned (w : Nat) (a : Agent) : (a.turned w).goal? = a.goal?.map (Pos.turned w) := by
  have hremain : (a.turned w).remainFrames = a.remainFrames := by
    unfold remainFrames turned
    cases a.motion <;> rfl
  unfold goal?
  rw [hremain]
  split
  · rw [Option.map_some, Pos.ahead_turned]
    rfl
  · rfl

theorem goal?_renamed (id : AgentId) (a : Agent) : (a.renamed id).goal? = a.goal? :=
  rfl

/-- An agent that is carried over comes to the cells that are carried over. -/
theorem Sound.visits_turned (hs : a.Sound p g) (hp : p.IsClosed) (ht : g.IsTurned g')
    (hg : g.IsSmall) (id : AgentId) (hs' : ((a.turned g.width).renamed id).Sound p g') :
    visits p g' frames k ((a.turned g.width).renamed id) =
      (visits p g frames k a).map (Pos.turned g.width) := by
  induction k generalizing a with
  | zero => rfl
  | succ k ih =>
    obtain ⟨b, hlive, hlives, hb⟩ := hs.exists_lives hp hg frames
    have hlive' := live_renamed id (hlives.turned ht hg hs).live_eq_ok
    have hb' := (hs'.toCoherent.lives hlive').sound hp hs'
    rw [visits_succ hlive, visits_succ hlive', ih hb hb', hs.arrival?_eq_goal? hg,
      hs'.arrival?_eq_goal? (ht.isSmall hg), goal?_renamed, goal?_turned, List.map_append]
    cases a.goal? <;> rfl

end Agent

/-! ### Worlds at the beginning of a run -/

namespace World

variable {b b' : Board} {w w' : World} {a : Agent} {sp : Spawn}

/-- Somebody starts at every starting place. -/
theorem exists_mem_of_mem_spawns (hw : ofBoard b = .ok w) (hsp : sp ∈ b.spawns) :
    ∃ a ∈ w.agents, ∃ id, Agent.spawn id sp b.grid = .ok a := by
  obtain ⟨i, hi⟩ := List.mem_iff_getElem?.mp hsp
  obtain ⟨a, ha, hspawn⟩ := exists_agent_of_ofBoard hw hi
  exact ⟨a, List.mem_of_getElem? ha, _, hspawn⟩

/-- The agents of the turned board are those of the board, carried over. -/
theorem exists_turned_of_ofBoard (hb : b.IsProper) (ht : b.grid.IsTurned b'.grid)
    (hspawns : b'.spawns.Perm (b.spawns.map (Spawn.turned b.grid.width)))
    (hw : ofBoard b = .ok w) (hw' : ofBoard b' = .ok w') :
    (∀ a ∈ w.agents, ∃ id, (a.turned b.grid.width).renamed id ∈ w'.agents) ∧
      ∀ a' ∈ w'.agents, ∃ a ∈ w.agents, ∃ id, a' = (a.turned b.grid.width).renamed id := by
  constructor
  · intro a ha
    obtain ⟨n, sp, hsp, hspawn⟩ := exists_spawn_of_mem hw ha
    have hsp' : sp.turned b.grid.width ∈ b'.spawns :=
      hspawns.mem_iff.mpr (List.mem_map_of_mem hsp)
    obtain ⟨a', ha', id, hspawn'⟩ := exists_mem_of_mem_spawns hw' hsp'
    have hcarried := Agent.spawn_turned ht hb.small (hb.spawn_walkable sp hsp) hspawn id
    obtain rfl := Except.ok.inj (hspawn'.symm.trans hcarried)
    exact ⟨id, ha'⟩
  · intro a' ha'
    obtain ⟨n, sp', hsp', hspawn'⟩ := exists_spawn_of_mem hw' ha'
    obtain ⟨sp, hsp, rfl⟩ := List.mem_map.mp (hspawns.mem_iff.mp hsp')
    obtain ⟨a, ha, id, hspawn⟩ := exists_mem_of_mem_spawns hw hsp
    have hcarried := Agent.spawn_turned ht hb.small (hb.spawn_walkable sp hsp) hspawn
      (Ident.ofIndex n)
    exact ⟨a, ha, _, Except.ok.inj (hspawn'.symm.trans hcarried)⟩

end World

/-! ### Runs -/

/-- A simulation has the board of some rows. -/
theorem Record.Attained.exists_rows {r : Record} (h : r.Attained) :
    ∃ rows, Board.ofRows rows = .ok r.sim.board := by
  induction h with
  | build hboard hcells hprogram hbuild =>
    obtain ⟨-, w, -, rfl⟩ := Simulation.exists_build_iff.mp ⟨_, hbuild⟩
    exact ⟨_, hboard⟩
  | start hr hs ih =>
    obtain ⟨w, -, rfl⟩ := Simulation.exists_start_iff.mp ⟨_, hs⟩
    exact ih
  | reset hr hs ih =>
    obtain ⟨w, -, rfl⟩ := Simulation.exists_reset_iff.mp ⟨_, hs⟩
    exact ih
  | load hr hprogram hs ih =>
    obtain ⟨w, -, rfl⟩ := Simulation.exists_load_iff.mp ⟨_, hs⟩
    exact ih
  | exchange hr queue hqueue ih => exact ih
  | configure hr config ih => exact ih
  | step hr ht ih =>
    obtain ⟨count, u, c, hu, rfl⟩ := Record.step_eq_ok_iff.mp ht
    show ∃ rows, Board.ofRows rows = .ok u.board
    rw [(Simulation.frame_of_step hu).2.1]
    exact ih
  | settle hr ih => exact ih
  | endRun hr ih => exact ih

namespace Simulation

variable {s t s₁ s₂ t₁ t₂ : Simulation} {c₁ c₂ d₁ d₂ : Chronicle} {ns ms : List Nat} {i j k : Nat}
  {sp : Spawn} {w w' : World} {pos : Pos}

theorem Reachable.exists_rows (h : s.Reachable) : ∃ rows, Board.ofRows rows = .ok s.board := by
  obtain ⟨r, hr, rfl⟩ := h.isAttained
  exact hr.exists_rows

/-- Two simulations differ, as far as runs are concerned, in that the board of the second one is
turned to the left. -/
structure IsTurned (s t : Simulation) : Prop where
  grid : s.board.grid.IsTurned t.board.grid
  program_eq : t.program = s.program
  moveFrames_eq : t.config.moveFrames = s.config.moveFrames

/-- On the turned board the cells are reached to which those that are reached are carried. -/
theorem IsTurned.mem_reached_iff (h : s.IsTurned t) (hs : s.Sound) (ht : t.Sound)
    (hspawns : t.board.spawns.Perm (s.board.spawns.map (Spawn.turned s.board.grid.width)))
    (hw : World.ofBoard s.board = .ok w) (hw' : World.ofBoard t.board = .ok w') :
    pos.turned s.board.grid.width ∈ (t.begun w').reached k ↔ pos ∈ (s.begun w).reached k := by
  have hbegun := Sound.of_begun hs.board hs.program hw
  have hbegun' := Sound.of_begun ht.board ht.program hw'
  obtain ⟨hthere, hback⟩ := World.exists_turned_of_ofBoard hs.board h.grid hspawns hw hw'
  have hplaces : (t.board.spawns.map Spawn.pos).Perm
      ((s.board.spawns.map Spawn.pos).map (Pos.turned s.board.grid.width)) := by
    have hperm := hspawns.map Spawn.pos
    rw [List.map_map] at hperm ⊢
    exact hperm
  -- whoever is carried over comes to the cells that are carried over
  have hvisits : ∀ a ∈ w.agents, ∀ id, (a.turned s.board.grid.width).renamed id ∈ w'.agents →
      (pos.turned s.board.grid.width ∈ Agent.visits t.program t.board.grid t.config.moveFrames k
          (((a.turned s.board.grid.width).renamed id).begun t.program) ↔
        pos ∈ Agent.visits s.program s.board.grid s.config.moveFrames k (a.begun s.program)) := by
    intro a ha id ha'
    have hsound : (a.begun s.program).Sound s.program s.board.grid :=
      hbegun.agents _ (List.mem_map_of_mem ha)
    have hsound' : Agent.Sound t.program t.board.grid _ :=
      hbegun'.agents _ (List.mem_map_of_mem ha')
    rw [Agent.begun_renamed, Agent.begun_turned, h.program_eq] at hsound' ⊢
    rw [h.moveFrames_eq, hsound.visits_turned hs.program h.grid hs.board.small id hsound',
      List.mem_map_of_injective (Pos.turned_injective _)]
  unfold reached
  rw [List.mem_append, List.mem_append]
  refine or_congr ?_ ?_
  · exact hplaces.mem_iff.trans (List.mem_map_of_injective (Pos.turned_injective _))
  simp only [List.mem_flatMap]
  constructor
  · rintro ⟨x, hx, hpos⟩
    obtain ⟨a', ha', rfl⟩ := List.mem_map.mp hx
    obtain ⟨a, ha, id, rfl⟩ := hback a' ha'
    exact ⟨_, List.mem_map_of_mem ha, (hvisits a ha id ha').mp hpos⟩
  · rintro ⟨x, hx, hpos⟩
    obtain ⟨a, ha, rfl⟩ := List.mem_map.mp hx
    obtain ⟨id, ha'⟩ := hthere a ha
    exact ⟨_, List.mem_map_of_mem ha', (hvisits a ha id ha').mpr hpos⟩

/-- The agent that started where a starting place is carried is where the agent that started there is
carried. -/
theorem IsTurned.exists_agents (h : s.IsTurned t) (hs : s.Sound) (hq : s.queue = [])
    (hq' : t.queue = []) (hstart : s.start = .ok (s₁, c₁))
    (hticks : s₁.tickMany k = .ok (ns, s₂, c₂)) (hstart' : t.start = .ok (t₁, d₁))
    (hticks' : t₁.tickMany k = .ok (ms, t₂, d₂)) (hi : s.board.spawns[i]? = some sp)
    (hj : t.board.spawns[j]? = some (sp.turned s.board.grid.width)) :
    ∃ a a', s₂.world.agents[i]? = some a ∧ t₂.world.agents[j]? = some a' ∧
      a.IsTurned s.board.grid.width a' := by
  have hwalkable := hs.board.spawn_walkable sp (List.mem_of_getElem? hi)
  obtain ⟨a, b, ha, hb, hlives⟩ := exists_agent_of_run hq hstart hticks hi
  obtain ⟨a', b', ha', hb', hlives'⟩ := exists_agent_of_run hq' hstart' hticks' hj
  have hcarried := Agent.spawn_turned h.grid hs.board.small hwalkable ha (Ident.ofIndex j)
  obtain rfl := Except.ok.inj (ha'.symm.trans hcarried)
  have hsound := Agent.sound_begun_of_spawn hs.program hwalkable ha
  have hturned := Agent.liveFor_renamed (Ident.ofIndex j)
    (hsound.liveFor_turned hs.program h.grid hs.board.small hlives)
  rw [h.program_eq, h.moveFrames_eq, Agent.begun_renamed, Agent.begun_turned, hturned] at hlives'
  obtain rfl := Except.ok.inj hlives'
  have hsame := hs.of_run hq hstart hticks
  exact ⟨b, _, hb, hb', (hsame.coherent b (List.mem_of_getElem? hb)).isTurned _ _⟩

/-- The hidden items of the turned board are those of the board, carried over. -/
theorem IsTurned.perm_hidden (h : s.IsTurned t) (hs : s.Sound) (ht : t.Sound)
    (hspawns : t.board.spawns.Perm (s.board.spawns.map (Spawn.turned s.board.grid.width)))
    (hitems : t.board.items.Perm (s.board.items.map (Pos.turned s.board.grid.width)))
    (hq : s.queue = []) (hq' : t.queue = []) (hstart : s.start = .ok (s₁, c₁))
    (hticks : s₁.tickMany k = .ok (ns, s₂, c₂)) (hstart' : t.start = .ok (t₁, d₁))
    (hticks' : t₁.tickMany k = .ok (ms, t₂, d₂)) :
    t₂.world.stock.hidden.Perm
      (s₂.world.stock.hidden.map (Pos.turned s.board.grid.width)) := by
  rw [hs.hidden_of_run hq hstart hticks, ht.hidden_of_run hq' hstart' hticks']
  obtain ⟨w, hw, rfl⟩ := exists_start_iff.mp ⟨c₁, hstart⟩
  obtain ⟨w', hw', rfl⟩ := exists_start_iff.mp ⟨d₁, hstart'⟩
  have hcells : ∀ pos ∈ s.board.items,
      ((t.begun w').reached k).contains (pos.turned s.board.grid.width) =
        ((s.begun w).reached k).contains pos := by
    intro pos _
    rw [Bool.eq_iff_iff, List.contains_iff_mem, List.contains_iff_mem,
      h.mem_reached_iff hs ht hspawns hw hw']
  have hperm := hitems.filter ((t.begun w').reached k).contains
  rw [List.filter_map] at hperm
  rw [← List.filter_congr hcells]
  exact hperm

/-- Nothing prefers a direction. The board of a simulation can be turned to the left. A simulation of
the turned board that has the same program and whose moves take as long starts as well, and after as
many ticks the agent that started where a starting place is carried is carried itself: its place and
the place that it leaves, its facing and its step turn along with the board, and all the rest is the
same but for its number. The hidden items are those that are carried over, so as many items are
left. -/
theorem Reachable.run_turned (h : s.Reachable) (hq : s.queue = [])
    (hend : s.clock.count.toNat + k < 2 ^ 64) :
    (∃ rows board, Board.ofRows rows = .ok board ∧ s.board.grid.IsTurned board.grid) ∧
    ∀ t : Simulation, t.Reachable → s.IsTurned t → t.queue = [] →
      t.clock.count.toNat + k < 2 ^ 64 →
      ∃ s₁ c₁ ns s₂ c₂ t₁ d₁ ms t₂ d₂,
        s.start = .ok (s₁, c₁) ∧ s₁.tickMany k = .ok (ns, s₂, c₂) ∧
        t.start = .ok (t₁, d₁) ∧ t₁.tickMany k = .ok (ms, t₂, d₂) ∧
        t.board.spawns.Perm (s.board.spawns.map (Spawn.turned s.board.grid.width)) ∧
        (∀ (i j : Nat) (sp : Spawn), s.board.spawns[i]? = some sp →
          t.board.spawns[j]? = some (sp.turned s.board.grid.width) →
          ∃ a a', s₂.world.agents[i]? = some a ∧ t₂.world.agents[j]? = some a' ∧
            a.IsTurned s.board.grid.width a') ∧
        t₂.world.stock.hidden.Perm
          (s₂.world.stock.hidden.map (Pos.turned s.board.grid.width)) ∧
        t₂.world.remainingItems = s₂.world.remainingItems := by
  have hs := h.sound
  have hsmall := hs.board.small
  obtain ⟨rows, hrows⟩ := h.exists_rows
  constructor
  · obtain ⟨board, hboard, hturned⟩ := Board.exists_ofRows_turnRows hrows hsmall
    exact ⟨_, board, hboard, hturned⟩
  intro t ht hturned hq' hend'
  have hs' := ht.sound
  obtain ⟨rows', hrows'⟩ := ht.exists_rows
  have hspawns := Board.perm_spawns_turned hrows hrows' hsmall hturned.grid
  have hitems := Board.perm_items_turned hrows hrows' hsmall hturned.grid
  obtain ⟨s₁, c₁, ns, s₂, c₂, hstart, hticks⟩ := exists_run hs.board hs.program hq hend
  obtain ⟨t₁, d₁, ms, t₂, d₂, hstart', hticks'⟩ := exists_run hs'.board hs'.program hq' hend'
  have hhidden := hturned.perm_hidden hs hs' hspawns hitems hq hq' hstart hticks hstart' hticks'
  have hremaining : t₂.world.remainingItems = s₂.world.remainingItems := by
    have hlength := hhidden.length_eq
    have hall := hitems.length_eq
    have hsum := hs.remaining_of_run hq hstart hticks
    have hsum' := hs'.remaining_of_run hq' hstart' hticks'
    rw [List.length_map] at hlength hall
    omega
  refine ⟨s₁, c₁, ns, s₂, c₂, t₁, d₁, ms, t₂, d₂, hstart, hticks, hstart', hticks', hspawns, ?_,
    hhidden, hremaining⟩
  intro i j sp hi hj
  exact hturned.exists_agents hs hq hq' hstart hticks hstart' hticks' hi hj

/-- The corridor, turned to the left: the item lies above the starting place. -/
def turnedCorridor : Simulation where
  config := corridor.config
  clock := Tick.zero
  board := ⟨⟨1, 2, #[⟨3⟩, ⟨13⟩], rfl⟩, [⟨⟨0, 1⟩, .northEast⟩], [⟨0, 0⟩]⟩
  program := corridor.program
  world :=
    ⟨[⟨⟨0⟩, ⟨0, 1⟩, .northEast, ⟨true, false, false, false⟩, none, .idle, none, none⟩],
      ⟨[⟨⟨0⟩, ⟨0, 0⟩, true⟩], 1⟩⟩
  queue := []
  unreported := []

/-- After four ticks the agent of the corridor stands on the item, and so does the agent of the turned
corridor. -/
theorem run_turned_corridor : ∃ s₁ c₁ ns s₂ c₂ t₁ d₁ ms t₂ d₂ a a',
    turnedCorridor.Reachable ∧ corridor.IsTurned turnedCorridor ∧
    corridor.start = .ok (s₁, c₁) ∧ s₁.tickMany 4 = .ok (ns, s₂, c₂) ∧
    turnedCorridor.start = .ok (t₁, d₁) ∧ t₁.tickMany 4 = .ok (ms, t₂, d₂) ∧
    s₂.world.agents[0]? = some a ∧ t₂.world.agents[0]? = some a' ∧ a.IsTurned 2 a' ∧
    t₂.world.stock.hidden.Perm (s₂.world.stock.hidden.map (Pos.turned 2)) ∧
    t₂.world.remainingItems = s₂.world.remainingItems := by
  have hrows : Board.ofRows [[5, 3]] = .ok corridor.board := rfl
  have hturn : Board.turnRows [[5, 3]] = [[3], [13]] := by decide
  have hrows' : Board.ofRows (Board.turnRows [[5, 3]]) = .ok turnedCorridor.board := by
    rw [hturn]
    rfl
  have hbuild : build turnedCorridor.board corridor.config corridor.program =
      .ok (.ok (turnedCorridor, _)) := rfl
  have hreachable : turnedCorridor.Reachable :=
    .build hrows' (by decide) (.built Builder.strideCalls rfl (by decide)) hbuild
  obtain ⟨board, hboard, hturned⟩ :=
    Board.exists_ofRows_turnRows hrows reachable_corridor.sound.board.small
  obtain rfl := Except.ok.inj (hrows'.symm.trans hboard)
  have hpair : corridor.IsTurned turnedCorridor := ⟨hturned, rfl, rfl⟩
  obtain ⟨-, hruns⟩ := reachable_corridor.run_turned (k := 4) rfl (by decide)
  obtain ⟨s₁, c₁, ns, s₂, c₂, t₁, d₁, ms, t₂, d₂, hs₁, hs₂, ht₁, ht₂, -, hagents, hhidden,
    hremaining⟩ := hruns turnedCorridor hreachable hpair rfl (by decide)
  obtain ⟨a, a', ha, ha', hcarried⟩ := hagents 0 0 ⟨⟨0, 0⟩, .southEast⟩ rfl rfl
  exact ⟨s₁, c₁, ns, s₂, c₂, t₁, d₁, ms, t₂, d₂, a, a', hreachable, hpair, hs₁, hs₂, ht₁, ht₂, ha,
    ha', hcarried, hhidden, hremaining⟩

end Simulation

end TileWalk
