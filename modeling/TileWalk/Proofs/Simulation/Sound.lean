import TileWalk.Proofs.Simulation.Arrivals
import TileWalk.Proofs.Simulation.Attained

/-!
# Sound simulations

A simulation is sound if its board and its program are what boards and programs are meant to be,
its agents are numbered in order, all of them are sound, and its items are counted. Beginning anew
makes it sound (`Simulation.Sound.of_begun`), a tick keeps it sound (`Simulation.Sound.step`), and
so every simulation that a host can reach is sound (`Simulation.Reachable.sound`).
-/

namespace TileWalk

open Outcome

/-! ### Agents of a new world -/

namespace Agent

variable {p : Program} {g : Grid} {a : Agent} {id : AgentId} {s : Spawn}

theorem sound_of_spawn (hs : g.isWalkable s.pos = true) (h : spawn id s g = .ok a) :
    a.Sound p g := by
  obtain ⟨o, ho, rfl⟩ := spawn_eq_ok_iff.mp h
  have hcoherent : Coherent ⟨id, s.pos, s.facing, o, none, .idle, none, none⟩ :=
    ⟨fun _ => ⟨rfl, rfl⟩, fun h => (nomatch h), fun _ h => (nomatch h)⟩
  exact ⟨hcoherent, hs, ho, fun _ h => (nomatch h), fun _ h => (nomatch h), fun _ h => (nomatch h)⟩

/-- An agent that has not begun can begin any closed program. -/
theorem sound_begun_of_spawn (hp : p.IsClosed) (hs : g.isWalkable s.pos = true)
    (h : spawn id s g = .ok a) : (a.begun p).Sound p g := by
  obtain ⟨o, ho, rfl⟩ := spawn_eq_ok_iff.mp h
  have hfollow : ∀ sequel, (∀ id, sequel = .resume (some id) → id.index < p.size) →
      (follow ⟨id, s.pos, s.facing, o, none, .idle, none, none⟩ sequel).Sound p g :=
    fun sequel hsequel => sound_follow rfl rfl hs ho hsequel
  unfold begun
  cases hroot : p.root with
  | some root =>
    refine hfollow (.resume (some root)) fun id hid => ?_
    cases hid
    exact hp.root_lt hroot
  | none => exact hfollow (.finish .endOfProgram) fun id hid => (nomatch hid)

theorem coherent_begun_of_spawn (h : spawn id s g = .ok a) : (a.begun p).Coherent := by
  obtain ⟨o, -, rfl⟩ := spawn_eq_ok_iff.mp h
  unfold begun
  cases p.root with
  | some root => exact coherent_follow rfl rfl (.resume (some root))
  | none => exact coherent_follow rfl rfl (.finish .endOfProgram)

theorem begun_id (p : Program) (a : Agent) : (a.begun p).id = a.id := by
  unfold begun
  cases p.root <;> rfl

end Agent

/-- The agents of a new world are numbered from zero. -/
theorem World.map_index_of_ofBoard {b : Board} {w : World} (hb : b.IsProper)
    (h : World.ofBoard b = .ok w) :
    (w.agents.map Agent.id).map Ident.index = List.range w.agents.length := by
  have hlength : w.agents.length = b.spawns.length := by
    simpa using congrArg List.length (World.map_id_of_ofBoard h)
  rw [World.map_id_of_ofBoard h, List.map_map, hlength]
  refine (List.map_congr_left fun n hn => ?_).trans (List.map_id _)
  exact Ident.index_ofIndex (Nat.lt_trans (List.mem_range.mp hn) hb.length_spawns_lt)

theorem World.isCounted_of_ofBoard {b : Board} {w : World} (h : World.ofBoard b = .ok w) :
    w.stock.IsCounted :=
  (Stock.isCounted_ofBoard b).collectAll (World.ofBoard_eq_ok_iff.mp h).2

/-! ### Simulations -/

namespace Simulation

variable {s t : Simulation} {c : Chronicle} {program : Program} {w : World}

/-- What holds of every simulation. -/
structure Sound (s : Simulation) : Prop where
  board : s.board.IsProper
  program : s.program.IsClosed
  /-- The agents are numbered in the order of their starting places. -/
  ids : s.world.agents.map Agent.id = (List.range s.board.spawns.length).map Ident.ofIndex
  agents : ∀ a ∈ s.world.agents, a.Sound s.program s.board.grid
  counted : s.world.stock.IsCounted

namespace Sound

theorem of_ofBoard (hs : s.board.IsProper) (hp : s.program.IsClosed)
    (hw : World.ofBoard s.board = .ok s.world) : s.Sound := by
  refine ⟨hs, hp, World.map_id_of_ofBoard hw, fun a ha => ?_, World.isCounted_of_ofBoard hw⟩
  obtain ⟨n, sp, hsp, hspawn⟩ := World.exists_spawn_of_mem hw ha
  exact Agent.sound_of_spawn (hs.spawn_walkable sp hsp) hspawn

theorem of_begun (hs : s.board.IsProper) (hp : s.program.IsClosed)
    (hw : World.ofBoard s.board = .ok w) : (s.begun w).Sound := by
  have hcounted : w.stock.IsCounted := World.isCounted_of_ofBoard hw
  refine ⟨hs, hp, ?_, fun a ha => ?_, hcounted⟩
  · show (w.agents.map (Agent.begun s.program)).map Agent.id = _
    have hid : Agent.id ∘ Agent.begun s.program = Agent.id := funext (Agent.begun_id s.program)
    rw [List.map_map, hid]
    exact World.map_id_of_ofBoard hw
  · obtain ⟨a', ha', rfl⟩ := List.mem_map.mp ha
    obtain ⟨n, sp, hsp, hspawn⟩ := World.exists_spawn_of_mem hw ha'
    exact Agent.sound_begun_of_spawn hp (hs.spawn_walkable sp hsp) hspawn

theorem start (hs : s.Sound) (h : s.start = .ok (t, c)) : t.Sound := by
  obtain ⟨w, hw, rfl⟩ := exists_start_iff.mp ⟨c, h⟩
  exact of_begun hs.board hs.program hw

theorem reset (hs : s.Sound) (h : s.reset = .ok (t, c)) : t.Sound := by
  obtain ⟨w, hw, rfl⟩ := exists_reset_iff.mp ⟨c, h⟩
  exact of_ofBoard hs.board hs.program hw

theorem load (hs : s.Sound) (hp : program.IsClosed) (h : s.load program = .ok (t, c)) :
    t.Sound := by
  obtain ⟨w, hw, rfl⟩ := exists_load_iff.mp ⟨c, h⟩
  exact of_ofBoard hs.board hp hw

/-- The agents of a sound simulation are coherent. -/
theorem coherent (hs : s.Sound) : ∀ a ∈ s.world.agents, a.Coherent :=
  fun a ha => (hs.agents a ha).toCoherent

theorem step (hs : s.Sound) {count : Nat} (h : s.step = .ok (count, t, c)) : t.Sound := by
  have hlives := forall₂_lives_of_step hs.coherent h
  have hids : s.world.agents.map Agent.id = t.world.agents.map Agent.id := by
    rw [← List.forall₂_eq_eq_eq, List.forall₂_map_left_iff, List.forall₂_map_right_iff]
    exact hlives.imp fun a b hab => hab.id_eq.symm
  obtain ⟨_, stock, _, _, _, _, hmoved, -, -, rfl, -⟩ := step_eq_ok_iff.mp h
  refine ⟨hs.board, hs.program, hids.symm.trans hs.ids, fun b hb => ?_, ?_⟩
  · obtain ⟨a, ha, hab⟩ := exists_mem_of_forall₂ hlives hb
    exact hab.sound hs.program (hs.agents a ha)
  · exact hs.counted.collectAll (collectAll_of_moveAgents hmoved)

end Sound

end Simulation

/-! ### Reachable simulations -/

/-- Every small step keeps a simulation sound. -/
theorem Record.Attained.sound {r : Record} (h : r.Attained) : r.sim.Sound := by
  induction h with
  | build hboard hcells hprogram hbuild =>
    obtain ⟨-, w, hw, rfl⟩ := Simulation.exists_build_iff.mp ⟨_, hbuild⟩
    exact .of_ofBoard (Board.isProper_of_ofRows hboard hcells) hprogram.isClosed hw
  | start hr hs ih => exact ih.start hs
  | reset hr hs ih => exact ih.reset hs
  | load hr hprogram hs ih => exact ih.load hprogram.isClosed hs
  | exchange hr queue hqueue ih => exact ⟨ih.board, ih.program, ih.ids, ih.agents, ih.counted⟩
  | configure hr config ih => exact ⟨ih.board, ih.program, ih.ids, ih.agents, ih.counted⟩
  | step hr ht ih =>
    obtain ⟨_, _, _, hs, rfl⟩ := Record.step_eq_ok_iff.mp ht
    exact ih.step hs
  | settle hr ih => exact ⟨ih.board, ih.program, ih.ids, ih.agents, ih.counted⟩
  | endRun hr ih => exact ih

namespace Simulation

variable {s : Simulation}

theorem IsAttained.sound (h : s.IsAttained) : s.Sound := by
  obtain ⟨r, hr, rfl⟩ := h
  exact hr.sound

theorem Reachable.sound (h : s.Reachable) : s.Sound :=
  h.isAttained.sound

/-- There are as many agents as starting places. -/
theorem Sound.length_agents (hs : s.Sound) : s.world.agents.length = s.board.spawns.length := by
  simpa using congrArg List.length hs.ids

theorem Sound.index_id (hs : s.Sound) {i : Nat} {a : Agent}
    (ha : s.world.agents[i]? = some a) : a.id.index = i := by
  have hid : (s.world.agents.map Agent.id)[i]? = some a.id := by rw [List.getElem?_map, ha]; rfl
  rw [hs.ids, List.getElem?_map] at hid
  obtain ⟨n, hn, hid⟩ := Option.map_eq_some_iff.mp hid
  obtain ⟨hi, rfl⟩ := List.getElem?_eq_some_iff.mp hn
  rw [List.length_range] at hi
  rw [List.getElem_range] at hid
  rw [← hid]
  exact Ident.index_ofIndex (Nat.lt_trans hi hs.board.length_spawns_lt)

theorem Sound.pairwise_agents (hs : s.Sound) :
    s.world.agents.Pairwise fun a b => a.id.index < b.id.index := by
  have hids : (s.world.agents.map Agent.id).Pairwise fun a b => a.index < b.index := by
    rw [hs.ids, List.pairwise_map]
    refine List.pairwise_lt_range.imp_of_mem fun {m n} hm hn hmn => ?_
    have hlt : ∀ n ∈ List.range s.board.spawns.length, n < UInt32.size := fun n hn =>
      Nat.lt_trans (List.mem_range.mp hn) hs.board.length_spawns_lt
    rw [Ident.index_ofIndex (hlt m hm), Ident.index_ofIndex (hlt n hn)]
    exact hmn
  rw [List.pairwise_map] at hids
  exact hids

/-- Whatever a host asks for, every agent keeps its number, stands on a cell of the board that can
be walked on, knows what is around it, and agrees with itself about what it is doing. -/
theorem Reachable.agent_invariant (h : s.Reachable) {i : Nat} {a : Agent}
    (ha : s.world.agents[i]? = some a) :
    a.id.index = i ∧
    (s.board.grid.contains a.pos = true ∧ s.board.grid.isWalkable a.pos = true) ∧
    Openings.around s.board.grid a.pos a.facing = .ok a.openings ∧
    (a.motion.isSome = true ↔ a.isMoving = true) ∧
    (a.isMoving = true → a.cursor = none ∧ a.finished = none) ∧
    (∀ m, a.motion = some m → m.origin = a.pos ∧ m.dir = a.facing.vector ∧
      1 ≤ m.remaining.toNat ∧ m.remaining.toNat ≤ m.total.toNat ∧
      ∃ goal, m.destination = .ok goal ∧ s.board.grid.isWalkable goal = true) ∧
    (a.isExecuting = true → a.motion = none ∧ a.finished = none) ∧
    (a.isIdle = true → a.cursor = none ∧ a.motion = none) ∧
    (∀ id, a.cursor = some id ∨ a.phase = .moving (.resume (some id)) →
      id.index < s.program.size) := by
  have hs := h.sound
  have hsound := hs.agents a (List.mem_of_getElem? ha)
  have hmotion : a.motion.isSome = true → a.isMoving = true := by
    intro hm
    obtain ⟨m, hm⟩ := Option.isSome_iff_exists.mp hm
    cases hphase : a.phase with
    | idle =>
      rw [(hsound.of_idle hphase).2] at hm
      cases hm
    | executing =>
      rw [(hsound.of_executing hphase).1] at hm
      cases hm
    | moving sequel => exact Agent.isMoving_iff.mpr ⟨sequel, hphase⟩
  refine ⟨hs.index_id ha, ⟨Grid.contains_of_isWalkable hsound.walkable, hsound.walkable⟩,
    hsound.openings_eq, ⟨hmotion, fun hmoving => ?_⟩, fun hmoving => ?_, fun m hm => ?_,
    fun hexec => ?_, fun hidle => ?_, fun id hid => ?_⟩
  · obtain ⟨sequel, hphase⟩ := Agent.isMoving_iff.mp hmoving
    obtain ⟨-, -, m, hm, -⟩ := hsound.of_moving sequel hphase
    rw [hm]
    rfl
  · obtain ⟨sequel, hphase⟩ := Agent.isMoving_iff.mp hmoving
    obtain ⟨hcursor, hfinished, -⟩ := hsound.of_moving sequel hphase
    exact ⟨hcursor, hfinished⟩
  · obtain ⟨sequel, hphase⟩ := Agent.isMoving_iff.mp (hmotion (hm ▸ rfl))
    obtain ⟨-, -, m', hm', hway⟩ := hsound.of_moving sequel hphase
    obtain rfl := Option.some.inj (hm.symm.trans hm')
    exact ⟨hway.origin_eq, hway.dir_eq, hway.remaining_pos, hway.remaining_le,
      hsound.goal_walkable m hm⟩
  · exact hsound.of_executing (Agent.isExecuting_iff.mp hexec)
  · exact hsound.of_idle (Agent.isIdle_iff.mp hidle)
  · rcases hid with hcursor | hphase
    · exact hsound.cursor_lt id hcursor
    · exact hsound.sequel_lt id hphase

/-- In the middle of a step the agent of the corridor still stands on the cell that it leaves. -/
theorem agent_invariant_corridor : ∃ (s : Simulation) (a : Agent), s.Reachable ∧
    s.world.agents[0]? = some a ∧ a.isMoving = true ∧ a.id.index = 0 ∧ a.cursor = none ∧
      ∃ m, a.motion = some m ∧ m.origin = a.pos ∧ 1 ≤ m.remaining.toNat := by
  have hstarted := reachable_corridor.perform (show Request.start.IsAdmissible from trivial) rfl
  have hs := hstarted.perform (show (Request.tickMany 2).IsAdmissible from trivial) rfl
  obtain ⟨hid, -, -, -, hmoving, hmotion, -⟩ := hs.agent_invariant (i := 0) rfl
  obtain ⟨horigin, -, hpos, -⟩ := hmotion _ rfl
  exact ⟨_, _, hs, rfl, rfl, hid, (hmoving rfl).1, _, rfl, horigin, hpos⟩

end Simulation

end TileWalk
