import TileWalk.Proofs.Agent.Recurrence
import TileWalk.Proofs.Simulation.Settings

/-!
# Endless agents

An agent that has executed more nodes than there are stations at which control is at a node, and has
not come to rest, has been at one of them twice and will never come to rest, whatever the settings
of the ticks to come are (`Simulation.Reachable.loop_bound`).
-/

namespace TileWalk

namespace Traced

variable {p : Program} {g : Grid} {st : Station} {r r' j : Nat} {log : List (Tick × Dispatch)}
  {b : Agent}

/-- Control is at a node whenever another one is executed later. -/
theorem exists_resume (h : Traced p g st r log b r') (hj : j + 1 < log.length) :
    ∃ id, (st.after p g j).sequel = .resume (some id) := by
  apply Station.exists_resume_of_succ
  obtain ⟨e, -, hnext⟩ := h.exists_dispatch? hj
  simp [hnext]

/-- Unless the agent is at rest, control has always been at a node. -/
theorem idle_or_exists_resume (h : Traced p g st r log b r') :
    b.phase = .idle ∨ ∀ j < log.length, ∃ id, (st.after p g j).sequel = .resume (some id) := by
  by_cases hall : ∀ j < log.length, ∃ id, (st.after p g j).sequel = .resume (some id)
  · exact Or.inr hall
  left
  simp only [not_forall] at hall
  obtain ⟨j, hj, hnowhere⟩ := hall
  have hlast : j + 1 = log.length := by
    by_contra hne
    exact hnowhere (h.exists_resume (by omega))
  obtain ⟨e, he, hx⟩ := h.exists_dispatch? hj
  have hcursor : e.2.isNowhere = true := by
    obtain ⟨cursor, hsequel, hdispatch⟩ := Station.dispatch?_eq_some_iff.mp hx
    rw [Dispatch.isNowhere_iff, hdispatch]
    cases hnode : cursor with
    | none => rfl
    | some id => exact absurd ⟨id, hnode ▸ hsequel⟩ hnowhere
  obtain ⟨hend, hmove⟩ := Station.of_isNowhere hx hcursor
  -- the last dispatch did not begin a move, so the agent already stands where nothing follows
  have hzero : r' = 0 := by
    apply h.moves e ?_ hmove
    rw [List.getLast?_eq_getElem?, ← hlast]
    exact he
  have hheads := h.heads
  rw [hzero, ← hlast, Station.after_add, Station.after_succ_of_some hx] at hheads
  obtain ⟨reason, hreason⟩ := Station.dispatch?_eq_none_iff.mp hend
  have hfollows : b.Follows e.2.station.sequel := hheads.2.2
  rw [hreason] at hfollows
  exact hfollows.1

/-- An agent at rest stands at the end of its itinerary. -/
theorem dispatch?_eq_none_of_idle (h : Traced p g st r log b r') (hidle : b.phase = .idle) :
    (st.after p g log.length).dispatch? p g = none := by
  obtain ⟨-, reason, hreason⟩ := h.heads.of_idle hidle
  exact Station.dispatch?_eq_none_iff.mpr ⟨reason, hreason⟩

end Traced

namespace Simulation

variable {s : Simulation} {i : Nat}

/-- A bound for loops. After a start the settings may change before every tick. An agent that has
executed more nodes than four times the number of cells to walk on times the number of nodes, and is
not at rest, does not come to rest in any number of further ticks; so an agent that is at rest has
executed one node more than this at most. -/
theorem Reachable.loop_bound (h : s.Reachable) (hq : s.queue = [])
    (hi : i < s.board.spawns.length) (before later : List Config)
    (hend : s.clock.count.toNat + before.length + later.length < 2 ^ 64) :
    ∃ s₁ c₁ log t a rest u b, s.start = .ok (s₁, c₁) ∧
      s₁.logUnder (fun u => u.dispatch? i) before = .ok (log, t) ∧ t.world.agents[i]? = some a ∧
      t.logUnder (fun u => u.dispatch? i) later = .ok (rest, u) ∧ u.world.agents[i]? = some b ∧
      (4 * s.board.grid.cells.toList.countP Cell.isWalkable * s.program.size < log.length →
        a.isIdle = false → b.isIdle = false) ∧
      (a.isIdle = true →
        log.length ≤ 4 * s.board.grid.cells.toList.countP Cell.isWalkable * s.program.size + 1) := by
  have hs := h.sound
  obtain ⟨w, hw⟩ := World.exists_ofBoard hs.board
  obtain ⟨c₁, hstart⟩ := exists_start_iff.mpr ⟨w, hw, rfl⟩
  have hbegun := Sound.of_begun hs.board hs.program hw
  obtain ⟨fresh, hfresh, hst⟩ := hs.exists_outset hw hi
  have hclock : (s.begun w).clock.count.toNat = s.clock.count.toNat := rfl
  have hbefore : (s.begun w).clock.count.toNat + before.length < 2 ^ 64 := by omega
  obtain ⟨log, t, a, r, hlog, ha, htraced⟩ := hbegun.exists_traced hq hbefore
    (getElem?_begun s hfresh) (fresh.heads_begun s.program)
  have hkeeps := hbegun.keeps_of_logUnder hq hlog
  have hnow := hkeeps.clock_eq
  have hlater : t.clock.count.toNat + later.length < 2 ^ 64 := by omega
  have hmore := hkeeps.sound.exists_traced hkeeps.queue_eq hlater ha htraced.heads
  rw [hkeeps.program_eq, hkeeps.board_eq] at hmore
  obtain ⟨rest, u, b, r', hrest, hb, htraced'⟩ := hmore
  refine ⟨_, c₁, log, t, a, rest, u, b, hstart, hlog, ha, hrest, hb, ?_, ?_⟩
  · intro hlong hbusy
    rw [← Bool.not_eq_true]
    intro hidle
    -- the agent comes to rest after all, so its itinerary ends
    have hlast := htraced'.dispatch?_eq_none_of_idle (Agent.isIdle_iff.mp hidle)
    rw [← Station.after_add] at hlast
    rcases htraced.idle_or_exists_resume with hearly | hnodes
    · rw [Agent.isIdle_iff.mpr hearly] at hbusy
      cases hbusy
    · have hle := Station.le_of_last hs.program hst hlast hnodes
      exact absurd hlong (Nat.not_lt.mpr hle)
  · intro hidle
    have hlast := htraced.dispatch?_eq_none_of_idle (Agent.isIdle_iff.mp hidle)
    have hnodes : ∀ j < log.length - 1, ∃ id,
        ((fresh.outset s.program).after s.program s.board.grid j).sequel = .resume (some id) := by
      intro j hj
      exact htraced.exists_resume (by omega)
    have hle := Station.le_of_last hs.program hst hlast hnodes
    omega

/-- One cell, and an agent on it with a program of three nodes: a function that calls itself. -/
def circling : Simulation :=
  { corridor with
    board := ⟨⟨1, 1, #[⟨5⟩], rfl⟩, [⟨⟨0, 0⟩, .southEast⟩], []⟩
    program := (Builder.ofCalls
      [.add ⟨.entry, .root, ""⟩, .chain ⟨0⟩ [⟨.entry, .funcStart, "1"⟩, ⟨.tail, .pass, "1"⟩]]).build
    world :=
      ⟨[⟨⟨0⟩, ⟨0, 0⟩, .southEast, ⟨false, false, false, false⟩, none, .idle, none, none⟩],
        ⟨[], 0⟩⟩ }

theorem reachable_circling : circling.Reachable := by
  have hboard : Board.ofRows [[5]] = .ok circling.board := rfl
  have hbuild : build circling.board circling.config circling.program =
      .ok (.ok (circling, _)) := rfl
  exact .build hboard (by decide) (.built _ rfl (by decide)) hbuild

/-- With one cell and three nodes the bound is twelve. The agent that has executed thirteen nodes and
is not at rest is not at rest after two more ticks either, whose settings differ. In the corridor,
with two cells and two nodes, the agent comes to rest, and has executed seventeen nodes at most. -/
theorem loop_bound_circling :
    (∃ s₁ log t a rest u b, (∃ c₁, circling.start = .ok (s₁, c₁)) ∧
      s₁.logUnder (fun u => u.dispatch? 0) (List.replicate 13 ⟨1, 0, 0⟩) = .ok (log, t) ∧
      t.world.agents[0]? = some a ∧
      t.logUnder (fun u => u.dispatch? 0) [⟨3, 0, 0⟩, ⟨7, 0, 0⟩] = .ok (rest, u) ∧
      u.world.agents[0]? = some b ∧ log.length = 13 ∧ a.isIdle = false ∧ b.isIdle = false) ∧
    ∃ s₁ log t a, (∃ c₁, corridor.start = .ok (s₁, c₁)) ∧
      s₁.logUnder (fun u => u.dispatch? 0) [⟨7, 0, 0⟩, ⟨2, 0, 0⟩, ⟨0, 0, 0⟩, ⟨7, 0, 0⟩] =
        .ok (log, t) ∧
      t.world.agents[0]? = some a ∧ a.isIdle = true ∧ log.length ≤ 17 := by
  constructor
  · obtain ⟨s₁, c₁, log, t, a, rest, u, b, hstart, hlog, ha, hrest, hb, hgoes, -⟩ :=
      reachable_circling.loop_bound (i := 0) rfl (by decide) (List.replicate 13 ⟨1, 0, 0⟩)
        [⟨3, 0, 0⟩, ⟨7, 0, 0⟩] (by decide)
    have hlong : log.length = 13 ∧ a.isIdle = false := by
      cases hstart
      cases hlog
      cases ha
      exact ⟨rfl, rfl⟩
    have hbound : 4 * circling.board.grid.cells.toList.countP Cell.isWalkable *
        circling.program.size < log.length := by
      rw [hlong.1]
      decide
    exact ⟨s₁, log, t, a, rest, u, b, ⟨c₁, hstart⟩, hlog, ha, hrest, hb, hlong.1, hlong.2,
      hgoes hbound hlong.2⟩
  · obtain ⟨s₁, c₁, log, t, a, -, -, -, hstart, hlog, ha, -, -, -, hrests⟩ :=
      reachable_corridor.loop_bound (i := 0) rfl (by decide)
        [⟨7, 0, 0⟩, ⟨2, 0, 0⟩, ⟨0, 0, 0⟩, ⟨7, 0, 0⟩] [] (by decide)
    have hidle : a.isIdle = true := by
      cases hstart
      cases hlog
      cases ha
      rfl
    exact ⟨s₁, log, t, a, ⟨c₁, hstart⟩, hlog, ha, hidle, hrests hidle⟩

end Simulation

end TileWalk
