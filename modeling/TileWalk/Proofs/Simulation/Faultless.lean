import TileWalk.Proofs.Simulation.Progress
import TileWalk.Proofs.Simulation.Reports

/-!
# Nothing goes wrong

A fault is a sum, a difference or an opposite that leaves its type. On a board that is small
enough no request leads to one, with a single exception: the clock has an end. As long as the
ticks that are asked for stay below `2 ^ 64`, every sequence of requests is carried out to its end
(`Simulation.exists_performAll_of_build`), whatever settings are used on the way. And whenever
something is looked up by its place, a cell, a node or an agent, there is something in this place
(`Simulation.InRange`).
-/

namespace TileWalk

open Outcome

/-! ### Places -/

theorem Program.exists_node? {p : Program} {id : NodeId} (h : id.index < p.size) :
    ∃ n, p.node? id = some n := by
  have hlt : id.index < p.nodes.size := h
  exact ⟨p.nodes[id.index], Array.getElem?_eq_getElem hlt⟩

/-- The numbers of facings are added as bytes, and a turn does not leave them. -/
theorem Facing.turned_eq (f : Facing) :
    f.turned 1 = .ok f.left ∧ f.turned 2 = .ok f.back ∧ f.turned 3 = .ok f.right := by
  cases f <;> exact ⟨rfl, rfl, rfl⟩

/-- Between the two cells of its move a sound agent has a position. -/
theorem Agent.Sound.exists_gridPosition {p : Program} {g : Grid} {a : Agent} (h : a.Sound p g) :
    ∃ place, a.gridPosition = .ok place := by
  unfold Agent.gridPosition
  cases hm : a.motion with
  | none => exact ⟨_, rfl⟩
  | some m =>
    obtain ⟨goal, hgoal, -⟩ := h.goal_walkable m hm
    exact ⟨_, bind_eq_ok_iff.mpr ⟨goal, hgoal, rfl⟩⟩

namespace Simulation

variable {s t : Simulation} {c : Chronicle}

/-- Whatever is looked up by its place is there. -/
structure InRange (s : Simulation) : Prop where
  /-- A position of the board has a cell. -/
  cell : ∀ p, s.board.grid.contains p = true → ∃ c, s.board.grid.cell? p = some c
  /-- An agent stands in the place of its number. -/
  agent : ∀ a ∈ s.world.agents, s.world.agent? a.id = some a
  /-- Who is left to be reported is one of the agents. -/
  unreported : ∀ id ∈ s.unreported, ∃ a, s.world.agent? id = some a
  /-- Control is at a node, or is about to come to one. -/
  control : ∀ a ∈ s.world.agents, ∀ id,
    a.cursor = some id ∨ a.phase = .moving (.resume (some id)) → ∃ n, s.program.node? id = some n
  /-- A program begins at a node, and so does each of its functions. -/
  entry : ∀ id, s.program.root = some id ∨ (∃ f, s.program.functionEntry? f = some id) →
    ∃ n, s.program.node? id = some n
  /-- Links lead to nodes. -/
  link : ∀ n ∈ s.program.nodes, ∀ id, n.right = some id ∨ n.bottom = some id →
    ∃ m, s.program.node? id = some m

theorem IsAttained.inRange (h : s.IsAttained) : s.InRange := by
  have hs := h.sound
  obtain ⟨r, hr, rfl⟩ := h
  refine ⟨fun p hp => Grid.exists_cell? hp, fun a ha => hs.agent?_id ha, fun id hid => ?_,
    fun a ha id hid => ?_, fun id hid => ?_, fun n hn id hid => ?_⟩
  · obtain ⟨a, ha, -⟩ := hr.announced.exists_idle hs hid
    exact ⟨a, ha⟩
  · have hsound := hs.agents a ha
    apply Program.exists_node?
    rcases hid with hcursor | hphase
    · exact hsound.cursor_lt id hcursor
    · exact hsound.sequel_lt id hphase
  · apply Program.exists_node?
    rcases hid with hroot | ⟨f, hf⟩
    · exact hs.program.root_lt hroot
    · exact hs.program.functionEntry?_lt hf
  · obtain ⟨i, hi⟩ := Array.mem_iff_getElem?.mp hn
    obtain ⟨-, hright, hbottom⟩ := hs.program.linked i n hi
    apply Program.exists_node?
    rcases hid with hr | hb
    · exact hright id hr
    · exact hbottom id hb

/-! ### How many ticks there are -/

/-- How many ticks of a run begin, if it may take `bound`. -/
def ticksFor (s : Simulation) : (bound : Nat) → Nat
  | 0 => 0
  | bound + 1 =>
    match s.drain with
    | .error _ => 0
    | .ok (ready, _) =>
      if ready.isRunning then
        match ready.step with
        | .error _ => 1
        | .ok (_, t, _) => t.ticksFor bound + 1
      else 0

/-- How many ticks are asked for. -/
def ticksOf (s : Simulation) : Request → Nat
  | .tick => 1
  | .tickMany n => n
  | .run => s.ticksFor s.config.maxTicks.toNat
  | _ => 0

/-- Does what is asked, one thing after another. -/
def performAll (s : Simulation) : List Request → Except Fault (Simulation × Chronicle)
  | [] => .ok (s, .empty)
  | request :: requests => do
    let (s, c) ← s.perform request
    let (s, d) ← s.performAll requests
    return (s, c ++ d)

/-- How many ticks are asked for by one request after another. -/
def ticksOfAll (s : Simulation) : List Request → Nat
  | [] => 0
  | request :: requests =>
    match s.perform request with
    | .error _ => s.ticksOf request
    | .ok (t, _) => s.ticksOf request + t.ticksOfAll requests

/-! ### Ticks -/

theorem IsAttained.exists_tick (h : s.IsAttained) (hclock : s.clock.count.toNat + 1 < 2 ^ 64) :
    ∃ count t c, s.tick = .ok (count, t, c) ∧ t.IsAttained ∧
      t.clock.count.toNat = s.clock.count.toNat + 1 := by
  obtain ⟨ready, c₁, hready, -, hsame, -⟩ := exists_drain h.sound.board
  have hattained := h.drain hready
  obtain ⟨count, t, c₂, ht⟩ := hattained.sound.exists_step (hsame ▸ hclock)
  obtain ⟨-, -, -, -, hnext⟩ := frame_of_step ht
  refine ⟨count, t, _, bind_eq_ok_iff.mpr ⟨_, hready, bind_eq_ok_iff.mpr ⟨_, ht, rfl⟩⟩,
    hattained.step ht, ?_⟩
  rw [hnext, hsame]

theorem IsAttained.exists_tickMany (h : s.IsAttained) {n : Nat}
    (hclock : s.clock.count.toNat + n < 2 ^ 64) :
    ∃ counts t c, s.tickMany n = .ok (counts, t, c) ∧
      t.clock.count.toNat = s.clock.count.toNat + n := by
  induction n generalizing s with
  | zero => exact ⟨_, s, _, rfl, rfl⟩
  | succ n ih =>
    obtain ⟨count, u, c₁, hu, hattained, hnext⟩ := h.exists_tick (by omega)
    obtain ⟨rest, t, c₂, ht, hlast⟩ := ih hattained (by omega)
    refine ⟨_, t, _, tickMany_succ_eq_ok_iff.mpr ⟨count, u, c₁, rest, c₂, hu, ht, rfl, rfl⟩, ?_⟩
    omega

/-- A run goes on to its end, and takes as many ticks as begin. -/
theorem IsAttained.exists_runFor (h : s.IsAttained) {bound : Nat}
    (hclock : s.clock.count.toNat + s.ticksFor bound < 2 ^ 64) :
    ∃ t c, s.runFor bound = .ok (s.ticksFor bound, t, c) ∧
      t.clock.count.toNat = s.clock.count.toNat + s.ticksFor bound := by
  induction bound generalizing s with
  | zero => exact ⟨s, _, rfl, rfl⟩
  | succ bound ih =>
    obtain ⟨ready, c₁, hready, -, hsame, -⟩ := exists_drain h.sound.board
    have hattained := h.drain hready
    cases hrunning : ready.isRunning with
    | false =>
      have hticks : s.ticksFor (bound + 1) = 0 := by
        rw [ticksFor, hready]
        simp [hrunning]
      rw [hticks]
      refine ⟨_, _, runFor_succ_of_not_isRunning hready hrunning, ?_⟩
      show ready.clock.count.toNat = s.clock.count.toNat
      rw [hsame]
    | true =>
      -- the tick begins, so it counts even before it is known to end
      have hone : 1 ≤ s.ticksFor (bound + 1) := by
        rw [ticksFor, hready]
        dsimp only
        rw [if_pos hrunning]
        split <;> omega
      obtain ⟨count, u, c₂, hu⟩ := hattained.sound.exists_step (by rw [hsame]; omega)
      have hticks : s.ticksFor (bound + 1) = u.ticksFor bound + 1 := by
        rw [ticksFor, hready]
        dsimp only
        rw [if_pos hrunning, hu]
      obtain ⟨-, -, -, -, hnext⟩ := frame_of_step hu
      rw [hsame] at hnext
      rw [hticks] at hclock ⊢
      obtain ⟨t, c₃, ht, hlast⟩ := ih (hattained.step hu) (by omega)
      exact ⟨t, _, runFor_succ_of_isRunning hready hrunning hu ht, by omega⟩

/-! ### Requests -/

/-- Whatever is asked for is done, and the clock goes on by the ticks that are asked for. -/
theorem IsAttained.exists_perform (h : s.IsAttained) {request : Request}
    (hclock : s.clock.count.toNat + s.ticksOf request < 2 ^ 64) :
    ∃ t c, s.perform request = .ok (t, c) ∧
      t.clock.count.toNat = s.clock.count.toNat + s.ticksOf request := by
  have hboard := h.sound.board
  have hsignal : ∀ (u : Simulation), u.board.IsProper → ∀ signal, ∃ t c,
      u.carryOut signal = .ok (t, c) ∧ t.board = u.board ∧ t.clock = u.clock := by
    intro u hu signal
    obtain ⟨t, c, ht⟩ := exists_carryOut hu signal
    obtain ⟨-, hclock, hboard, -⟩ := frame_of_carryOut ht
    exact ⟨t, c, ht, hboard, hclock⟩
  cases request with
  | start =>
    obtain ⟨t, c, ht, -, hsame⟩ := hsignal s hboard .start
    exact ⟨t, c, ht, by rw [hsame]; rfl⟩
  | reset =>
    obtain ⟨t, c, ht, -, hsame⟩ := hsignal s hboard .reset
    exact ⟨t, c, ht, by rw [hsame]; rfl⟩
  | load program =>
    obtain ⟨t, c, ht, -, hsame⟩ := hsignal s hboard (.load program)
    exact ⟨t, c, ht, by rw [hsame]; rfl⟩
  | deliver payload =>
    unfold Simulation.perform deliver
    dsimp only
    cases Program.ofPayload payload with
    | error e => exact ⟨s, _, rfl, rfl⟩
    | ok program =>
      obtain ⟨u, c₁, hu, hkept, hsame⟩ := hsignal s hboard (.load program)
      obtain ⟨t, c₂, ht, -, hsame'⟩ := hsignal u (hkept ▸ hboard) .start
      refine ⟨t, _, bind_eq_ok_iff.mpr ⟨_, hu, bind_eq_ok_iff.mpr ⟨_, ht, rfl⟩⟩, ?_⟩
      rw [hsame', hsame]
      rfl
  | signal sent => exact ⟨s.enqueue sent, _, rfl, rfl⟩
  | tick =>
    obtain ⟨count, t, c, ht, -, hnext⟩ := h.exists_tick hclock
    exact ⟨t, c, map_eq_ok_iff.mpr ⟨_, ht, rfl⟩, hnext⟩
  | run =>
    obtain ⟨t, c, ht, hlast⟩ := h.exists_runFor hclock
    refine ⟨t, _, map_eq_ok_iff.mpr ⟨_, bind_eq_ok_iff.mpr ⟨_, ht, rfl⟩, rfl⟩, hlast⟩
  | tickMany n =>
    obtain ⟨counts, t, c, ht, hlast⟩ := h.exists_tickMany hclock
    exact ⟨t, c, map_eq_ok_iff.mpr ⟨_, ht, rfl⟩, hlast⟩
  | configure config => exact ⟨{ s with config }, _, rfl, rfl⟩

theorem IsAttained.exists_performAll (h : s.IsAttained) {requests : List Request}
    (hrequests : ∀ request ∈ requests, request.IsAdmissible)
    (hclock : s.clock.count.toNat + s.ticksOfAll requests < 2 ^ 64) :
    ∃ t c, s.performAll requests = .ok (t, c) ∧ t.IsAttained ∧
      t.clock.count.toNat = s.clock.count.toNat + s.ticksOfAll requests := by
  induction requests generalizing s with
  | nil => exact ⟨s, _, rfl, h, rfl⟩
  | cons request requests ih =>
    have hone : s.ticksOf request ≤ s.ticksOfAll (request :: requests) := by
      rw [ticksOfAll]
      split <;> omega
    have hbefore : s.clock.count.toNat + s.ticksOf request < 2 ^ 64 := by omega
    obtain ⟨u, c₁, hu, hnext⟩ := h.exists_perform hbefore
    have hsum : s.ticksOfAll (request :: requests) = s.ticksOf request + u.ticksOfAll requests := by
      rw [ticksOfAll, hu]
    have hattained := h.perform (hrequests request List.mem_cons_self) hu
    have hrest := fun request hmem => hrequests request (List.mem_cons_of_mem _ hmem)
    obtain ⟨t, c₂, ht, hlast, hcount⟩ := ih hattained hrest (by omega)
    refine ⟨t, _, bind_eq_ok_iff.mpr ⟨_, hu, bind_eq_ok_iff.mpr ⟨_, ht, rfl⟩⟩, hlast, ?_⟩
    omega

/-- Nothing goes wrong. A simulation can be built of every board with fewer than `2 ^ 31` cells,
every program and every configuration that is accepted, and then does whatever it is asked for, as
long as fewer than `2 ^ 64` ticks are asked for: no sum, difference or opposite leaves its type,
nor do the bytes in which facings are turned. The clock has counted these ticks, and neither now
nor in a tick that may follow is anything looked up in a place where there is nothing. -/
theorem exists_performAll_of_build {rows : List (List UInt32)} {board : Board} {config : Config}
    {program : Program} (hboard : Board.ofRows rows = .ok board)
    (hcells : board.grid.cells.size < 2 ^ 31) (hprogram : program.IsObtainable)
    (hconfig : config.check = .ok ()) :
    (∀ f : Facing,
      f.turned 1 = .ok f.left ∧ f.turned 2 = .ok f.back ∧ f.turned 3 = .ok f.right) ∧
    ∃ s c, build board config program = .ok (.ok (s, c)) ∧
      ∀ requests : List Request, (∀ request ∈ requests, request.IsAdmissible) →
        s.ticksOfAll requests < 2 ^ 64 →
        ∃ t d, s.performAll requests = .ok (t, d) ∧
          t.clock.count.toNat = s.ticksOfAll requests ∧
          ∀ u, u = t ∨ t.TicksAt u → u.InRange ∧
            ∀ a ∈ u.world.agents, ∃ place, a.gridPosition = .ok place := by
  refine ⟨Facing.turned_eq, ?_⟩
  obtain ⟨w, hw⟩ := World.exists_ofBoard (Board.isProper_of_ofRows hboard hcells)
  have hframes := Config.check_eq_ok_iff.mp hconfig
  obtain ⟨c, hbuild⟩ := exists_build_iff.mpr ⟨hframes, w, hw, rfl⟩
  have hs := (Reachable.build hboard hcells hprogram hbuild).isAttained
  refine ⟨_, c, hbuild, fun requests hrequests hticks => ?_⟩
  have hzero : Tick.zero.count.toNat = 0 := rfl
  obtain ⟨t, d, ht, hattained, hcount⟩ := hs.exists_performAll hrequests (by simpa [hzero])
  refine ⟨t, d, ht, by simpa [hzero] using hcount, fun u hu => ?_⟩
  have hu : u.IsAttained := by
    rcases hu with rfl | hlater
    · exact hattained
    · exact hlater.isAttained hattained
  exact ⟨hu.inRange, fun a ha => (hu.sound.agents a ha).exists_gridPosition⟩

/-- In the corridor a start, some ticks, other settings and a run are carried out to the end. -/
theorem exists_performAll_of_build_corridor : ∃ c t d,
    build Board.corridor corridor.config corridor.program = .ok (.ok (corridor, c)) ∧
      corridor.performAll [.start, .tickMany 2, .configure ⟨0, 5, 0⟩, .run] = .ok (t, d) ∧
      t.clock.count.toNat = 3 ∧ t.InRange := by
  have hboard : Board.ofRows [[5, 3]] = .ok Board.corridor := rfl
  have hprogram : corridor.program.IsObtainable := .built Builder.strideCalls rfl (by decide)
  have hconfig : corridor.config.check = .ok () := rfl
  obtain ⟨-, s, c, hbuild, hall⟩ :=
    exists_performAll_of_build hboard (by decide) hprogram hconfig
  obtain rfl : corridor = s := by
    cases hbuild
    rfl
  have hticks : corridor.ticksOfAll [.start, .tickMany 2, .configure ⟨0, 5, 0⟩, .run] = 3 := rfl
  have hadmissible : ∀ request ∈ [Request.start, .tickMany 2, .configure ⟨0, 5, 0⟩, .run],
      request.IsAdmissible := by
    simp [Request.IsAdmissible]
  have hfew : corridor.ticksOfAll [.start, .tickMany 2, .configure ⟨0, 5, 0⟩, .run] < 2 ^ 64 := by
    rw [hticks]
    decide
  obtain ⟨t, d, ht, hcount, hrange⟩ := hall _ hadmissible hfew
  exact ⟨c, t, d, hbuild, ht, hcount.trans hticks, (hrange t (Or.inl rfl)).1⟩

end Simulation

end TileWalk
