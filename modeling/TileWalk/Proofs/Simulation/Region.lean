import TileWalk.Proofs.Board.Region
import TileWalk.Proofs.Simulation.Items
import TileWalk.Proofs.Simulation.Strides

/-!
# Agents stay in their regions

A path leads from the starting place of an agent to where it stands, and while it moves, to where it
moves. A new world has such paths, of one cell each, and a tick makes a path longer by one cell at
most (`Record.Confined.step`), so nothing that a host asks for takes an agent out of its region
(`Record.Attained.confined`).

Items are hidden where agents start and where they arrive. Those outside of all regions therefore
stay visible, and are still there at the end (`Simulation.Reachable.stays_in_region`).
-/

namespace TileWalk

open Outcome

/-! ### One agent -/

namespace Agent

variable {p : Program} {g : Grid} {a b : Agent} {start goal : Pos} {m : Motion} {now : Tick}
  {l : Landing}

theorem begun_pos (p : Program) (a : Agent) : (a.begun p).pos = a.pos := by
  unfold begun
  cases p.root <;> rfl

/-- The path of an agent leads on to where it moves. -/
theorem Sound.connects_destination (hs : a.Sound p g) (h : g.Connects start a.pos)
    (hm : a.motion = some m) (hgoal : m.destination = .ok goal) : g.Connects start goal := by
  have hway := hs.isUnderWay hm
  obtain ⟨q, hq, hwalk⟩ := hs.goal_walkable m hm
  obtain rfl := Except.ok.inj (hgoal.symm.trans hq)
  unfold Motion.destination at hgoal
  rw [hway.origin_eq, hway.dir_eq] at hgoal
  exact h.step hgoal hwalk

/-- An agent arrives where it moves. -/
theorem exists_destination_of_landing? (h : a.landing? g now = some l) :
    ∃ m, a.motion = some m ∧ m.destination = .ok l.pos := by
  unfold landing? at h
  split at h
  · next arrival b harrival =>
    obtain rfl := Option.some.inj h
    obtain ⟨m, -, hm, -, hgoal, -⟩ := exists_motion_of_arrival harrival
    exact ⟨m, hm, hgoal⟩
  · cases h

end Agent

/-! ### What is kept -/

namespace Record

variable {r t : Record} {s : Simulation} {w : World}

/-- Agents have not left the regions of their starting places. -/
structure Confined (r : Record) : Prop where
  agents : ∀ (i : Nat) (a : Agent), r.sim.world.agents[i]? = some a →
    ∃ start, r.sim.board.spawns[i]? = some start ∧ r.sim.board.grid.Connects start.pos a.pos
  landings : ∀ l ∈ r.landings,
    ∃ start ∈ r.sim.board.spawns, r.sim.board.grid.Connects start.pos l.pos

namespace Confined

/-- Who has just been made stands on its starting place. -/
theorem new (hb : s.board.IsProper) (hw : World.ofBoard s.board = .ok w)
    (hs : s.world.agents.map Agent.pos = w.agents.map Agent.pos) : (Record.new s).Confined := by
  refine ⟨fun i a ha => ?_, fun l hl => absurd hl List.not_mem_nil⟩
  have hposs : (s.world.agents.map Agent.pos)[i]? = some a.pos := by
    rw [List.getElem?_map]
    exact congrArg (Option.map Agent.pos) ha
  rw [hs, List.getElem?_map] at hposs
  obtain ⟨fresh, hfresh, hpos⟩ := Option.map_eq_some_iff.mp hposs
  obtain ⟨⟨start, n⟩, hzip, hspawn⟩ :=
    exists_getElem?_of_forall₂ (World.forall₂_of_ofBoard hw).flip hfresh
  obtain ⟨o, -, rfl⟩ := Agent.spawn_eq_ok_iff.mp hspawn
  rw [List.getElem?_zipIdx] at hzip
  obtain ⟨start', hstart, heq⟩ := Option.map_eq_some_iff.mp hzip
  obtain ⟨rfl, -⟩ := Prod.mk.inj heq
  refine ⟨start', hstart, ?_⟩
  rw [← hpos]
  exact Grid.connects_self (hb.spawn_walkable start' (List.mem_of_getElem? hstart))

theorem step (h : r.Confined) (hs : r.sim.Sound) (ht : r.step = .ok t) : t.Confined := by
  obtain ⟨count, u, c, hu, rfl⟩ := step_eq_ok_iff.mp ht
  have hsound := hs.step hu
  have hboard := (Simulation.frame_of_step hu).2.1
  have hlives := Simulation.forall₂_lives_of_step hs.coherent hu
  constructor
  · intro i b hb
    obtain ⟨a, ha, hab⟩ := exists_getElem?_of_forall₂ hlives.flip hb
    obtain ⟨start, hstart, hconnects⟩ := h.agents i a ha
    have hwalk := (hsound.agents b (List.mem_of_getElem? hb)).walkable
    dsimp only
    rw [hboard] at hwalk ⊢
    refine ⟨start, hstart, ?_⟩
    -- the path stays as it is, or gets longer by the cell ahead
    rcases hab.pos_eq_or (hs.agents a (List.mem_of_getElem? ha)) with hsame | ⟨hahead, -⟩
    · rw [hsame]
      exact hconnects
    · exact hconnects.step hahead hwalk
  · intro l hl
    dsimp only at hl ⊢
    rw [hboard]
    rcases List.mem_append.mp hl with hold | hnew
    · exact h.landings l hold
    · obtain ⟨a, hmem, hlanding⟩ := List.mem_filterMap.mp hnew
      obtain ⟨i, ha⟩ := List.mem_iff_getElem?.mp hmem
      obtain ⟨start, hstart, hconnects⟩ := h.agents i a ha
      obtain ⟨m, hm, hgoal⟩ := Agent.exists_destination_of_landing? hlanding
      exact ⟨start, List.mem_of_getElem? hstart,
        (hs.agents a hmem).connects_destination hconnects hm hgoal⟩

end Confined

/-- Nothing that a host asks for takes an agent out of its region. -/
theorem Attained.confined (h : r.Attained) : r.Confined := by
  induction h with
  | build hboard hcells hprogram hbuild =>
    have hproper := Board.isProper_of_ofRows hboard hcells
    obtain ⟨-, w, hw, rfl⟩ := Simulation.exists_build_iff.mp ⟨_, hbuild⟩
    exact .new hproper hw rfl
  | @start r s c hr hs ih =>
    have hproper := hr.sound.board
    obtain ⟨w, hw, rfl⟩ := Simulation.exists_start_iff.mp ⟨_, hs⟩
    -- beginning does not take an agent elsewhere
    have hbegun : Agent.pos ∘ Agent.begun r.sim.program = Agent.pos :=
      funext (Agent.begun_pos r.sim.program)
    refine .new hproper hw ?_
    show (w.agents.map (Agent.begun r.sim.program)).map Agent.pos = _
    rw [List.map_map, hbegun]
  | reset hr hs ih =>
    have hproper := hr.sound.board
    obtain ⟨w, hw, rfl⟩ := Simulation.exists_reset_iff.mp ⟨_, hs⟩
    exact .new hproper hw rfl
  | load hr hprogram hs ih =>
    have hproper := hr.sound.board
    obtain ⟨w, hw, rfl⟩ := Simulation.exists_load_iff.mp ⟨_, hs⟩
    exact .new hproper hw rfl
  | exchange hr queue hqueue ih => exact ⟨ih.agents, ih.landings⟩
  | configure hr config ih => exact ⟨ih.agents, ih.landings⟩
  | step hr ht ih => exact ih.step hr.sound ht
  | settle hr ih => exact ⟨ih.agents, ih.landings⟩
  | endRun hr ih => exact ⟨ih.agents, ih.landings⟩

/-- An item outside of all regions stays visible. -/
theorem Attained.visible_of_isCutOff (h : r.Attained) {i : Item}
    (hi : i ∈ r.sim.world.stock.items) (hcut : r.sim.board.IsCutOff i.pos) : i.visible = true := by
  by_contra hvisible
  rw [Bool.not_eq_true, h.tallied.hidden_iff hi] at hvisible
  rcases hvisible with ⟨start, hstart, hpos⟩ | ⟨l, hl, hpos⟩
  · apply hcut start hstart
    rw [← hpos]
    exact Grid.connects_self (h.sound.board.spawn_walkable start hstart)
  · obtain ⟨start, hstart, hconnects⟩ := h.confined.landings l hl
    apply hcut start hstart
    rw [← hpos]
    exact hconnects

end Record

/-! ### Regions -/

namespace Simulation

variable {s : Simulation}

/-- Whatever a host asks for, a path leads from the starting place of every agent to where it
stands, and on to where it moves, if it does. Items to which no path leads from a starting place are
visible, and so at least as many items remain as there are of these. -/
theorem Reachable.stays_in_region (h : s.Reachable) :
    (∀ (i : Nat) (a : Agent), s.world.agents[i]? = some a → ∃ start,
      s.board.spawns[i]? = some start ∧ s.board.grid.Connects start.pos a.pos ∧
        (a.isMoving = true → ∃ m goal, a.motion = some m ∧ m.destination = .ok goal ∧
          s.board.grid.Connects start.pos goal)) ∧
    (∀ i ∈ s.world.stock.items, s.board.IsCutOff i.pos → i.visible = true) ∧
    s.board.cutOffItems.length ≤ s.world.remainingItems := by
  obtain ⟨r, hr, rfl⟩ := h.isAttained
  have hs := hr.sound
  have hvisible : ∀ i ∈ r.sim.world.stock.items, r.sim.board.IsCutOff i.pos → i.visible = true :=
    fun i hi hcut => hr.visible_of_isCutOff hi hcut
  refine ⟨fun i a ha => ?_, hvisible, ?_⟩
  · obtain ⟨start, hstart, hconnects⟩ := hr.confined.agents i a ha
    refine ⟨start, hstart, hconnects, fun hmoving => ?_⟩
    have hsound := hs.agents a (List.mem_of_getElem? ha)
    obtain ⟨sequel, hphase⟩ := Agent.isMoving_iff.mp hmoving
    obtain ⟨-, -, m, hm, -⟩ := hsound.of_moving sequel hphase
    obtain ⟨goal, hgoal, -⟩ := hsound.goal_walkable m hm
    exact ⟨m, goal, hm, hgoal, hsound.connects_destination hconnects hm hgoal⟩
  · have hcounted : r.sim.world.remainingItems = r.sim.world.stock.items.countP Item.visible :=
      hs.counted
    rw [hcounted, Board.cutOffItems, ← List.countP_eq_length_filter, ← hr.tallied.map_pos_items,
      List.countP_map]
    apply List.countP_mono_left
    intro i hi hcut
    apply hvisible i hi
    simpa using hcut

/-- A corridor with a wall between the agent and the item. -/
def walledCorridor : Simulation :=
  { corridor with
    board := ⟨⟨4, 1, #[⟨5⟩, ⟨1⟩, ⟨0⟩, ⟨3⟩], rfl⟩, [⟨⟨0, 0⟩, .southEast⟩], [⟨3, 0⟩]⟩
    world :=
      ⟨[⟨⟨0⟩, ⟨0, 0⟩, .southEast, ⟨true, false, false, false⟩, none, .idle, none, none⟩],
        ⟨[⟨⟨0⟩, ⟨3, 0⟩, true⟩], 1⟩⟩ }

/-- The cells before the wall are all that can be come to on foot. -/
theorem isCutOff_walledCorridor : walledCorridor.board.IsCutOff ⟨3, 0⟩ := by
  intro start hstart hconnects
  obtain rfl := List.mem_singleton.mp hstart
  have hmem : (⟨3, 0⟩ : Pos) ∈ ([⟨0, 0⟩, ⟨1, 0⟩] : List Pos) := by
    refine hconnects.mem_of_closed List.mem_cons_self fun c hc f d hadd hwalk => ?_
    simp only [List.mem_cons, List.not_mem_nil, or_false] at hc
    rcases hc with rfl | rfl <;> cases f <;> cases hadd <;> revert hwalk <;> decide
  revert hmem
  decide

/-- In the walled corridor the agent is about to come to the second cell, and the item remains. -/
theorem stays_in_region_walled : ∃ (s : Simulation) (a : Agent) (m : Motion) (goal : Pos),
    s.Reachable ∧ s.world.agents[0]? = some a ∧ a.motion = some m ∧ m.destination = .ok goal ∧
    s.board.grid.Connects ⟨0, 0⟩ goal ∧ 1 ≤ s.world.remainingItems := by
  have hboard : Board.ofRows [[5, 1, 0, 3]] = .ok walledCorridor.board := rfl
  have hbuild : build walledCorridor.board walledCorridor.config walledCorridor.program =
      .ok (.ok (walledCorridor, _)) := rfl
  have hbuilt : walledCorridor.Reachable :=
    .build hboard (by decide) (.built Builder.strideCalls rfl (by decide)) hbuild
  have hstarted := hbuilt.perform (show Request.start.IsAdmissible from trivial) rfl
  have hs := hstarted.perform (show (Request.tickMany 2).IsAdmissible from trivial) rfl
  obtain ⟨hagents, -, hleft⟩ := hs.stays_in_region
  obtain ⟨start, hstart, -, hmoving⟩ := hagents 0 _ rfl
  obtain rfl : ⟨⟨0, 0⟩, .southEast⟩ = start := Option.some.inj hstart
  obtain ⟨m, goal, hm, hgoal, hconnects⟩ := hmoving rfl
  refine ⟨_, _, m, goal, hs, rfl, hm, hgoal, hconnects, le_trans ?_ hleft⟩
  exact List.length_pos_of_mem
    (Board.mem_cutOffItems.mpr ⟨List.mem_cons_self, isCutOff_walledCorridor⟩)

end Simulation

end TileWalk
