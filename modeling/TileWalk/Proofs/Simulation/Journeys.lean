import TileWalk.Proofs.Agent.Journey
import TileWalk.Proofs.Simulation.Endings
import TileWalk.Proofs.Simulation.Flattening
import TileWalk.Proofs.Simulation.Items
import TileWalk.Proofs.Simulation.Progress

/-!
# Whole runs

A program whose tree has no calls always comes to its end, and what comes of a run can be read off
the tree: every agent fulfils the journey from its starting place, the run takes as long as the
longest of these journeys, and the items on the cells of all of them are collected
(`Simulation.Reachable.run_journeys`).

The run is followed tick by tick. A tick leaves less of every journey (`Journey.exists_next`), and
tells of the ending of an agent if that was the last tick of its journey
(`Simulation.Sound.exists_journey_of_step`). A run goes on until nothing is left of the longest
journey (`Simulation.Sound.exists_runFor`).
-/

namespace TileWalk

open Outcome Event

/-! ### Several journeys -/

namespace Journey

open Agent

variable {p : Program} {g : Grid} {frames : UInt32} {agents later : List Agent}
  {plan plan' : List Journey}

/-- How long the longest of several journeys takes. -/
def longest (plan : List Journey) : Nat :=
  (plan.map ticks).foldr max 0

theorem longest_cons (j : Journey) (plan : List Journey) :
    longest (j :: plan) = max j.ticks (longest plan) :=
  rfl

theorem ticks_le_longest {j : Journey} (h : j ∈ plan) : j.ticks ≤ longest plan := by
  induction plan with
  | nil => exact absurd h List.not_mem_nil
  | cons i plan ih =>
    rw [longest_cons]
    rcases List.mem_cons.mp h with rfl | hmem
    · exact Nat.le_max_left _ _
    · exact Nat.le_trans (ih hmem) (Nat.le_max_right _ _)

theorem longest_eq_sub_one (h : plan'.map ticks = plan.map fun j => j.ticks - 1) :
    longest plan' = longest plan - 1 := by
  unfold longest
  rw [h]
  clear h
  induction plan with
  | nil => rfl
  | cons j plan ih =>
    simp only [List.map_cons, List.foldr_cons, ih]
    omega

/-- Somebody is busy as long as something is left of the longest journey. -/
theorem any_not_isIdle_iff (h : List.Forall₂ (Fulfils p g frames) agents plan) :
    agents.any (fun a => !a.isIdle) = true ↔ 0 < longest plan := by
  induction h with
  | nil => simp [longest]
  | @cons a j agents plan ha _ ih =>
    have hidle : (!a.isIdle) = true ↔ 0 < j.ticks := by
      rw [Bool.not_eq_true', ← Bool.not_eq_true, isIdle_iff, ha.phase_eq_idle_iff]
      exact Nat.pos_iff_ne_zero.symm
    rw [List.any_cons, Bool.or_eq_true, hidle, ih, longest_cons]
    omega

/-- A tick leaves less of every journey. -/
theorem exists_next (h : List.Forall₂ (Fulfils p g frames) agents plan)
    (ha : ∀ a ∈ agents, a.Coherent)
    (hlive : List.Forall₂ (fun a b => a.live p g frames = .ok b) agents later) :
    ∃ plan', List.Forall₂ (Fulfils p g frames) later plan' ∧
      longest plan' = longest plan - 1 ∧
      ∀ pos, pos ∈ plan.flatMap visits ↔
        pos ∈ agents.filterMap (arrival? g) ++ plan'.flatMap visits := by
  suffices hnext : ∃ plan', List.Forall₂ (Fulfils p g frames) later plan' ∧
      plan'.map ticks = (plan.map fun j => j.ticks - 1) ∧
      ∀ pos, pos ∈ plan.flatMap visits ↔
        pos ∈ agents.filterMap (arrival? g) ++ plan'.flatMap visits by
    obtain ⟨plan', hlater, hticks, hvisits⟩ := hnext
    exact ⟨plan', hlater, longest_eq_sub_one hticks, hvisits⟩
  induction h generalizing later with
  | nil =>
    obtain rfl := List.forall₂_nil_left_iff.mp hlive
    exact ⟨[], .nil, rfl, fun pos => Iff.rfl⟩
  | @cons a j agents plan hfirst _ ih =>
    obtain ⟨b, others, hb, hothers, rfl⟩ := List.forall₂_cons_left_iff.mp hlive
    obtain ⟨rest, hnext, hvisits⟩ := hfirst.next (ha a List.mem_cons_self) hb
    obtain ⟨plan', hlater, hticks, hvisits'⟩ :=
      ih (fun a hmem => ha a (List.mem_cons_of_mem _ hmem)) hothers
    refine ⟨_ :: plan', .cons hnext hlater, ?_, fun pos => ?_⟩
    · rw [List.map_cons, List.map_cons, hticks]
    · have hmem := hvisits' pos
      rw [filterMap_arrival?_cons]
      simp only [List.flatMap_cons, List.mem_append, hvisits] at hmem ⊢
      rw [hmem]
      exact or_or_or_comm

end Journey

theorem Agent.map_pos_landing? (g : Grid) (now : Tick) (a : Agent) :
    (a.landing? g now).map Landing.pos = a.arrival? g := by
  unfold landing? arrival?
  cases a.advance g with
  | error interruption => rfl
  | ok result =>
    obtain ⟨arrival?, b⟩ := result
    cases arrival? <;> rfl

namespace Simulation

open Agent Journey

variable {s t : Simulation} {plan : List Journey} {j : Journey} {a : Agent} {count k i : Nat}
  {counts : List Nat} {c : Chronicle}

/-! ### One tick -/

theorem map_pos_landings (s : Simulation) :
    s.landings.map Landing.pos = s.world.agents.filterMap (arrival? s.board.grid) := by
  unfold landings
  rw [List.map_filterMap]
  exact List.filterMap_congr fun a _ => map_pos_landing? s.board.grid s.clock a

/-- A tick lets every agent go on with its journey. -/
theorem Sound.exists_journeys_of_step (hs : s.Sound)
    (h : List.Forall₂ (Fulfils s.program s.board.grid s.config.moveFrames) s.world.agents plan)
    (ht : s.step = .ok (count, t, c)) :
    ∃ plan', List.Forall₂ (Fulfils t.program t.board.grid t.config.moveFrames) t.world.agents
        plan' ∧
      longest plan' = longest plan - 1 ∧
      ∀ pos, pos ∈ plan.flatMap visits ↔
        pos ∈ s.world.agents.filterMap (arrival? s.board.grid) ++ plan'.flatMap visits := by
  obtain ⟨hconfig, hboard, hprogram, -, -⟩ := frame_of_step ht
  rw [hconfig, hboard, hprogram]
  exact exists_next h hs.coherent (mapM_eq_ok_iff.mp (mapM_live_of_step hs.coherent ht).1)

/-- A tick lets an agent go on with its journey, and tells of its ending if that is the end. -/
theorem Sound.exists_journey_of_step (hs : s.Sound) (hreported : s.unreported = [])
    (ha : s.world.agents[i]? = some a)
    (h : a.Fulfils s.program s.board.grid s.config.moveFrames j)
    (ht : s.step = .ok (count, t, c)) :
    ∃ b rest, t.world.agents[i]? = some b ∧ b.id = a.id ∧
      b.Fulfils t.program t.board.grid t.config.moveFrames
        { j with visits := rest, ticks := j.ticks - 1 } ∧
      c.events.filter (ends a.id) =
        if j.ticks = 1 then [.agentFinished s.clock a.id j.ending] else [] := by
  have hmem := List.mem_of_getElem? ha
  have hcoherent := hs.coherent a hmem
  have hlives := mapM_eq_ok_iff.mp (mapM_live_of_step hs.coherent ht).1
  obtain ⟨b, hb, hlive⟩ := exists_getElem?_of_forall₂ hlives ha
  obtain ⟨rest, hnext, -⟩ := h.next hcoherent hlive
  have hid : b.id = a.id := (hcoherent.lives hlive).id_eq
  have htold := hs.filter_ends_of_step (hreported ▸ List.nodup_nil) ht ha hb
  obtain ⟨hconfig, hboard, hprogram, -, -⟩ := frame_of_step ht
  refine ⟨b, rest, hb, hid, by rw [hconfig, hboard, hprogram]; exact hnext, ?_⟩
  rw [htold, hreported, if_neg List.not_mem_nil, List.nil_append]
  by_cases hone : j.ticks = 1
  · have hbusy : ¬ a.isIdle = true := by
      rw [isIdle_iff, h.phase_eq_idle_iff]
      omega
    have hdone : j.ticks - 1 = 0 := by omega
    obtain ⟨-, -, hfinished, -⟩ := hnext.of_ticks_eq_zero hdone
    rw [if_pos hone, if_neg hbusy, farewell_of_some hfinished, hid]
  · rw [if_neg hone]
    split_ifs with hidle
    · rfl
    · -- who has more than one tick before it is still busy after one
      rw [isIdle_iff, h.phase_eq_idle_iff] at hidle
      have hbusy : b.isIdle = false := by
        rw [← Bool.not_eq_true, isIdle_iff, hnext.phase_eq_idle_iff]
        dsimp only
        omega
      have hsound := (hs.step ht).coherent b (List.mem_of_getElem? hb)
      exact farewell_of_none (hsound.finished_eq_none hbusy) s.clock

/-! ### Many ticks -/

/-- After some ticks an agent has so much less of its journey before it, and if the journey is over,
its ending was told in the last of its ticks. -/
theorem Sound.exists_journey_of_tickMany (hs : s.Sound) (hq : s.queue = [])
    (hreported : s.unreported = []) (ha : s.world.agents[i]? = some a)
    (h : a.Fulfils s.program s.board.grid s.config.moveFrames j)
    (ht : s.tickMany k = .ok (counts, t, c)) :
    ∃ b rest, t.world.agents[i]? = some b ∧ b.id = a.id ∧
      b.Fulfils t.program t.board.grid t.config.moveFrames
        { j with visits := rest, ticks := j.ticks - k } ∧
      (j.ticks = 0 ∨ k < j.ticks → c.events.filter (ends a.id) = []) ∧
      (1 ≤ j.ticks → j.ticks ≤ k → ∃ tick : Tick,
        tick.count.toNat + 1 = s.clock.count.toNat + j.ticks ∧
        c.events.filter (ends a.id) = [.agentFinished tick a.id j.ending]) := by
  induction k generalizing s a j counts c with
  | zero =>
    obtain ⟨-, rfl, rfl⟩ := by simpa [tickMany] using ht
    exact ⟨a, j.visits, ha, rfl, h, fun _ => rfl, fun hone hzero => by omega⟩
  | succ k ih =>
    obtain ⟨count, u, c₁, later, c₂, hu, hlater, -, rfl⟩ := tickMany_succ_eq_ok_iff.mp ht
    rw [tick_of_queue_nil hq] at hu
    obtain ⟨-, -, -, hqueue, hclock⟩ := frame_of_step hu
    obtain ⟨b, rest, hb, hid, hnext, hfirst⟩ := hs.exists_journey_of_step hreported ha h hu
    obtain ⟨d, rest', hd, hid', hend, hsilent, htold⟩ :=
      ih (hs.step hu) (hqueue.trans hq) (unreported_of_step hu) hb hnext hlater
    dsimp only at hend hsilent htold
    rw [Nat.sub_sub, Nat.add_comm 1 k] at hend
    rw [hid] at hsilent htold
    refine ⟨d, rest', hd, hid'.trans hid, hend, ?_, ?_⟩
    · intro hout
      rw [Chronicle.events_append, List.filter_append, hfirst, if_neg (by omega),
        hsilent (by omega)]
      rfl
    · intro hone hin
      rw [Chronicle.events_append, List.filter_append, hfirst]
      by_cases hlast : j.ticks = 1
      · refine ⟨s.clock, by omega, ?_⟩
        rw [if_pos hlast, hsilent (by omega)]
        rfl
      · obtain ⟨tick, htick, hevents⟩ := htold (by omega) (by omega)
        refine ⟨tick, by omega, ?_⟩
        rw [if_neg hlast, hevents]
        rfl

/-- When all journeys are over, the items on all of their cells are collected. -/
theorem Sound.items_of_tickMany (hs : s.Sound) (hq : s.queue = [])
    (h : List.Forall₂ (Fulfils s.program s.board.grid s.config.moveFrames) s.world.agents plan)
    (hover : longest plan ≤ k) (ht : s.tickMany k = .ok (counts, t, c)) :
    t.world.stock.items = s.world.stock.items.map (Item.after (plan.flatMap visits)) := by
  induction k generalizing s plan counts c with
  | zero =>
    obtain ⟨-, rfl, -⟩ := by simpa [tickMany] using ht
    have hnone : plan.flatMap visits = [] := by
      rw [List.flatMap_eq_nil_iff]
      intro j hj
      obtain ⟨a, -, ha⟩ := exists_mem_of_forall₂ h hj
      have hle := ticks_le_longest hj
      obtain ⟨-, -, -, hvisits⟩ := ha.of_ticks_eq_zero (by omega)
      exact hvisits
    rw [hnone, Item.map_after_nil]
  | succ k ih =>
    obtain ⟨count, u, c₁, later, c₂, hu, hlater, -, -⟩ := tickMany_succ_eq_ok_iff.mp ht
    rw [tick_of_queue_nil hq] at hu
    obtain ⟨-, -, -, hqueue, -⟩ := frame_of_step hu
    obtain ⟨plan', hplan, hlong, hvisits⟩ := hs.exists_journeys_of_step h hu
    rw [ih (hs.step hu) (hqueue.trans hq) hplan (by omega) hlater, items_of_step hu,
      map_pos_landings, Item.map_after_after]
    exact Item.map_after_congr (fun pos => (hvisits pos).symm) _

/-! ### Runs -/

/-- A run takes as many ticks as the longest journey, as far as its bound allows. -/
theorem Sound.exists_runFor (hs : s.Sound) (hq : s.queue = []) (hreported : s.unreported = [])
    (h : List.Forall₂ (Fulfils s.program s.board.grid s.config.moveFrames) s.world.agents plan)
    {bound : Nat} (hclock : s.clock.count.toNat + min bound (longest plan) < 2 ^ 64) :
    ∃ counts t c, s.tickMany (min bound (longest plan)) = .ok (counts, t, c) ∧
      s.runFor bound = .ok (min bound (longest plan), t, c) ∧
      (t.isRunning = true ↔ bound < longest plan) := by
  induction bound generalizing s plan with
  | zero =>
    rw [Nat.zero_min]
    exact ⟨[], s, .empty, rfl, rfl, any_not_isIdle_iff h⟩
  | succ bound ih =>
    have hready := drain_of_queue_nil hq
    by_cases hlong : 0 < longest plan
    · have hrunning : s.isRunning = true := (any_not_isIdle_iff h).mpr hlong
      obtain ⟨count, u, c₁, hu⟩ := hs.exists_step (by omega)
      obtain ⟨-, -, -, hqueue, hnext⟩ := frame_of_step hu
      obtain ⟨plan', hplan, hless, -⟩ := hs.exists_journeys_of_step h hu
      have hmin : min (bound + 1) (longest plan) = min bound (longest plan') + 1 := by omega
      obtain ⟨counts, t, c, hticks, hrun, hbusy⟩ :=
        ih (hs.step hu) (hqueue.trans hq) (unreported_of_step hu) hplan (by omega)
      refine ⟨count :: counts, t, c₁ ++ c, ?_, ?_, ?_⟩
      · rw [hmin]
        refine tickMany_succ_eq_ok_iff.mpr ⟨count, u, c₁, counts, c, ?_, hticks, rfl, rfl⟩
        exact (tick_of_queue_nil hq).trans hu
      · rw [hmin]
        exact runFor_succ_of_isRunning hready hrunning hu hrun
      · rw [hbusy]
        omega
    · have hrunning : s.isRunning = false := by
        rw [← Bool.not_eq_true]
        exact mt (any_not_isIdle_iff h).mp hlong
      have hquiet : s.pendingEvents = [] := by
        rw [pendingEvents_eq, hreported]
        rfl
      have hsettled : { s with unreported := [] } = s := by rw [← hreported]
      have hmin : min (bound + 1) (longest plan) = 0 := by omega
      rw [hmin, runFor_succ_of_not_isRunning hready hrunning, hquiet, hsettled]
      exact ⟨[], s, .empty, rfl, rfl, iff_of_false (by simp [hrunning]) (by omega)⟩

/-! ### From start to end -/

/-- The journeys from all starting places, through what hangs in place `n`. -/
def journeys (s : Simulation) (l : Link) (n : Nat) : List Journey :=
  s.board.spawns.map fun sp =>
    l.journey s.board.grid s.config.moveFrames.toNat n sp.pos sp.facing

variable {trees : List Brick} {root : Brick} {n ticks : Nat} {w : World}

/-- As a run begins, every agent has the journey from its starting place before it. -/
theorem Sound.fulfils_begun (hs : s.Sound) (htrees : Program.ofBricks trees = .ok s.program)
    (hroot : Brick.beginning? trees = some (root, n)) (hfree : root.toLink.IsCallFree)
    (hframes : 1 ≤ s.config.moveFrames.toNat) (hw : World.ofBoard s.board = .ok w) :
    List.Forall₂ (Fulfils s.program s.board.grid s.config.moveFrames) (s.begun w).world.agents
      (s.journeys root.toLink n) := by
  have hentry : s.program.root = some (Ident.ofIndex n) := by
    rw [Brick.root_eq_beginning? htrees, hroot]
    rfl
  have hat := Brick.hasAt_of_beginning? htrees hroot
  have hplaces : s.board.spawns.zipIdx.map Prod.fst = s.board.spawns := List.zipIdx_map_fst 0 _
  have hplan : s.journeys root.toLink n = s.board.spawns.zipIdx.map fun x =>
      root.toLink.journey s.board.grid s.config.moveFrames.toNat n x.1.pos x.1.facing := by
    unfold journeys
    conv_lhs => rw [← hplaces]
    rw [List.map_map]
    rfl
  have hwalkable : ∀ x ∈ s.board.spawns.zipIdx, s.board.grid.isWalkable x.1.pos = true :=
    fun x hx => hs.board.spawn_walkable x.1 (List.fst_mem_of_mem_zipIdx hx)
  have hspawned := (List.forall₂_and_left _ _).mpr ⟨hwalkable, World.forall₂_of_ofBoard hw⟩
  show List.Forall₂ _ (w.agents.map (Agent.begun s.program)) _
  rw [hplan, List.forall₂_map_left_iff, List.forall₂_map_right_iff]
  refine hspawned.flip.imp fun a x ⟨hwalk, hspawn⟩ => ?_
  have hsound := sound_begun_of_spawn hs.program hwalk hspawn
  obtain ⟨o, -, rfl⟩ := spawn_eq_ok_iff.mp hspawn
  unfold Agent.begun at hsound ⊢
  rw [hentry] at hsound ⊢
  exact hsound.fulfils_journey hs.program hs.board.small hframes hfree hat rfl rfl

theorem phase_of_mem_begun (hroot : s.program.root.isSome) (ha : a ∈ (s.begun w).world.agents) :
    a.phase = .executing := by
  obtain ⟨fresh, -, rfl⟩ := List.mem_map.mp ha
  obtain ⟨id, hid⟩ := Option.isSome_iff_exists.mp hroot
  unfold Agent.begun
  rw [hid]
  rfl

/-- What has come of a run of some ticks in which agents were on journeys from the starting places
of a simulation. -/
structure IsOutcome (s : Simulation) (plan : List Journey) (ticks : Nat) (t : Simulation)
    (c : Chronicle) : Prop where
  clock_eq : t.clock.count.toNat = s.clock.count.toNat + ticks
  isRunning_iff : t.isRunning = true ↔ ticks < longest plan
  length_agents : t.world.agents.length = plan.length
  /-- Who had time enough has stopped where the journey leads, and observers were told so once, in
  the last tick of the journey. -/
  arrived : ∀ (i : Nat) (j : Journey), plan[i]? = some j → j.ticks ≤ ticks →
    ∃ (a : Agent) (tick : Tick), t.world.agents[i]? = some a ∧ a.id.index = i ∧
      a.phase = .idle ∧ a.pos = j.pos ∧ a.facing = j.facing ∧ a.finished = some j.ending ∧
      tick.count.toNat + 1 = s.clock.count.toNat + j.ticks ∧
      c.events.filter (ends a.id) = [.agentFinished tick a.id j.ending]
  /-- Nobody else has stopped. -/
  under_way : ∀ (i : Nat) (j : Journey), plan[i]? = some j → ticks < j.ticks →
    ∃ a, t.world.agents[i]? = some a ∧ a.id.index = i ∧ a.phase ≠ .idle ∧
      c.events.filter (ends a.id) = []
  items : t.world.stock.items.map Item.pos = s.board.items
  remaining_eq : t.world.remainingItems = t.world.stock.items.countP Item.visible
  /-- If everybody had time enough, an item is hidden if an agent starts on its cell or comes to
  it on a journey. -/
  hidden_iff : longest plan ≤ ticks → ∀ i ∈ t.world.stock.items, i.visible = false ↔
    (∃ sp ∈ s.board.spawns, sp.pos = i.pos) ∨ ∃ j ∈ plan, i.pos ∈ j.visits

/-- What comes of ticks after a start, when every agent has a journey before it. -/
theorem Sound.isOutcome_of_tickMany (hs : (s.begun w).Sound) (hq : s.queue = [])
    (hw : World.ofBoard s.board = .ok w) (hroot : s.program.root.isSome)
    (h : List.Forall₂ (Fulfils s.program s.board.grid s.config.moveFrames)
      (s.begun w).world.agents plan)
    (ht : (s.begun w).tickMany ticks = .ok (counts, t, c)) (hend : t.IsAttained)
    (hrunning : t.isRunning = true ↔ ticks < longest plan) {d : Chronicle}
    (htold : ∀ id, d.events.filter (ends id) = c.events.filter (ends id)) :
    s.IsOutcome plan ticks t d := by
  have hreported : (s.begun w).unreported = [] := if_pos hroot
  obtain ⟨-, hboard, -, -, hclock⟩ := frame_of_tickMany (s := s.begun w) hq ht
  have hagent : ∀ i j, plan[i]? = some j → ∃ a : Agent, (s.begun w).world.agents[i]? = some a ∧
      a.Fulfils s.program s.board.grid s.config.moveFrames j :=
    fun i j hj => exists_getElem?_of_forall₂ h.flip hj
  refine ⟨hclock, hrunning, ?_, fun i j hj hin => ?_, fun i j hj hout => ?_, ?_, ?_,
    fun hover i hi => ?_⟩
  · rw [hend.sound.length_agents, hboard, ← h.length_eq, hs.length_agents]
  -- who has time enough
  · obtain ⟨a, ha, hfulfils⟩ := hagent i j hj
    have hexecuting := phase_of_mem_begun hroot (List.mem_of_getElem? ha)
    have hone : j.ticks ≠ 0 := by
      rw [← hfulfils.phase_eq_idle_iff.ne, hexecuting]
      exact fun h => nomatch h
    obtain ⟨b, rest, hb, hid, hlast, -, hbye⟩ :=
      hs.exists_journey_of_tickMany hq hreported ha hfulfils ht
    obtain ⟨tick, htick, hevents⟩ := hbye (Nat.pos_of_ne_zero hone) hin
    have hdone : j.ticks - ticks = 0 := Nat.sub_eq_zero_of_le hin
    obtain ⟨hpos, hfacing, hfinished, -⟩ := hlast.of_ticks_eq_zero hdone
    have hidle := hlast.phase_eq_idle_iff.mpr hdone
    rw [← htold, ← hid] at hevents
    exact ⟨b, tick, hb, hend.sound.index_id hb, hidle, hpos, hfacing, hfinished, htick, hevents⟩
  -- who has not
  · obtain ⟨a, ha, hfulfils⟩ := hagent i j hj
    obtain ⟨b, rest, hb, hid, hlast, hsilent, -⟩ :=
      hs.exists_journey_of_tickMany hq hreported ha hfulfils ht
    have hbusy := mt hlast.phase_eq_idle_iff.mp (Nat.sub_ne_zero_of_lt hout)
    have hevents := hsilent (Or.inr hout)
    rw [← htold, ← hid] at hevents
    exact ⟨b, hb, hend.sound.index_id hb, hbusy, hevents⟩
  · exact hend.map_pos_items.trans (congrArg Board.items hboard)
  · exact hend.sound.counted
  · have hitems := hs.items_of_tickMany hq h hover ht
    have hfresh : (s.begun w).world.stock.items = _ :=
      Stock.items_collectAll (World.ofBoard_eq_ok_iff.mp hw).2
    rw [hitems, hfresh, Item.map_after_after] at hi
    rw [Stock.visible_eq_false_iff hi, List.mem_append, List.mem_map, List.mem_flatMap]

/-- A document that draws `Brick.stride`. -/
def stridePayload : Json.Payload :=
  .ofString ("[[null, [\"EntryBrick\", \"CommandNOP\"], null, " ++
    "[null, [\"BasicBrick\", \"CommandMove\"]]]]")

end Simulation

end TileWalk
