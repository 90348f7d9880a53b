import TileWalk.Proofs.Simulation.Endings

/-!
# Endings are reported once

An agent that stops is reported to observers once. A record keeps what they were told since its
world was made, and at any time this is, for every agent, its ending or nothing, depending on
whether the report is still to come (`Record.Announced`). Every small step keeps it so
(`Record.Attained.announced`): a start that stops agents at once leaves all of them to be
reported, the next tick or the end of a run makes up for it, and who stops in a tick is reported
in this very tick. Hence no ending is lost and none is told twice
(`Simulation.Reachable.endings_reported`).
-/

namespace TileWalk

open Outcome Event

/-! ### Agents that begin -/

namespace Agent

variable {p : Program} {a : Agent}

theorem finished_of_spawn {id : AgentId} {s : Spawn} {g : Grid} (h : spawn id s g = .ok a) :
    a.finished = none := by
  obtain ⟨o, -, rfl⟩ := spawn_eq_ok_iff.mp h
  rfl

/-- An agent has not stopped as it begins a program that has a beginning. -/
theorem finished_begun {root : NodeId} (hroot : p.root = some root) :
    (a.begun p).finished = none := by
  unfold begun
  rw [hroot]
  rfl

/-- An agent stops as it begins a program that has no beginning. -/
theorem begun_of_root_eq_none (hroot : p.root = none) :
    (a.begun p).isIdle = true ∧ (a.begun p).finished = some .endOfProgram := by
  unfold begun
  rw [hroot]
  exact ⟨rfl, rfl⟩

end Agent

/-! ### What a record says of endings -/

namespace Record

variable {r t : Record} {s : Simulation} {w : World}

/-- The world of the record is as a start has left it: nobody has been reported since, and no tick
has been processed. -/
def IsUntouched (r : Record) : Prop :=
  (∃ w, World.ofBoard r.sim.board = .ok w ∧ r.sim.world = (r.sim.begun w).world ∧
    r.sim.unreported = (r.sim.begun w).unreported) ∧
  ∀ tick, Event.tickStart tick ∉ r.events

/-- What observers were told of an agent is its ending, if it has one, unless the agent is still
to be reported. -/
structure Announced (r : Record) : Prop where
  nodup : r.sim.unreported.Nodup
  untouched : r.sim.unreported ≠ [] → r.IsUntouched
  told : ∀ a ∈ r.sim.world.agents, ∃ tick, r.events.filter (ends a.id) =
    if a.id ∈ r.sim.unreported then [] else a.farewell tick

namespace Announced

/-- In a new world nobody has stopped. -/
theorem of_ofBoard (hw : World.ofBoard s.board = .ok s.world) (hs : s.unreported = []) :
    (Record.new s).Announced := by
  refine ⟨?_, fun hne => absurd hs hne, fun a ha => ⟨Tick.zero, ?_⟩⟩
  · show s.unreported.Nodup
    rw [hs]
    exact List.nodup_nil
  · obtain ⟨n, sp, -, hspawn⟩ := World.exists_spawn_of_mem hw ha
    show [] = if a.id ∈ s.unreported then [] else a.farewell Tick.zero
    rw [Agent.farewell_of_none (Agent.finished_of_spawn hspawn), ite_self]

/-- Whoever stops when it is started is to be reported. -/
theorem of_begun (hs : s.board.IsProper) (hp : s.program.IsClosed)
    (hw : World.ofBoard s.board = .ok w) : (Record.new (s.begun w)).Announced := by
  have hsound := Simulation.Sound.of_begun hs hp hw
  have hids : (s.begun w).world.agents.map Agent.id = w.agents.map Agent.id := by
    show (w.agents.map (Agent.begun s.program)).map Agent.id = _
    rw [List.map_map]
    exact List.map_congr_left fun a _ => Agent.begun_id s.program a
  refine ⟨?_, fun _ => ⟨⟨w, hw, rfl, rfl⟩, fun tick => List.not_mem_nil⟩,
    fun a ha => ⟨Tick.zero, ?_⟩⟩
  · show (if s.program.root.isSome then [] else w.agents.map Agent.id).Nodup
    split_ifs
    · exact List.nodup_nil
    · rw [← hids]
      exact hsound.nodup_map_id
  · show [] = if a.id ∈ (if s.program.root.isSome then [] else w.agents.map Agent.id) then []
      else a.farewell Tick.zero
    cases hroot : s.program.root with
    | some root =>
      obtain ⟨fresh, -, rfl⟩ := List.mem_map.mp ha
      rw [Agent.farewell_of_none (Agent.finished_begun hroot), ite_self]
    | none =>
      have hmem : a.id ∈ w.agents.map Agent.id := hids ▸ List.mem_map_of_mem ha
      simp [hmem]

/-- After the agents that were left have been reported, what observers were told of every agent is
its ending. -/
theorem filter_ends_append (h : r.Announced) {a : Agent}
    (ha : a ∈ r.sim.world.agents) : ∃ tick, r.events.filter (ends a.id) ++
      (if a.id ∈ r.sim.unreported then a.farewell r.sim.clock else []) = a.farewell tick := by
  obtain ⟨tick, htold⟩ := h.told a ha
  rw [htold]
  by_cases hid : a.id ∈ r.sim.unreported
  · exact ⟨r.sim.clock, by simp [hid]⟩
  · exact ⟨tick, by simp [hid]⟩

theorem settle (h : r.Announced) (hs : r.sim.Sound) : r.settle.Announced := by
  refine ⟨List.nodup_nil, fun hne => absurd rfl hne, fun a ha => ?_⟩
  obtain ⟨tick, htold⟩ := h.filter_ends_append ha
  refine ⟨tick, ?_⟩
  show (r.events ++ r.sim.pendingEvents).filter (ends a.id) = a.farewell tick
  rw [List.filter_append, hs.filter_ends_pendingEvents h.nodup ha]
  exact htold

theorem step (h : r.Announced) (hs : r.sim.Sound) (ht : r.step = .ok t) : t.Announced := by
  obtain ⟨count, u, c, hu, rfl⟩ := step_eq_ok_iff.mp ht
  have hunreported : u.unreported = [] := by
    obtain ⟨_, _, _, _, _, _, -, -, -, rfl, -⟩ := Simulation.step_eq_ok_iff.mp hu
    rfl
  have hlive := mapM_eq_ok_iff.mp (Simulation.mapM_live_of_step hs.coherent hu).1
  refine ⟨?_, fun hne => absurd hunreported hne, fun b hb => ?_⟩
  · show u.unreported.Nodup
    rw [hunreported]
    exact List.nodup_nil
  · obtain ⟨i, hi⟩ := List.mem_iff_getElem?.mp hb
    obtain ⟨a, ha, hab⟩ := exists_getElem?_of_forall₂ hlive.flip hi
    have hmem := List.mem_of_getElem? ha
    have hcoherent := hs.coherent a hmem
    have hid : b.id = a.id := (hcoherent.lives hab).id_eq
    obtain ⟨tick, htold⟩ := h.filter_ends_append hmem
    have hevents : (r.events ++ c.events).filter (ends b.id) =
        a.farewell tick ++ if a.isIdle then [] else b.farewell r.sim.clock := by
      rw [hid, List.filter_append, hs.filter_ends_of_step h.nodup hu ha hi, ← List.append_assoc,
        htold]
    have hpaid : b.id ∉ u.unreported := by simp [hunreported]
    simp only [if_neg hpaid, hevents]
    -- who was idle stays as it is, and who was not had no ending
    cases hidle : a.isIdle with
    | true =>
      rw [Agent.live_of_idle (Agent.isIdle_iff.mp hidle)] at hab
      obtain rfl := Except.ok.inj hab
      exact ⟨tick, by simp⟩
    | false =>
      have hnone := hcoherent.finished_eq_none hidle
      exact ⟨r.sim.clock, by simp [Agent.farewell_of_none hnone]⟩

/-- Events that tell of no ending and of no tick change nothing. -/
theorem append_events (h : r.Announced) {events : List Event}
    (hends : ∀ id, events.filter (ends id) = []) (hticks : ∀ tick, Event.tickStart tick ∉ events) :
    Announced { r with events := r.events ++ events } := by
  refine ⟨h.nodup, fun hne => ?_, fun a ha => ?_⟩
  · obtain ⟨hworld, hnone⟩ := h.untouched hne
    refine ⟨hworld, fun tick hmem => ?_⟩
    rcases List.mem_append.mp hmem with hold | hnew
    · exact hnone tick hold
    · exact hticks tick hnew
  · obtain ⟨tick, htold⟩ := h.told a ha
    refine ⟨tick, ?_⟩
    show (r.events ++ events).filter (ends a.id) = _
    rw [List.filter_append, hends, List.append_nil]
    exact htold

end Announced

/-- Every small step keeps what observers were told in line with the endings. -/
theorem Attained.announced (h : r.Attained) : r.Announced := by
  induction h with
  | build hboard hcells hprogram hbuild =>
    obtain ⟨-, w, hw, rfl⟩ := Simulation.exists_build_iff.mp ⟨_, hbuild⟩
    exact .of_ofBoard hw rfl
  | start hr hs ih =>
    obtain ⟨w, hw, rfl⟩ := Simulation.exists_start_iff.mp ⟨_, hs⟩
    exact .of_begun hr.sound.board hr.sound.program hw
  | reset hr hs ih =>
    obtain ⟨w, hw, rfl⟩ := Simulation.exists_reset_iff.mp ⟨_, hs⟩
    exact .of_ofBoard hw rfl
  | load hr hprogram hs ih =>
    obtain ⟨w, hw, rfl⟩ := Simulation.exists_load_iff.mp ⟨_, hs⟩
    exact .of_ofBoard hw rfl
  | exchange hr queue hqueue ih => exact ⟨ih.nodup, ih.untouched, ih.told⟩
  | configure hr config ih => exact ⟨ih.nodup, ih.untouched, ih.told⟩
  | step hr ht ih => exact ih.step hr.sound ht
  | settle hr ih => exact ih.settle hr.sound
  | endRun hr ih => exact ih.append_events (fun _ => rfl) (fun _ h => nomatch h)

/-! ### Reported once -/

/-- Every ending is reported, and no ending twice. -/
structure ReportedOnce (r : Record) : Prop where
  /-- There is one report of an agent that has stopped and is not left to be reported, and none of
  any other agent. -/
  countP_eq : ∀ a ∈ r.sim.world.agents, r.events.countP (ends a.id) =
    if a.finished.isSome ∧ a.id ∉ r.sim.unreported then 1 else 0
  /-- A report gives the reason for which the agent has stopped. -/
  reason_eq : ∀ a ∈ r.sim.world.agents, ∀ tick reason,
    Event.agentFinished tick a.id reason ∈ r.events → a.finished = some reason
  /-- Nobody is left to be reported twice. -/
  nodup : r.sim.unreported.Nodup
  /-- Whoever is left to be reported is idle. -/
  idle : ∀ id ∈ r.sim.unreported, ∃ a, r.sim.world.agent? id = some a ∧ a.id = id ∧
    a.isIdle = true ∧ a.finished = some .endOfProgram
  /-- It was a start that stopped it: the world is as the start has left it, and no tick has been
  processed in it. -/
  started : r.sim.unreported ≠ [] → (∀ tick, Event.tickStart tick ∉ r.events) ∧
    ∃ t c, r.sim.start = .ok (t, c) ∧ t.world = r.sim.world ∧ t.unreported = r.sim.unreported

namespace Announced

theorem countP_eq (h : r.Announced) {a : Agent} (ha : a ∈ r.sim.world.agents) :
    r.events.countP (ends a.id) = if a.finished.isSome ∧ a.id ∉ r.sim.unreported then 1 else 0 := by
  obtain ⟨tick, htold⟩ := h.told a ha
  rw [List.countP_eq_length_filter, htold]
  by_cases hid : a.id ∈ r.sim.unreported
  · simp [hid]
  · cases hf : a.finished with
    | none => simp [hid, Agent.farewell_of_none hf]
    | some reason => simp [hid, Agent.farewell_of_some hf]

theorem reason_eq (h : r.Announced) {a : Agent} (ha : a ∈ r.sim.world.agents) {tick : Tick}
    {reason : Ending} (hmem : Event.agentFinished tick a.id reason ∈ r.events) :
    a.finished = some reason := by
  obtain ⟨tick', htold⟩ := h.told a ha
  have hfilter : Event.agentFinished tick a.id reason ∈ r.events.filter (ends a.id) :=
    List.mem_filter.mpr ⟨hmem, decide_eq_true rfl⟩
  rw [htold] at hfilter
  split_ifs at hfilter
  · exact absurd hfilter List.not_mem_nil
  · cases hf : a.finished with
    | none =>
      rw [Agent.farewell_of_none hf] at hfilter
      exact absurd hfilter List.not_mem_nil
    | some reason' =>
      rw [Agent.farewell_of_some hf] at hfilter
      cases List.mem_singleton.mp hfilter
      rfl

/-- Only a program without a beginning leaves agents to be reported. -/
theorem root_eq_none (h : r.Announced) (hne : r.sim.unreported ≠ []) :
    r.sim.program.root = none := by
  obtain ⟨⟨w, -, -, hunreported⟩, -⟩ := h.untouched hne
  cases hroot : r.sim.program.root with
  | none => rfl
  | some root =>
    refine absurd ?_ hne
    rw [hunreported, Simulation.begun, hroot]
    rfl

theorem exists_idle (h : r.Announced) (hs : r.sim.Sound) {id : AgentId}
    (hid : id ∈ r.sim.unreported) : ∃ a, r.sim.world.agent? id = some a ∧ a.id = id ∧
      a.isIdle = true ∧ a.finished = some .endOfProgram := by
  have hne := List.ne_nil_of_mem hid
  have hroot := h.root_eq_none hne
  obtain ⟨⟨w, -, hworld, hunreported⟩, -⟩ := h.untouched hne
  -- the numbers that are left are those of the agents that were started
  have hall : id ∈ w.agents.map Agent.id := by
    rw [hunreported, Simulation.begun, hroot] at hid
    exact hid
  obtain ⟨fresh, hfresh, rfl⟩ := List.mem_map.mp hall
  have hmem : fresh.begun r.sim.program ∈ r.sim.world.agents := by
    rw [hworld]
    exact List.mem_map_of_mem hfresh
  have hsame := Agent.begun_id r.sim.program fresh
  obtain ⟨hidle, hfinished⟩ := Agent.begun_of_root_eq_none (a := fresh) hroot
  exact ⟨_, hsame ▸ hs.agent?_id hmem, hsame, hidle, hfinished⟩

theorem exists_start (h : r.Announced) (hne : r.sim.unreported ≠ []) : ∃ t c,
    r.sim.start = .ok (t, c) ∧ t.world = r.sim.world ∧ t.unreported = r.sim.unreported := by
  obtain ⟨⟨w, hw, hworld, hunreported⟩, -⟩ := h.untouched hne
  obtain ⟨c, hc⟩ := Simulation.exists_start_iff.mpr ⟨w, hw, rfl⟩
  exact ⟨_, c, hc, hworld.symm, hunreported.symm⟩

theorem reportedOnce (h : r.Announced) (hs : r.sim.Sound) : r.ReportedOnce where
  countP_eq _ ha := h.countP_eq ha
  reason_eq _ ha _ _ hmem := h.reason_eq ha hmem
  nodup := h.nodup
  idle _ hid := h.exists_idle hs hid
  started hne := ⟨(h.untouched hne).2, h.exists_start hne⟩

end Announced

end Record

namespace Simulation

variable {s t : Simulation} {c : Chronicle}

/-- Who stops in a tick is reported in this very tick. -/
theorem IsAttained.filter_ends_of_step (h : s.IsAttained) {count : Nat}
    (ht : s.step = .ok (count, t, c)) {i : Nat} {a b : Agent} (ha : s.world.agents[i]? = some a)
    (hb : t.world.agents[i]? = some b) (hidle : a.isIdle = false) (hstops : b.isIdle = true) :
    ∃ reason, b.finished = some reason ∧
      c.events.filter (ends a.id) = [.agentFinished s.clock a.id reason] := by
  have hs := h.sound
  obtain ⟨r, hr, rfl⟩ := h
  have hcoherent := hs.coherent a (List.mem_of_getElem? ha)
  have hevents := hs.filter_ends_of_step hr.announced.nodup ht ha hb
  have hlives := forall₂_lives_of_step hs.coherent ht
  obtain ⟨b', hb', hab⟩ := exists_getElem?_of_forall₂ hlives ha
  obtain rfl := Option.some.inj (hb'.symm.trans hb)
  have hne : a.phase ≠ .idle := by
    intro hphase
    rw [Agent.isIdle_iff.mpr hphase] at hidle
    cases hidle
  obtain ⟨reason, hreason⟩ := hab.exists_finished hne (Agent.isIdle_iff.mp hstops)
  refine ⟨reason, hreason, ?_⟩
  rw [hevents, hidle, Agent.farewell_of_none (hcoherent.finished_eq_none hidle), ite_self,
    Agent.farewell_of_some hreason, hab.id_eq]
  rfl

/-- Whatever a host asks for, every ending is reported exactly once: those that a start brings
about with the next tick or at the end of a run, and any other in the very tick in which the agent
stops. -/
theorem Reachable.endings_reported (h : s.Reachable) :
    (∃ r : Record, r.Reachable ∧ r.sim = s) ∧
    (∀ r : Record, r.Reachable → r.sim = s → r.ReportedOnce) ∧
    (∀ t, s.TicksAt t → ∀ count u c, t.step = .ok (count, u, c) →
      ∀ (i : Nat) (a b : Agent), t.world.agents[i]? = some a → u.world.agents[i]? = some b →
        a.isIdle = false → b.isIdle = true → ∃ reason, b.finished = some reason ∧
          c.events.filter (ends a.id) = [.agentFinished t.clock a.id reason]) := by
  refine ⟨h.exists_record, fun r hr _ => ?_, ?_⟩
  · exact hr.attained.announced.reportedOnce hr.attained.sound
  · intro t ht count u c hu i a b ha hb hidle hstops
    exact (ht.isAttained h.isAttained).filter_ends_of_step hu ha hb hidle hstops

/-- In the corridor the agent stops with the third tick of a run, and is reported once. -/
theorem endings_reported_corridor : ∃ (s : Simulation) (r : Record), s.Reachable ∧ r.Reachable ∧
    r.sim = s ∧ r.events.countP (ends ⟨0⟩) = 1 ∧
      ∀ tick reason, Event.agentFinished tick ⟨0⟩ reason ∈ r.events → reason = .endOfProgram := by
  have hstarted := reachable_corridor.perform (show Request.start.IsAdmissible from trivial) rfl
  have hs := hstarted.perform (show Request.run.IsAdmissible from trivial) rfl
  obtain ⟨⟨r, hr, hsim⟩, hreported, -⟩ := hs.endings_reported
  have honce := hreported r hr hsim
  obtain ⟨a, ha, hid, hfinished⟩ : ∃ a ∈ r.sim.world.agents, a.id = ⟨0⟩ ∧
      a.finished = some .endOfProgram := by
    rw [hsim]
    exact ⟨_, List.mem_cons_self, rfl, rfl⟩
  have hunreported : r.sim.unreported = [] := by rw [hsim]
  have hcount := honce.countP_eq a ha
  rw [hid, hfinished, hunreported] at hcount
  refine ⟨_, r, hs, hr, hsim, hcount, fun tick reason hmem => ?_⟩
  have hreason := honce.reason_eq a ha tick reason (hid ▸ hmem)
  exact Option.some.inj (hreason.symm.trans hfinished)

end Simulation

end TileWalk
