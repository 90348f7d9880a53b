import TileWalk.Proofs.Simulation.Sound

/-!
# What a tick tells of endings

Observers are told that an agent stopped in three places of a tick: before it for those that
stopped when they were started, in the first phase for those that arrive and stop, and in the
second phase for those that execute and stop. Numbers of agents are distinct, so each place tells
of an agent at most once (`filter_ends_flatMap`). Together a tick tells of an agent exactly what
was left to be told of it before and, if it was not idle already, how it ended in this tick
(`Simulation.Sound.filter_ends_of_step`).
-/

namespace TileWalk

open Outcome

namespace Event

/-- Observers are told that an agent stopped. -/
def isEnding : Event → Bool
  | .agentFinished _ _ _ => true
  | _ => false

/-- Observers are told that a certain agent stopped. -/
def ends (id : AgentId) : Event → Bool
  | .agentFinished _ agent _ => agent = id
  | _ => false

theorem filter_ends_filter_isEnding (events : List Event) (id : AgentId) :
    (events.filter isEnding).filter (ends id) = events.filter (ends id) := by
  rw [List.filter_filter]
  refine List.filter_congr fun e _ => ?_
  cases e <;> simp [isEnding, ends]

/-- Every event tells that one and the same agent stopped. -/
def AreOf (events : List Event) (id : AgentId) : Prop :=
  ∀ e ∈ events, ∃ tick reason, e = .agentFinished tick id reason

theorem AreOf.ite {events : List Event} {id : AgentId} {told : Bool} (h : AreOf events id) :
    AreOf (if told then events else []) id := by
  intro e he
  cases told with
  | true => exact h e he
  | false => exact absurd he List.not_mem_nil

theorem AreOf.filter_ends {events : List Event} {id : AgentId} (h : AreOf events id) :
    events.filter (ends id) = events := by
  rw [List.filter_eq_self]
  intro e he
  obtain ⟨tick, reason, rfl⟩ := h e he
  simp [ends]

theorem AreOf.filter_isEnding {events : List Event} {id : AgentId} (h : AreOf events id) :
    events.filter isEnding = events := by
  rw [List.filter_eq_self]
  intro e he
  obtain ⟨tick, reason, rfl⟩ := h e he
  rfl

section

variable {α : Type} {k : α → AgentId} {f : α → List Event} {l : List α} {id : AgentId}

theorem filter_ends_flatMap_eq_nil (hf : ∀ x, AreOf (f x) (k x)) (hid : ∀ x ∈ l, k x ≠ id) :
    (l.flatMap f).filter (ends id) = [] := by
  rw [List.filter_eq_nil_iff]
  intro e he hends
  obtain ⟨x, hx, hex⟩ := List.mem_flatMap.mp he
  obtain ⟨tick, reason, rfl⟩ := hf x e hex
  exact hid x hx (of_decide_eq_true hends)

/-- Of several agents with different numbers only one tells of a certain agent. -/
theorem filter_ends_flatMap (hf : ∀ x, AreOf (f x) (k x)) (hkeys : (l.map k).Nodup) {x : α}
    (hx : x ∈ l) : (l.flatMap f).filter (ends (k x)) = f x := by
  induction l with
  | nil => exact absurd hx List.not_mem_nil
  | cons y l ih =>
    rw [List.map_cons, List.nodup_cons] at hkeys
    obtain ⟨hy, hrest⟩ := hkeys
    rw [List.flatMap_cons, List.filter_append]
    rcases List.mem_cons.mp hx with rfl | hlater
    · have hothers : ∀ z ∈ l, k z ≠ k x := by
        intro z hz hkey
        exact hy (hkey ▸ List.mem_map_of_mem hz)
      rw [(hf x).filter_ends, filter_ends_flatMap_eq_nil hf hothers, List.append_nil]
    · have hfirst : ∀ z ∈ [y], k z ≠ k x := by
        intro z hz hkey
        rw [List.mem_singleton.mp hz] at hkey
        exact hy (hkey ▸ List.mem_map_of_mem hlater)
      have hnone := filter_ends_flatMap_eq_nil hf hfirst
      rw [List.flatMap_singleton] at hnone
      rw [hnone, List.nil_append, ih hrest hlater]

end

end Event

open Event

/-! ### One agent -/

namespace Agent

variable {p : Program} {g : Grid} {frames : UInt32} {a b : Agent} {m : Agent × Bool}

/-- What observers are told of the ending of an agent, if it has one. -/
def farewell (tick : Tick) (a : Agent) : List Event :=
  match a.finished with
  | some reason => [.agentFinished tick a.id reason]
  | none => []

theorem areOf_farewell (tick : Tick) (a : Agent) : AreOf (a.farewell tick) a.id := by
  intro e he
  unfold farewell at he
  cases hf : a.finished with
  | none =>
    rw [hf] at he
    exact absurd he List.not_mem_nil
  | some reason =>
    rw [hf] at he
    exact ⟨tick, reason, List.mem_singleton.mp he⟩

theorem farewell_of_none (hf : a.finished = none) (tick : Tick) : a.farewell tick = [] := by
  unfold farewell
  rw [hf]

theorem farewell_of_some {reason : Ending} (hf : a.finished = some reason) (tick : Tick) :
    a.farewell tick = [.agentFinished tick a.id reason] := by
  unfold farewell
  rw [hf]

theorem finishEvents_eq (now : Tick) (a : Agent) :
    Simulation.finishEvents now a = if a.isIdle then a.farewell now else [] :=
  rfl

theorem areOf_finishEvents (now : Tick) (a : Agent) :
    AreOf (Simulation.finishEvents now a) a.id := by
  rw [finishEvents_eq]
  split_ifs
  · exact areOf_farewell now a
  · intro e he
    exact absurd he List.not_mem_nil

/-- A coherent agent that is not idle has no ending. -/
theorem Coherent.finished_eq_none (h : a.Coherent) (hidle : a.isIdle = false) :
    a.finished = none := by
  cases hphase : a.phase with
  | idle =>
    rw [isIdle_iff.mpr hphase] at hidle
    cases hidle
  | executing => exact (h.of_executing hphase).2
  | moving sequel => exact (h.of_moving sequel hphase).2.1

/-- Only an idle agent has an ending, so observers are told of it whenever there is one. -/
theorem Coherent.finishEvents_eq_farewell (h : a.Coherent) (now : Tick) :
    Simulation.finishEvents now a = a.farewell now := by
  rw [finishEvents_eq]
  cases hidle : a.isIdle with
  | true => rfl
  | false => exact (farewell_of_none (h.finished_eq_none hidle) now).symm

theorem phase_follow_eq_idle_iff {sequel : Sequel} :
    (a.follow sequel).phase = .idle ↔ ∃ reason, sequel = .finish reason := by
  cases sequel <;> simp [follow]

/-- Who becomes idle in a tick has an ending. -/
theorem Lives.exists_finished (h : Lives p g frames a b) (ha : a.phase ≠ .idle)
    (hb : b.phase = .idle) : ∃ reason, b.finished = some reason := by
  cases h with
  | rest hphase => exact absurd hphase ha
  | act =>
    obtain ⟨reason, rfl⟩ := phase_follow_eq_idle_iff.mp hb
    exact ⟨reason, rfl⟩
  | depart => cases hb
  | travel hphase =>
    cases hphase.symm.trans hb
  | arrive =>
    obtain ⟨reason, rfl⟩ := phase_follow_eq_idle_iff.mp hb
    exact ⟨reason, rfl⟩

/-- In one of the two phases of a tick observers are told of the ending of an agent that was not
idle; of an agent that was idle they are told nothing. -/
theorem Coherent.tell_eq (h : a.Coherent) (hm : Moves g a m) (hb : Dispatches p g frames m b)
    (now : Tick) : ((if m.2 then Simulation.finishEvents now m.1 else []) ++
      if isDue m then Simulation.finishEvents now b else []) =
        if a.isIdle then [] else b.farewell now := by
  have hlives : Lives p g frames a b := h.lives (h.live_eq_ok_iff.mpr ⟨m, hm, hb⟩)
  have hcoherent : b.Coherent := hlives.coherent h
  have hbye := hcoherent.finishEvents_eq_farewell now
  have hdue := h.isDue_eq hm
  rw [hdue, hbye]
  cases hphase : a.phase with
  | idle =>
    obtain rfl := (moves_iff_of_motion_none (h.of_idle hphase).2).mp hm
    simp [isIdle, isExecuting, hphase]
  | executing =>
    obtain rfl := (moves_iff_of_motion_none (h.of_executing hphase).1).mp hm
    simp [isIdle, isExecuting, hphase]
  | moving sequel =>
    have hidle : a.isIdle = false := by simp [isIdle, hphase]
    have hexecuting : a.isExecuting = false := by simp [isExecuting, hphase]
    rw [hidle, hexecuting]
    obtain ⟨-, -, motion, hmotion, -⟩ := h.of_moving sequel hphase
    obtain ⟨arrival?, ha, hflag⟩ := hm
    unfold Dispatches at hb
    cases arrival? with
    | some arrival =>
      rw [hflag] at hb ⊢
      obtain rfl : b = m.1 := hb
      simpa using hbye
    | none =>
      -- an agent that is still moving has no ending
      rw [hflag] at hb ⊢
      obtain ⟨d?, hd⟩ := hb
      rw [execute_of_ne (phase_ne_of_advance_none hphase hmotion ha)] at hd
      obtain ⟨-, rfl⟩ := Prod.mk.inj (Except.ok.inj hd)
      have hmoving : m.1.isIdle = false := by
        simp [isIdle, phase_eq_of_advance_none hphase hmotion ha]
      simp [farewell_of_none (hcoherent.finished_eq_none hmoving)]

end Agent

/-! ### All agents -/

namespace Simulation

open Agent

variable {p : Program} {g : Grid} {frames : UInt32} {now : Tick} {agents : List Agent}
  {moved : List (Agent × Bool)} {stock stock' : Stock} {count : Nat} {c : Chronicle}
  {s t : Simulation}

/-- In the first phase observers are told of the endings of those that arrive, in order. -/
theorem filter_isEnding_moveAgents (h : moveAgents g now agents stock = .ok (moved, stock', c)) :
    c.events.filter isEnding = moved.flatMap fun m => if m.2 then finishEvents now m.1 else [] := by
  induction agents generalizing moved stock c with
  | nil =>
    obtain ⟨rfl, -, rfl⟩ := by simpa [moveAgents] using h
    rfl
  | cons a agents ih =>
    obtain ⟨arrival?, b, stock₁, here, rest, c₁, ha, hland, hrest, rfl, rfl⟩ :=
      moveAgents_cons_eq_ok_iff.mp h
    rw [Chronicle.events_append, List.filter_append, ih hrest, List.flatMap_cons]
    congr 1
    cases arrival? with
    | none =>
      obtain ⟨-, rfl⟩ := Prod.mk.inj (Except.ok.inj hland)
      rfl
    | some arrival =>
      obtain ⟨⟨items, stock₂⟩, -, hpure⟩ := bind_eq_ok_iff.mp hland
      obtain ⟨-, rfl⟩ := Prod.mk.inj (pure_eq_ok_iff.mp hpure)
      -- the items of the cell are told of first
      have hitems : (items.map (Event.itemCollected now b.id)).filter isEnding = [] := by
        simp [List.filter_eq_nil_iff, isEnding]
      rw [Chronicle.events_append, Chronicle.events_append, events_collected, List.filter_append,
        List.filter_append, hitems]
      exact (areOf_finishEvents now b).filter_isEnding

theorem map_id_of_moves (h : List.Forall₂ (Moves g) agents moved) :
    moved.map (fun m => m.1.id) = agents.map Agent.id := by
  induction h with
  | nil => rfl
  | cons ha _ ih =>
    obtain ⟨arrival?, ha, -⟩ := ha
    rw [List.map_cons, List.map_cons, ih, advance_id ha]

theorem events_of_act {m : Agent × Bool} {b : Agent} {n : Nat} {here : Chronicle}
    (h : act p g frames now m = .ok (b, n, here)) :
    here.events = if isDue m then finishEvents now b else [] := by
  obtain ⟨a, flag⟩ := m
  cases flag with
  | true =>
    obtain ⟨-, -, rfl⟩ := by simpa [act] using h
    rfl
  | false =>
    obtain ⟨⟨d?, b'⟩, hb, hpure⟩ := bind_eq_ok_iff.mp h
    by_cases hphase : a.phase = .executing
    · obtain ⟨o, -, rfl, -⟩ := (execute_eq_ok_iff hphase).mp hb
      obtain ⟨rfl, -, rfl⟩ := by simpa using pure_eq_ok_iff.mp hpure
      simp [isDue, isExecuting, hphase]
    · rw [execute_of_ne hphase] at hb
      obtain ⟨rfl, rfl⟩ := Prod.mk.inj (Except.ok.inj hb)
      obtain ⟨rfl, -, rfl⟩ := by simpa using pure_eq_ok_iff.mp hpure
      simp [isDue, isExecuting, hphase, Chronicle.empty]

/-- In the second phase observers are told of the endings of those that execute, in order, and of
nothing else. -/
theorem events_dispatchAgents (h : dispatchAgents p g frames now moved = .ok (agents, count, c)) :
    c.events = (moved.zip agents).flatMap fun x => if isDue x.1 then finishEvents now x.2 else [] := by
  induction moved generalizing agents count c with
  | nil =>
    obtain ⟨rfl, -, rfl⟩ := by simpa [dispatchAgents] using h
    rfl
  | cons m moved ih =>
    obtain ⟨b, n, here, rest, k, c₁, hact, hrest, rfl, -, rfl⟩ :=
      dispatchAgents_cons_eq_ok_iff.mp h
    rw [Chronicle.events_append, events_of_act hact, ih hrest, List.zip_cons_cons,
      List.flatMap_cons]

theorem filter_ends_moveAgents (h : moveAgents g now agents stock = .ok (moved, stock', c))
    (hnodup : (agents.map Agent.id).Nodup) {i : Nat} {m : Agent × Bool} (hm : moved[i]? = some m) :
    c.events.filter (ends m.1.id) = if m.2 then finishEvents now m.1 else [] := by
  have hkeys : (moved.map fun m => m.1.id).Nodup := by
    rw [map_id_of_moves (forall₂_moves h)]
    exact hnodup
  rw [← filter_ends_filter_isEnding, filter_isEnding_moveAgents h]
  refine filter_ends_flatMap (fun m => ?_) hkeys (List.mem_of_getElem? hm)
  exact (areOf_finishEvents now m.1).ite

theorem filter_ends_dispatchAgents
    (h : dispatchAgents p g frames now moved = .ok (agents, count, c))
    (hnodup : (agents.map Agent.id).Nodup) {i : Nat} {m : Agent × Bool} {b : Agent}
    (hm : moved[i]? = some m) (hb : agents[i]? = some b) :
    c.events.filter (ends b.id) = if isDue m then finishEvents now b else [] := by
  have hlength := (forall₂_dispatches h).1.length_eq
  have hsnd : (moved.zip agents).map Prod.snd = agents :=
    List.map_snd_zip (Nat.le_of_eq hlength.symm)
  have hkeys : ((moved.zip agents).map fun x => x.2.id).Nodup := by
    rw [← hsnd, List.map_map] at hnodup
    exact hnodup
  have hplace : (m, b) ∈ moved.zip agents :=
    List.mem_of_getElem? (List.getElem?_zip_eq_some.mpr ⟨hm, hb⟩)
  rw [events_dispatchAgents h]
  refine filter_ends_flatMap (k := fun x => x.2.id) (fun x => ?_) hkeys hplace
  exact (areOf_finishEvents now x.2).ite

/-! ### Whole ticks -/

/-- What observers are told at the beginning of a tick of an agent that has not been reported. -/
def pendingOf (s : Simulation) (id : AgentId) : List Event :=
  match (s.world.agent? id).bind Agent.finished with
  | some reason => [.agentFinished s.clock id reason]
  | none => []

theorem pendingEvents_eq (s : Simulation) : s.pendingEvents = s.unreported.flatMap s.pendingOf :=
  rfl

theorem areOf_pendingOf (s : Simulation) (id : AgentId) : AreOf (s.pendingOf id) id := by
  intro e he
  unfold pendingOf at he
  cases hf : (s.world.agent? id).bind Agent.finished with
  | none =>
    rw [hf] at he
    exact absurd he List.not_mem_nil
  | some reason =>
    rw [hf] at he
    exact ⟨s.clock, reason, List.mem_singleton.mp he⟩

theorem Sound.agent?_id (hs : s.Sound) {a : Agent} (ha : a ∈ s.world.agents) :
    s.world.agent? a.id = some a := by
  obtain ⟨i, hi⟩ := List.mem_iff_getElem?.mp ha
  unfold World.agent?
  rw [hs.index_id hi]
  exact hi

/-- Observers are told of an agent that has not been reported, and of no other one. -/
theorem Sound.filter_ends_pendingEvents (hs : s.Sound) (hnodup : s.unreported.Nodup) {a : Agent}
    (ha : a ∈ s.world.agents) : s.pendingEvents.filter (ends a.id) =
      if a.id ∈ s.unreported then a.farewell s.clock else [] := by
  rw [pendingEvents_eq]
  have hkeys : (s.unreported.map fun id => id).Nodup := by simpa using hnodup
  by_cases hid : a.id ∈ s.unreported
  · rw [if_pos hid, filter_ends_flatMap s.areOf_pendingOf hkeys hid]
    unfold pendingOf farewell
    rw [hs.agent?_id ha]
    rfl
  · rw [if_neg hid, filter_ends_flatMap_eq_nil s.areOf_pendingOf]
    intro id hmem he
    exact hid (he ▸ hmem)

theorem Sound.nodup_map_id (hs : s.Sound) : (s.world.agents.map Agent.id).Nodup := by
  rw [List.nodup_iff_pairwise_ne, List.pairwise_map]
  refine hs.pairwise_agents.imp fun {a b} hlt he => ?_
  rw [he] at hlt
  exact Nat.lt_irrefl _ hlt

/-- In a tick observers are told of an agent what was left to be told of it and, if it was not idle
already, how it ended in this tick. -/
theorem Sound.filter_ends_of_step (hs : s.Sound) (hnodup : s.unreported.Nodup)
    (h : s.step = .ok (count, t, c)) {i : Nat} {a b : Agent} (ha : s.world.agents[i]? = some a)
    (hb : t.world.agents[i]? = some b) : c.events.filter (ends a.id) =
      (if a.id ∈ s.unreported then a.farewell s.clock else []) ++
        if a.isIdle then [] else b.farewell s.clock := by
  have hnumbers := hs.nodup_map_id
  have hmem := List.mem_of_getElem? ha
  have hcoherent := hs.coherent a hmem
  have hids : t.world.agents.map Agent.id = s.world.agents.map Agent.id := by
    have hboard : t.board = s.board := by
      obtain ⟨_, _, _, _, _, _, -, -, -, rfl, -⟩ := step_eq_ok_iff.mp h
      rfl
    rw [(hs.step h).ids, hs.ids, hboard]
  have hpending := hs.filter_ends_pendingEvents hnodup hmem
  obtain ⟨moved, stock, c₁, agents, c₂, clock, hmoved, hagents, -, rfl, rfl⟩ :=
    step_eq_ok_iff.mp h
  -- the agent is found at its place after the first phase and after the second
  have hmoves := forall₂_moves hmoved
  have hdispatches := (forall₂_dispatches hagents).1
  obtain ⟨m, hm, hmove⟩ := exists_getElem?_of_forall₂ hmoves ha
  obtain ⟨b', hb', hdispatch⟩ := exists_getElem?_of_forall₂ hdispatches hm
  obtain rfl := Option.some.inj (hb'.symm.trans hb)
  have hidm : m.1.id = a.id := by
    obtain ⟨arrival?, hadvance, -⟩ := hmove
    exact advance_id hadvance
  have hidb : b'.id = a.id := by
    have hsame := congrArg (fun ids => ids[i]?) hids
    simpa [hb, ha] using hsame
  have hfirst : c₁.events.filter (ends a.id) =
      if m.2 then finishEvents s.clock m.1 else [] :=
    hidm ▸ filter_ends_moveAgents hmoved hnumbers hm
  have hsecond : c₂.events.filter (ends a.id) =
      if isDue m then finishEvents s.clock b' else [] :=
    hidb ▸ filter_ends_dispatchAgents hagents (hids ▸ hnumbers) hm hb
  have htell := hcoherent.tell_eq hmove hdispatch s.clock
  rw [← htell, ← hfirst, ← hsecond, ← hpending]
  simp only [Chronicle.events_append, List.filter_append, Chronicle.ofEvents]
  have hend : ∀ shown : List Event, shown.filter (ends a.id) = [] →
      (Event.tickEnd s.clock count :: shown).filter (ends a.id) = [] := fun shown hshown => hshown
  rw [hend, List.append_nil, List.append_assoc]
  · rfl
  · split_ifs <;> rfl

end Simulation

end TileWalk
