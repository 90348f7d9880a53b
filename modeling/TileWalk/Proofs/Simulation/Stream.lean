import TileWalk.Proofs.Agent.Journey
import TileWalk.Proofs.Simulation.Faultless
import TileWalk.Proofs.Simulation.Items

/-!
# What a tick tells

What observers are told of a tick can be read off the simulation before it and the world after it
(`Simulation.stream`): that it begins, who was left to be reported, what happens where agents
arrive, who executes and stops, that it ends, and perhaps what the world looks like. All of this
carries the number of the tick, and agents and items come in the order of their numbers
(`Simulation.IsAttained.events_of_step`).

The clock is never set back, and every tick that it counts begins once. So whatever a host asks
for, the ticks of which observers are told that they begin follow each other without gaps
(`Simulation.Reachable.tick_stream`).
-/

namespace TileWalk

open Outcome

/-! ### Agents that arrive -/

namespace Agent

variable {p : Program} {g : Grid} {a b : Agent} {arrival? : Option Arrival}

/-- The cell to which the agent comes in the next tick: the next one ahead, if its move has one tick
left. -/
def goal? (a : Agent) : Option Pos :=
  if a.remainFrames = 1 then some (a.pos.ahead a.facing) else none

/-- The reason for which the agent stops when its move is over, if it does. -/
def parting? (a : Agent) : Option Ending :=
  match a.phase with
  | .moving sequel => sequel.reason?
  | _ => none

theorem goal?_of_motion_none (hm : a.motion = none) : a.goal? = none := by
  unfold goal? remainFrames
  rw [hm]
  rfl

theorem goal?_of_motion_some {m : Motion} (hm : a.motion = some m) :
    a.goal? = if m.remaining.toNat = 1 then some (a.pos.ahead a.facing) else none := by
  unfold goal? remainFrames
  rw [hm]
  dsimp only
  simp only [← UInt32.toNat_inj]
  rfl

theorem finishEvents_follow (now : Tick) (a : Agent) (sequel : Sequel) :
    Simulation.finishEvents now (a.follow sequel) =
      (sequel.reason?.map (Event.agentFinished now a.id)).toList := by
  cases sequel <;> rfl

/-- A sound agent arrives at its goal, and stops there if its move is the last thing it does. -/
theorem Sound.advance_goal? (h : a.Sound p g) (ha : a.advance g = .ok (arrival?, b)) :
    arrival?.map Arrival.pos = a.goal? ∧ (arrival?.isSome → ∀ now,
      Simulation.finishEvents now b = (a.parting?.map (Event.agentFinished now a.id)).toList) := by
  cases hm : a.motion with
  | none =>
    rw [advance_of_none hm] at ha
    obtain ⟨rfl, -⟩ := Prod.mk.inj (Except.ok.inj ha)
    exact ⟨(goal?_of_motion_none hm).symm, fun hsome => nomatch hsome⟩
  | some m =>
    have hrem := m.toNat_remaining_advance
    rw [goal?_of_motion_some hm]
    cases hphase : a.phase with
    | idle => rw [(h.of_idle hphase).2] at hm; cases hm
    | executing => rw [(h.of_executing hphase).1] at hm; cases hm
    | moving sequel =>
      have hway := h.isUnderWay hm
      have hpos := hway.remaining_pos
      cases hover : m.advance.isOver with
      | false =>
        have hne := Motion.isOver_eq_false_iff.mp hover
        rw [advance_of_not_isOver hm hover] at ha
        obtain ⟨rfl, -⟩ := Prod.mk.inj (Except.ok.inj ha)
        rw [if_neg (by omega)]
        exact ⟨rfl, fun hsome => nomatch hsome⟩
      | true =>
        have hzero := Motion.isOver_iff.mp hover
        obtain ⟨goal, ticks, o, hgoal, -, -, rfl, rfl⟩ :=
          (advance_eq_ok_iff_of_isOver hm hover).mp ha
        rw [if_pos (by omega), h.destination_eq hm hgoal]
        refine ⟨rfl, fun _ now => ?_⟩
        rw [finishEvents_follow]
        unfold sequelOnArrival parting?
        rw [hphase]

end Agent

/-! ### What is told -/

/-- Ticks may be processed for the request. -/
def Request.processes : Request → Bool
  | .tick => true
  | .run => true
  | .tickMany _ => true
  | _ => false

/-- Observers are told that a tick begins. -/
def Event.begun? : Event → Option Tick
  | .tickStart tick => some tick
  | _ => none

namespace Simulation

open Agent

/-- The items as an agent finds them: agents with smaller numbers that arrive in the same tick have
collected theirs. -/
def itemsBefore (agents : List Agent) (items : List Item) (a : Agent) : List Item :=
  items.map (Item.after ((agents.filter fun b => b.id.index < a.id.index).filterMap Agent.goal?))

/-- What is told of an agent whose move ends: the visible items of the cell to which it comes, and
that it stops, if it does. -/
def arrivalEvents (now : Tick) (agents : List Agent) (items : List Item) (a : Agent) : List Event :=
  match a.goal? with
  | some pos =>
    ((itemsBefore agents items a).filter (Stock.liesAt pos)).map
        (fun i => .itemCollected now a.id i.id) ++
      (a.parting?.map (.agentFinished now a.id)).toList
  | none => []

/-- What is told of an agent that executes, was `a` before and is `b` now: that it stops, if it
does. -/
def stopEvents (now : Tick) : Agent × Agent → List Event
  | (a, b) => if a.isExecuting && b.isIdle then b.farewell now else []

/-- What is told of a tick of `s` after which the world is `w`. -/
def stream (s : Simulation) (w : World) : List Event :=
  [.tickStart s.clock] ++
    s.unreported.map (.agentFinished s.clock · .endOfProgram) ++
    s.world.agents.flatMap (arrivalEvents s.clock s.world.agents s.world.stock.items) ++
    (s.world.agents.zip w.agents).flatMap (stopEvents s.clock) ++
    [.tickEnd s.clock (s.world.agents.countP Agent.isExecuting)] ++
    if 0 < s.config.snapshotInterval.toNat ∧
        s.config.snapshotInterval.toNat ∣ s.clock.count.toNat then
      [.snapshot s.clock w]
    else []

/-! ### The phases of a tick -/

variable {p : Program} {g : Grid} {frames : UInt32} {now : Tick} {agents before : List Agent}
  {moved : List (Agent × Bool)} {items : List Item} {stock stock' : Stock} {count : Nat}
  {c : Chronicle} {s t u : Simulation}

/-- Where numbers increase, those that come before an agent are those with smaller numbers. -/
theorem filter_lt_eq {a : Agent}
    (hsorted : (before ++ a :: agents).Pairwise fun a b => a.id.index < b.id.index) :
    (before ++ a :: agents).filter (fun b => b.id.index < a.id.index) = before := by
  obtain ⟨-, hrest, hfirst⟩ := List.pairwise_append.mp hsorted
  obtain ⟨hlater, -⟩ := List.pairwise_cons.mp hrest
  have hbefore : before.filter (fun b => b.id.index < a.id.index) = before :=
    List.filter_eq_self.mpr fun b hb => decide_eq_true (hfirst b hb a List.mem_cons_self)
  have hnone : (a :: agents).filter (fun b => b.id.index < a.id.index) = [] := by
    rw [List.filter_eq_nil_iff]
    intro b hb
    rcases List.mem_cons.mp hb with rfl | hb
    · simp
    · have hlt := hlater b hb
      simp only [decide_eq_true_eq]
      omega
  rw [List.filter_append, hbefore, hnone, List.append_nil]

theorem events_of_land {a b : Agent} {arrival? : Option Arrival} {here : Chronicle}
    (h : a.Sound p g) (ha : a.advance g = .ok (arrival?, b))
    (hland : land now b stock arrival? = .ok (stock', here))
    (hitems : stock.items = itemsBefore agents items a) :
    here.events = arrivalEvents now agents items a := by
  obtain ⟨hgoal, hparting⟩ := h.advance_goal? ha
  unfold arrivalEvents
  rw [← hgoal, ← hitems]
  cases arrival? with
  | none =>
    obtain ⟨-, rfl⟩ := Prod.mk.inj (Except.ok.inj hland)
    rfl
  | some arrival =>
    obtain ⟨⟨ids, stock₁⟩, hids, hpure⟩ := bind_eq_ok_iff.mp hland
    obtain ⟨-, rfl⟩ := Prod.mk.inj (pure_eq_ok_iff.mp hpure)
    obtain ⟨rfl, -⟩ := Stock.collectAt_eq_ok_iff.mp hids
    rw [Chronicle.events_append, Chronicle.events_append, events_collected, List.map_map,
      Chronicle.ofEvents, hparting rfl, advance_id ha]
    rfl

/-- The first phase tells of the agents that arrive, one after the other. -/
theorem events_moveAgents (hs : ∀ a ∈ agents, a.Sound p g)
    (hsorted : (before ++ agents).Pairwise fun a b => a.id.index < b.id.index)
    (hstock : stock.items = items.map (Item.after (before.filterMap Agent.goal?)))
    (h : moveAgents g now agents stock = .ok (moved, stock', c)) :
    c.events = agents.flatMap (arrivalEvents now (before ++ agents) items) := by
  induction agents generalizing before moved stock c with
  | nil =>
    obtain ⟨-, -, rfl⟩ := by simpa [moveAgents] using h
    rfl
  | cons a agents ih =>
    obtain ⟨arrival?, b, stock₁, here, rest, c₁, ha, hland, hrest, -, rfl⟩ :=
      moveAgents_cons_eq_ok_iff.mp h
    have hsound := hs a List.mem_cons_self
    have hhere : here.events = arrivalEvents now (before ++ a :: agents) items a := by
      refine events_of_land hsound ha hland ?_
      rw [hstock, itemsBefore, filter_lt_eq hsorted]
    -- what the agent collects is gone for those that come after it
    have hstock₁ : stock₁.items =
        items.map (Item.after ((before ++ [a]).filterMap Agent.goal?)) := by
      obtain ⟨hgoal, -⟩ := hsound.advance_goal? ha
      rw [List.filterMap_append, ← Item.map_after_after, ← hstock, List.filterMap_cons, ← hgoal]
      cases arrival? with
      | none =>
        obtain ⟨rfl, -⟩ := Prod.mk.inj (Except.ok.inj hland)
        exact (Item.map_after_nil _).symm
      | some arrival =>
        obtain ⟨⟨ids, stock₂⟩, hids, hpure⟩ := bind_eq_ok_iff.mp hland
        obtain ⟨rfl, -⟩ := Prod.mk.inj (pure_eq_ok_iff.mp hpure)
        exact (Stock.collectAt_eq_ok_iff.mp hids).2.1
    rw [List.append_cons] at hsorted hhere ⊢
    rw [Chronicle.events_append, hhere,
      ih (fun a hmem => hs a (List.mem_cons_of_mem _ hmem)) hsorted hstock₁ hrest,
      List.flatMap_cons]

/-- The second phase tells of the agents that execute and stop, one after the other. -/
theorem events_dispatchAgents_of_moves (hs : ∀ a ∈ before, a.Coherent)
    (hmoves : List.Forall₂ (Moves g) before moved)
    (h : dispatchAgents p g frames now moved = .ok (agents, count, c)) :
    c.events = (before.zip agents).flatMap (stopEvents now) := by
  rw [events_dispatchAgents h]
  clear h
  induction hmoves generalizing agents with
  | nil => rfl
  | @cons a m before moved ha hmoves ih =>
    cases agents with
    | nil => rfl
    | cons b agents =>
      rw [List.zip_cons_cons, List.zip_cons_cons, List.flatMap_cons, List.flatMap_cons,
        ih (fun a hmem => hs a (List.mem_cons_of_mem _ hmem))]
      congr 1
      dsimp only
      rw [(hs a List.mem_cons_self).isDue_eq ha, finishEvents_eq, stopEvents]
      cases a.isExecuting <;> rfl

/-! ### Whole ticks -/

theorem isSnapshotTick_iff {interval : UInt64} : isSnapshotTick interval now = true ↔
    0 < interval.toNat ∧ interval.toNat ∣ now.count.toNat := by
  have hzero : interval ≠ 0 ↔ 0 < interval.toNat := by
    rw [Nat.pos_iff_ne_zero, ne_eq, ne_eq, ← UInt64.toNat_inj]
    rfl
  unfold isSnapshotTick
  rw [Bool.and_eq_true, decide_eq_true_iff, decide_eq_true_iff, hzero, Nat.dvd_iff_mod_eq_zero]

namespace IsAttained

theorem pendingEvents_eq_map (h : s.IsAttained) :
    s.pendingEvents = s.unreported.map (.agentFinished s.clock · .endOfProgram) := by
  have hs := h.sound
  obtain ⟨r, hr, rfl⟩ := h
  rw [pendingEvents_eq, List.map_eq_flatMap]
  refine List.flatMap_congr fun id hid => ?_
  obtain ⟨a, ha, -, -, hfinished⟩ := hr.announced.exists_idle hs hid
  unfold pendingOf
  rw [ha, Option.bind_some, hfinished]

/-- A tick tells no more and no less than what `stream` lists. -/
theorem events_of_step (h : s.IsAttained) (ht : s.step = .ok (count, t, c)) :
    c.events = s.stream t.world := by
  have hs := h.sound
  have hcount := (mapM_live_of_step hs.coherent ht).2
  obtain ⟨moved, stock, c₁, agents, c₂, clock, hmoved, hagents, -, rfl, rfl⟩ :=
    step_eq_ok_iff.mp ht
  have hfirst : c₁.events = _ := events_moveAgents hs.agents
    (show ([] ++ s.world.agents).Pairwise _ from hs.pairwise_agents) (Item.map_after_nil _).symm
    hmoved
  have hsecond := events_dispatchAgents_of_moves hs.coherent (forall₂_moves hmoved) hagents
  unfold stream
  rw [Chronicle.events_append, Chronicle.events_append, Chronicle.events_append, hfirst, hsecond,
    hcount, Chronicle.ofEvents, Chronicle.ofEvents, h.pendingEvents_eq_map]
  simp only [isSnapshotTick_iff, List.append_assoc]
  rfl

end IsAttained

/-! ### Requests without ticks -/

/-- A request for which no tick is processed tells nothing and leaves the clock alone. -/
theorem silent_of_perform {request : Request} (hprocesses : request.processes = false)
    (ht : s.perform request = .ok (t, c)) : t.clock = s.clock ∧ c.events = [] := by
  have hsignal : ∀ {u v : Simulation} {d : Chronicle} (signal : Signal),
      u.carryOut signal = .ok (v, d) → v.clock = u.clock ∧ d.events = [] :=
    fun signal hv => ⟨(frame_of_carryOut hv).2.1, events_of_carryOut hv⟩
  cases request with
  | start => exact hsignal .start ht
  | reset => exact hsignal .reset ht
  | load program => exact hsignal (.load program) ht
  | deliver payload =>
    unfold Simulation.perform deliver at ht
    dsimp only at ht
    cases hprogram : Program.ofPayload payload with
    | error e =>
      rw [hprogram] at ht
      obtain ⟨rfl, rfl⟩ := Prod.mk.inj (Except.ok.inj ht)
      exact ⟨rfl, rfl⟩
    | ok program =>
      rw [hprogram] at ht
      obtain ⟨⟨u, c₁⟩, hu, hrest⟩ := bind_eq_ok_iff.mp ht
      obtain ⟨⟨t', c₂⟩, ht', hpure⟩ := bind_eq_ok_iff.mp hrest
      obtain ⟨rfl, rfl⟩ := Prod.mk.inj (pure_eq_ok_iff.mp hpure)
      obtain ⟨hload, hsilent⟩ := hsignal (.load program) hu
      obtain ⟨hstart, hsilent'⟩ := hsignal .start ht'
      refine ⟨hstart.trans hload, ?_⟩
      rw [Chronicle.events_append, Chronicle.events_append, hsilent, hsilent']
      rfl
  | signal sent =>
    obtain ⟨rfl, rfl⟩ := Prod.mk.inj (Except.ok.inj ht)
    exact ⟨rfl, rfl⟩
  | configure config =>
    obtain ⟨rfl, rfl⟩ := Prod.mk.inj (Except.ok.inj ht)
    exact ⟨rfl, rfl⟩
  | _ => cases hprocesses

/-! ### The ticks that begin -/

/-- The clock has gone on by `n`, and observers were told of the ticks in between, one after the
other. -/
structure Counts (s t : Simulation) (c : Chronicle) (n : Nat) : Prop where
  clock : t.clock.count.toNat = s.clock.count.toNat + n
  begun : (c.events.filterMap Event.begun?).map (fun tick => tick.count.toNat) =
    List.range' s.clock.count.toNat n

namespace Counts

variable {d : Chronicle} {m n : Nat}

theorem of_silent (hclock : t.clock = s.clock) (hsilent : c.events.filterMap Event.begun? = []) :
    s.Counts t c 0 where
  clock := by rw [hclock, Nat.add_zero]
  begun := by rw [hsilent]; rfl

theorem append (h : s.Counts u c m) (h' : u.Counts t d n) : s.Counts t (c ++ d) (m + n) where
  clock := by rw [h'.clock, h.clock, Nat.add_assoc]
  begun := by
    rw [Chronicle.events_append, List.filterMap_append, List.map_append, h.begun, h'.begun, h.clock,
      List.range'_append_1]

theorem of_drain (h : s.drain = .ok (t, c)) : s.Counts t c 0 :=
  .of_silent (frame_of_drain h).2.1 (by rw [events_of_carryOutAll h]; rfl)

end Counts

theorem filterMap_begun?_map_agentFinished (now : Tick) (ids : List AgentId) :
    (ids.map (Event.agentFinished now · .endOfProgram)).filterMap Event.begun? = [] := by
  rw [List.filterMap_map, List.filterMap_eq_nil_iff]
  exact fun _ _ => rfl

theorem filterMap_begun?_stream (s : Simulation) (w : World) :
    (s.stream w).filterMap Event.begun? = [s.clock] := by
  have harrival : ∀ a, (arrivalEvents s.clock s.world.agents s.world.stock.items a).filterMap
      Event.begun? = [] := by
    intro a
    unfold arrivalEvents
    cases a.goal? with
    | none => rfl
    | some pos => cases a.parting? <;> simp [Event.begun?]
  have hstop : ∀ x, (stopEvents s.clock x).filterMap Event.begun? = [] := by
    rintro ⟨a, b⟩
    unfold stopEvents farewell
    dsimp only
    split_ifs
    · cases b.finished <;> rfl
    · rfl
  unfold stream
  simp only [List.filterMap_append, List.filterMap_flatMap, filterMap_begun?_map_agentFinished,
    harrival, hstop]
  split_ifs <;> simp [Event.begun?]

namespace IsAttained

variable {n : Nat}

theorem counts_step (h : s.IsAttained) (ht : s.step = .ok (count, t, c)) : s.Counts t c 1 where
  clock := (frame_of_step ht).2.2.2.2
  begun := by rw [h.events_of_step ht, filterMap_begun?_stream]; rfl

theorem counts_tick (h : s.IsAttained) (ht : s.tick = .ok (count, t, c)) :
    s.Counts t c 1 ∧ t.IsAttained := by
  obtain ⟨⟨u, c₀⟩, hu, hrest⟩ := bind_eq_ok_iff.mp ht
  obtain ⟨⟨k, t', d⟩, hstep, hpure⟩ := bind_eq_ok_iff.mp hrest
  obtain ⟨rfl, rfl, rfl⟩ := by simpa using pure_eq_ok_iff.mp hpure
  have hattained := h.drain hu
  exact ⟨(Counts.of_drain hu).append (hattained.counts_step hstep), hattained.step hstep⟩

theorem counts_tickMany (h : s.IsAttained) {counts : List Nat}
    (ht : s.tickMany n = .ok (counts, t, c)) : ∃ k, s.Counts t c k := by
  induction n generalizing s counts c with
  | zero =>
    obtain ⟨-, rfl, rfl⟩ := by simpa [tickMany] using ht
    exact ⟨0, .of_silent rfl rfl⟩
  | succ n ih =>
    obtain ⟨count, u, c₁, rest, c₂, hu, hrest, -, rfl⟩ := tickMany_succ_eq_ok_iff.mp ht
    obtain ⟨hfirst, hattained⟩ := h.counts_tick hu
    obtain ⟨k, hrest⟩ := ih hattained hrest
    exact ⟨1 + k, hfirst.append hrest⟩

theorem counts_runFor (h : s.IsAttained) {ticks : Nat} (ht : s.runFor n = .ok (ticks, t, c)) :
    ∃ k, s.Counts t c k := by
  induction n generalizing s ticks c with
  | zero =>
    obtain ⟨-, rfl, rfl⟩ := by simpa [runFor] using ht
    exact ⟨0, .of_silent rfl rfl⟩
  | succ n ih =>
    obtain ⟨ready, c₀, hready, ⟨-, -, rfl, rfl⟩ | ⟨-, count, u, c₁, l, c₂, hu, hrest, -, rfl⟩⟩ :=
      runFor_succ_eq_ok_iff.mp ht
    · refine ⟨0 + 0, (Counts.of_drain hready).append (.of_silent rfl ?_)⟩
      rw [Chronicle.ofEvents, (h.drain hready).pendingEvents_eq_map,
        filterMap_begun?_map_agentFinished]
    · have hattained := h.drain hready
      obtain ⟨k, hrest⟩ := ih (hattained.step hu) hrest
      exact ⟨_, (Counts.of_drain hready).append ((hattained.counts_step hu).append hrest)⟩

/-- Whatever is asked for, every tick that the clock counts begins once. -/
theorem counts_perform (h : s.IsAttained) {request : Request}
    (ht : s.perform request = .ok (t, c)) : ∃ k, s.Counts t c k := by
  cases hprocesses : request.processes with
  | false =>
    obtain ⟨hclock, hevents⟩ := silent_of_perform hprocesses ht
    exact ⟨0, .of_silent hclock (by rw [hevents]; rfl)⟩
  | true =>
    cases request with
    | tick =>
      obtain ⟨⟨count, u, d⟩, hu, hsame⟩ := map_eq_ok_iff.mp ht
      obtain ⟨rfl, rfl⟩ := Prod.mk.inj hsame
      exact ⟨1, (h.counts_tick hu).1⟩
    | run =>
      obtain ⟨⟨ticks, u, d⟩, hu, hsame⟩ := map_eq_ok_iff.mp ht
      obtain ⟨rfl, rfl⟩ := Prod.mk.inj hsame
      obtain ⟨⟨k, v, e⟩, hv, hpure⟩ := bind_eq_ok_iff.mp hu
      obtain ⟨rfl, rfl, rfl⟩ := by simpa using pure_eq_ok_iff.mp hpure
      obtain ⟨n, hn⟩ := h.counts_runFor hv
      exact ⟨n, hn.append (.of_silent rfl rfl)⟩
    | tickMany n =>
      obtain ⟨⟨counts, u, d⟩, hu, hsame⟩ := map_eq_ok_iff.mp ht
      obtain ⟨rfl, rfl⟩ := Prod.mk.inj hsame
      exact h.counts_tickMany hu
    | _ => cases hprocesses

theorem counts_performAll (h : s.IsAttained) {requests : List Request}
    (hrequests : ∀ request ∈ requests, request.IsAdmissible)
    (ht : s.performAll requests = .ok (t, c)) : ∃ k, s.Counts t c k := by
  induction requests generalizing s c with
  | nil =>
    obtain ⟨rfl, rfl⟩ := Prod.mk.inj (Except.ok.inj ht)
    exact ⟨0, .of_silent rfl rfl⟩
  | cons request requests ih =>
    obtain ⟨⟨u, c₁⟩, hu, hrest⟩ := bind_eq_ok_iff.mp ht
    obtain ⟨⟨t', c₂⟩, ht', hpure⟩ := bind_eq_ok_iff.mp hrest
    obtain ⟨rfl, rfl⟩ := Prod.mk.inj (pure_eq_ok_iff.mp hpure)
    obtain ⟨k, hfirst⟩ := h.counts_perform hu
    obtain ⟨l, hrest⟩ := ih (h.perform (hrequests request List.mem_cons_self) hu)
      (fun request hmem => hrequests request (List.mem_cons_of_mem _ hmem)) ht'
    exact ⟨k + l, hfirst.append hrest⟩

/-- Who is left to be reported is listed in the order of the numbers. -/
theorem pairwise_unreported (h : s.IsAttained) :
    (s.unreported.map Ident.index).Pairwise (· < ·) := by
  obtain ⟨r, hr, rfl⟩ := h
  by_cases hnone : r.sim.unreported = []
  · rw [hnone]
    exact .nil
  · obtain ⟨⟨w, hw, -, hunreported⟩, -⟩ := hr.announced.untouched hnone
    rw [hunreported, begun, hr.announced.root_eq_none hnone]
    show ((w.agents.map Agent.id).map Ident.index).Pairwise (· < ·)
    rw [World.map_index_of_ofBoard hr.sound.board hw]
    exact List.pairwise_lt_range

theorem index_id_item (h : s.IsAttained) {i : Nat} {item : Item}
    (hi : s.world.stock.items[i]? = some item) : item.id.index = i := by
  obtain ⟨r, hr, rfl⟩ := h
  exact hr.tallied.index_id hr.sound hi

end IsAttained

/-! ### Every simulation -/

/-- In the tick after the waiting signals have been carried out observers are told what `stream`
lists, with the number of the tick; agents and items are listed by increasing numbers, and everyone
who executes and becomes idle has a reason to stop. The clock then shows the next tick. So whatever
is asked for, observers are told of the ticks that begin in the order of their numbers, from zero on
if the simulation has just been built. -/
theorem Reachable.tick_stream (h : s.Reachable) :
    (s.clock.count.toNat + 1 < 2 ^ 64 → ∃ ready c₀ count t c, s.drain = .ok (ready, c₀) ∧
      ready.clock = s.clock ∧ s.tick = .ok (count, t, c) ∧ c.events = ready.stream t.world ∧
      t.clock.count.toNat = s.clock.count.toNat + 1 ∧
      (∀ (i : Nat) (a : Agent), ready.world.agents[i]? = some a → a.id.index = i) ∧
      (∀ (i : Nat) (item : Item), ready.world.stock.items[i]? = some item → item.id.index = i) ∧
      (ready.unreported.map Ident.index).Pairwise (· < ·) ∧
      ∀ (i : Nat) (a b : Agent), ready.world.agents[i]? = some a → t.world.agents[i]? = some b →
        a.isExecuting = true → b.isIdle = true → ∃ reason, b.finished = some reason) ∧
    (∀ requests : List Request, (∀ request ∈ requests, request.IsAdmissible) →
      s.clock.count.toNat + s.ticksOfAll requests < 2 ^ 64 → ∃ t c,
        s.performAll requests = .ok (t, c) ∧
        (c.events.filterMap Event.begun?).map (fun tick => tick.count.toNat) =
          List.range' s.clock.count.toNat (s.ticksOfAll requests)) ∧
    ∀ {board : Board} {config : Config} {program : Program} {c : Chronicle},
      Simulation.build board config program = .ok (.ok (s, c)) → s.clock.count.toNat = 0 := by
  refine ⟨fun hend => ?_, fun requests hrequests hend => ?_, fun hbuild => ?_⟩
  · obtain ⟨ready, c₀, hready, -, hclock, -⟩ := exists_drain h.sound.board
    have hattained := h.isAttained.drain hready
    have hs := hattained.sound
    obtain ⟨count, t, c, ht⟩ := hs.exists_step (hclock ▸ hend)
    refine ⟨ready, c₀, count, t, c₀ ++ c, hready, hclock,
      bind_eq_ok_iff.mpr ⟨_, hready, bind_eq_ok_iff.mpr ⟨_, ht, rfl⟩⟩, ?_, ?_,
      fun i a ha => hs.index_id ha, fun i item hi => hattained.index_id_item hi,
      hattained.pairwise_unreported, fun i a b ha hb hexecuting hidle => ?_⟩
    · rw [Chronicle.events_append, events_of_carryOutAll hready, List.nil_append,
        hattained.events_of_step ht]
    · rw [(frame_of_step ht).2.2.2.2, hclock]
    · obtain ⟨b', hb', hlives⟩ :=
        exists_getElem?_of_forall₂ (forall₂_lives_of_step hs.coherent ht) ha
      obtain rfl := Option.some.inj (hb'.symm.trans hb)
      refine hlives.exists_finished ?_ (isIdle_iff.mp hidle)
      rw [isExecuting_iff.mp hexecuting]
      exact fun hphase => nomatch hphase
  · obtain ⟨t, c, ht, -, hlast⟩ := h.isAttained.exists_performAll hrequests hend
    obtain ⟨k, hcounts⟩ := h.isAttained.counts_performAll hrequests ht
    obtain rfl : k = s.ticksOfAll requests := Nat.add_left_cancel (hcounts.clock.symm.trans hlast)
    exact ⟨t, c, ht, hcounts.begun⟩
  · obtain ⟨-, w, -, rfl⟩ := exists_build_iff.mp ⟨_, hbuild⟩
    rfl

/-- In the corridor the agent arrives, collects the item and stops, all in the third tick; and a
start in the middle of a run does not set back the numbers of the ticks. -/
theorem tick_stream_corridor : ∃ s ready : Simulation, s.Reachable ∧
    (∃ count t c, s.tick = .ok (count, t, c) ∧ c.events = ready.stream t.world ∧
      c.events = [.tickStart ⟨2⟩, .itemCollected ⟨2⟩ ⟨0⟩ ⟨0⟩,
        .agentFinished ⟨2⟩ ⟨0⟩ .endOfProgram, .tickEnd ⟨2⟩ 0]) ∧
    ∃ t c, corridor.performAll [.start, .tick, .reset, .signal .start, .run] = .ok (t, c) ∧
      (c.events.filterMap Event.begun?).map (fun tick => tick.count.toNat) = [0, 1, 2, 3] := by
  have hstarted := reachable_corridor.perform (show Request.start.IsAdmissible from trivial) rfl
  have hs := hstarted.perform (show (Request.tickMany 2).IsAdmissible from trivial) rfl
  obtain ⟨htick, -⟩ := hs.tick_stream
  obtain ⟨ready, c₀, count, t, c, -, -, ht, hevents, -⟩ := htick (by decide)
  obtain ⟨-, hnumbers, -⟩ := reachable_corridor.tick_stream
  obtain ⟨t', c', ht', hbegun⟩ := hnumbers [.start, .tick, .reset, .signal .start, .run]
    (by simp [Request.IsAdmissible, Signal.IsAdmissible]) (by decide)
  refine ⟨_, ready, hs, ⟨count, t, c, ht, hevents, ?_⟩, t', c', ht', hbegun⟩
  cases ht
  rfl

end Simulation

end TileWalk
