import TileWalk.Proofs.Simulation.Separate

/-!
# A start forgets the past

The clock is the only thing that a start does not renew, and the number of a tick decides nothing
but whether the world is shown at its end. So a simulation that is set to a later moment goes
through the same ticks later (`Simulation.step_delayed`, `Simulation.tickMany_delayed`), and
whatever happened before a start, the run after it is the run of a simulation that has just been
built (`Simulation.Reachable.start_as_fresh`).
-/

namespace TileWalk

open Outcome

variable {n : UInt64}

/-! ### Later moments -/

namespace Tick

variable {t u : Tick}

/-- The moment `n` ticks later, counted modulo `2 ^ 64`. -/
def delayed (n : UInt64) (t : Tick) : Tick :=
  ⟨t.count + n⟩

theorem zero_delayed (n : UInt64) : zero.delayed n = ⟨n⟩ :=
  congrArg Tick.mk (UInt64.zero_add n)

theorem toNat_count_delayed (h : t.count.toNat + n.toNat < 2 ^ 64) :
    (t.delayed n).count.toNat = t.count.toNat + n.toNat := by
  show (t.count + n).toNat = _
  rw [UInt64.toNat_add, Nat.mod_eq_of_lt h]

/-- Before the end of the counter the next moment is delayed along. -/
theorem next_delayed (h : t.next = .ok u) (hend : u.count.toNat + n.toNat < 2 ^ 64) :
    (t.delayed n).next = .ok (u.delayed n) := by
  have hnext := next_eq_ok_iff.mp h
  have hlater := toNat_count_delayed hend
  have hnow : (t.delayed n).count.toNat = t.count.toNat + n.toNat :=
    toNat_count_delayed (by omega)
  apply next_eq_ok_iff.mpr
  omega

end Tick

namespace Event

/-- The same thing happens `n` ticks later. -/
def delayed (n : UInt64) : Event → Event
  | .tickStart tick => .tickStart (tick.delayed n)
  | .tickEnd tick dispatched => .tickEnd (tick.delayed n) dispatched
  | .snapshot tick world => .snapshot (tick.delayed n) world
  | .itemCollected tick agent item => .itemCollected (tick.delayed n) agent item
  | .agentFinished tick agent reason => .agentFinished (tick.delayed n) agent reason
  | .runEnd tick => .runEnd (tick.delayed n)

/-- The world is shown. -/
def isSnapshot : Event → Bool
  | .snapshot _ _ => true
  | _ => false

theorem isSnapshot_delayed (n : UInt64) (e : Event) : (e.delayed n).isSnapshot = e.isSnapshot := by
  cases e <;> rfl

end Event

namespace Chronicle

variable {c d c' d' : Chronicle}

/-- What observers are told, but for the views of the world. -/
def told (c : Chronicle) : List Event :=
  c.events.filter fun e => !e.isSnapshot

/-- The same is noted and told `n` ticks later; only views of the world may come at other times. -/
structure IsDelayed (n : UInt64) (c d : Chronicle) : Prop where
  told_eq : d.told = c.told.map (Event.delayed n)
  entries_eq : d.entries = c.entries

theorem told_append (c d : Chronicle) : (c ++ d).told = c.told ++ d.told :=
  List.filter_append _ _

theorem IsDelayed.append (h : IsDelayed n c c') (h' : IsDelayed n d d') :
    IsDelayed n (c ++ d) (c' ++ d') := by
  refine ⟨?_, ?_⟩
  · rw [told_append, told_append, List.map_append, h.told_eq, h'.told_eq]
  · rw [entries_append, entries_append, h.entries_eq, h'.entries_eq]

theorem isDelayed_of_eq_map (hevents : d.events = c.events.map (Event.delayed n))
    (hentries : d.entries = c.entries) : IsDelayed n c d := by
  refine ⟨?_, hentries⟩
  unfold told
  rw [hevents, List.filter_map]
  congr 1
  refine List.filter_congr fun e _ => ?_
  simp [Event.isSnapshot_delayed]

end Chronicle

namespace Simulation

open Agent

/-! ### The two phases of a tick -/

variable {p : Program} {g : Grid} {frames : UInt32} {now : Tick} {agents : List Agent}
  {moved : List (Agent × Bool)} {stock stock' : Stock} {count : Nat} {c : Chronicle}
  {s t : Simulation}

theorem finishEvents_delayed (n : UInt64) (now : Tick) (a : Agent) :
    finishEvents (now.delayed n) a = (finishEvents now a).map (Event.delayed n) := by
  unfold finishEvents
  split_ifs
  · cases a.finished <;> rfl
  · rfl

/-- The simulation with a clock that is `n` ticks later. -/
def delayed (n : UInt64) (s : Simulation) : Simulation :=
  { s with clock := s.clock.delayed n }

theorem pendingEvents_delayed (n : UInt64) (s : Simulation) :
    (s.delayed n).pendingEvents = s.pendingEvents.map (Event.delayed n) := by
  unfold pendingEvents delayed
  rw [List.map_flatMap]
  congr 1
  funext id
  dsimp only
  cases (s.world.agent? id).bind Agent.finished <;> rfl

theorem land_delayed {a : Agent} {arrival? : Option Arrival}
    (h : land now a stock arrival? = .ok (stock', c)) : ∃ d,
      land (now.delayed n) a stock arrival? = .ok (stock', d) ∧ Chronicle.IsDelayed n c d := by
  cases arrival? with
  | none =>
    obtain ⟨rfl, rfl⟩ := Prod.mk.inj (Except.ok.inj h)
    exact ⟨_, rfl, Chronicle.isDelayed_of_eq_map rfl rfl⟩
  | some arrival =>
    obtain ⟨⟨items, stock₁⟩, hitems, hpure⟩ := bind_eq_ok_iff.mp h
    obtain ⟨rfl, rfl⟩ := Prod.mk.inj (pure_eq_ok_iff.mp hpure)
    refine ⟨_, bind_eq_ok_iff.mpr ⟨_, hitems, rfl⟩, ?_⟩
    refine .append (.append (Chronicle.isDelayed_of_eq_map rfl rfl) ?_) ?_
    · -- the items are told of one after the other
      clear hitems h hpure
      induction items with
      | nil => exact Chronicle.isDelayed_of_eq_map rfl rfl
      | cons item items ih => exact .append (Chronicle.isDelayed_of_eq_map rfl rfl) ih
    · exact Chronicle.isDelayed_of_eq_map (finishEvents_delayed n now a) rfl

theorem moveAgents_delayed (h : moveAgents g now agents stock = .ok (moved, stock', c)) : ∃ d,
    moveAgents g (now.delayed n) agents stock = .ok (moved, stock', d) ∧
      Chronicle.IsDelayed n c d := by
  induction agents generalizing moved stock c with
  | nil =>
    obtain ⟨rfl, rfl, rfl⟩ := by simpa [moveAgents] using h
    exact ⟨_, rfl, Chronicle.isDelayed_of_eq_map rfl rfl⟩
  | cons a agents ih =>
    obtain ⟨arrival?, b, stock₁, here, rest, c₁, ha, hland, hrest, rfl, rfl⟩ :=
      moveAgents_cons_eq_ok_iff.mp h
    obtain ⟨here', hland', hhere⟩ := land_delayed (n := n) hland
    obtain ⟨d₁, hrest', hd⟩ := ih hrest
    exact ⟨_, moveAgents_cons_eq_ok_iff.mpr
      ⟨arrival?, b, stock₁, here', rest, d₁, ha, hland', hrest', rfl, rfl⟩, hhere.append hd⟩

theorem act_delayed {m : Agent × Bool} {b : Agent} (h : act p g frames now m = .ok (b, count, c)) :
    ∃ d, act p g frames (now.delayed n) m = .ok (b, count, d) ∧ Chronicle.IsDelayed n c d := by
  obtain ⟨a, flag⟩ := m
  cases flag with
  | true =>
    obtain ⟨rfl, rfl, rfl⟩ := by simpa [act] using h
    exact ⟨_, rfl, Chronicle.isDelayed_of_eq_map rfl rfl⟩
  | false =>
    obtain ⟨⟨d?, b'⟩, hb, hpure⟩ := bind_eq_ok_iff.mp h
    cases d? with
    | none =>
      obtain ⟨rfl, rfl, rfl⟩ := by simpa using pure_eq_ok_iff.mp hpure
      exact ⟨_, bind_eq_ok_iff.mpr ⟨_, hb, rfl⟩, Chronicle.isDelayed_of_eq_map rfl rfl⟩
    | some decision =>
      obtain ⟨rfl, rfl, rfl⟩ := by simpa using pure_eq_ok_iff.mp hpure
      refine ⟨_, bind_eq_ok_iff.mpr ⟨_, hb, rfl⟩, ?_⟩
      exact Chronicle.isDelayed_of_eq_map (finishEvents_delayed n now b') rfl

theorem dispatchAgents_delayed
    (h : dispatchAgents p g frames now moved = .ok (agents, count, c)) : ∃ d,
      dispatchAgents p g frames (now.delayed n) moved = .ok (agents, count, d) ∧
        Chronicle.IsDelayed n c d := by
  induction moved generalizing agents count c with
  | nil =>
    obtain ⟨rfl, rfl, rfl⟩ := by simpa [dispatchAgents] using h
    exact ⟨_, rfl, Chronicle.isDelayed_of_eq_map rfl rfl⟩
  | cons m moved ih =>
    obtain ⟨b, k, here, rest, l, c₁, hact, hrest, rfl, rfl, rfl⟩ :=
      dispatchAgents_cons_eq_ok_iff.mp h
    obtain ⟨here', hact', hhere⟩ := act_delayed (n := n) hact
    obtain ⟨d₁, hrest', hd⟩ := ih hrest
    exact ⟨_, dispatchAgents_cons_eq_ok_iff.mpr
      ⟨b, k, here', rest, l, d₁, hact', hrest', rfl, rfl, rfl⟩, hhere.append hd⟩

/-! ### Whole ticks -/

/-- A tick does the same at a later moment, but the world may be shown at other times. -/
theorem step_delayed (h : s.step = .ok (count, t, c))
    (hend : t.clock.count.toNat + n.toNat < 2 ^ 64) : ∃ d,
      (s.delayed n).step = .ok (count, t.delayed n, d) ∧ Chronicle.IsDelayed n c d := by
  obtain ⟨moved, stock, c₁, agents, c₂, clock, hmoved, hagents, hclock, rfl, rfl⟩ :=
    step_eq_ok_iff.mp h
  obtain ⟨d₁, hmoved', hd₁⟩ := moveAgents_delayed (n := n) hmoved
  obtain ⟨d₂, hagents', hd₂⟩ := dispatchAgents_delayed (n := n) hagents
  have hclock' := Tick.next_delayed hclock hend
  refine ⟨_, step_eq_ok_iff.mpr
    ⟨moved, stock, d₁, agents, d₂, _, hmoved', hagents', hclock', rfl, rfl⟩, ?_⟩
  refine .append (.append (.append ?_ hd₁) hd₂) ?_
  · apply Chronicle.isDelayed_of_eq_map
    · exact congrArg (List.cons _) (pendingEvents_delayed n s)
    · rfl
  -- a view of the world, if there is one, is left out
  · refine ⟨?_, rfl⟩
    unfold Chronicle.told Chronicle.ofEvents
    split_ifs <;> rfl

theorem tickMany_delayed (hq : s.queue = []) {k : Nat} {counts : List Nat}
    (h : s.tickMany k = .ok (counts, t, c))
    (hend : s.clock.count.toNat + k + n.toNat < 2 ^ 64) : ∃ d,
      (s.delayed n).tickMany k = .ok (counts, t.delayed n, d) ∧ Chronicle.IsDelayed n c d := by
  induction k generalizing s counts c with
  | zero =>
    obtain ⟨rfl, rfl, rfl⟩ := by simpa [tickMany] using h
    exact ⟨_, rfl, Chronicle.isDelayed_of_eq_map rfl rfl⟩
  | succ k ih =>
    obtain ⟨count, u, c₁, rest, c₂, hu, ht, rfl, rfl⟩ := tickMany_succ_eq_ok_iff.mp h
    rw [tick_of_queue_nil hq] at hu
    have hframe := frame_of_step hu
    have hqueue : u.queue = [] := hframe.2.2.2.1.trans hq
    have hnext : u.clock.count.toNat = s.clock.count.toNat + 1 := hframe.2.2.2.2
    obtain ⟨d₁, hu', hd₁⟩ := step_delayed (n := n) hu (by omega)
    obtain ⟨d₂, ht', hd₂⟩ := ih hqueue ht (by omega)
    have hq' : (s.delayed n).queue = [] := hq
    rw [← tick_of_queue_nil hq'] at hu'
    exact ⟨_, tickMany_succ_eq_ok_iff.mpr ⟨count, _, d₁, rest, d₂, hu', ht', rfl, rfl⟩,
      hd₁.append hd₂⟩

/-! ### Starting again -/

/-- A start makes of a simulation what it makes of one that has just been built, but for the
clock. -/
theorem begun_eq_delayed (hq : s.queue = []) (w v : World) :
    s.begun w = (begun ⟨s.config, Tick.zero, s.board, s.program, v, [], []⟩ w).delayed
      s.clock.count := by
  unfold begun delayed
  rw [Tick.zero_delayed, hq]

/-- Whatever happened before a start, the run after it is that of a simulation that has just been
built of the same board, program and settings: tick by tick the same world, the same numbers of
agents that execute, and the same events, later by what the clock shows. Only the clock differs,
and with it the ticks at whose end the world is shown. -/
theorem Reachable.start_as_fresh (hs : s.Reachable) (hq : s.queue = [])
    (hframes : s.config.moveFrames ≠ 0) (k : Nat) (hclock : s.clock.count.toNat + k < 2 ^ 64) :
    ∃ f b f₁ e₁ counts f₂ e₂ s₁ c₁ s₂ c₂,
      Simulation.build s.board s.config s.program = .ok (.ok (f, b)) ∧
      f.start = .ok (f₁, e₁) ∧ f₁.tickMany k = .ok (counts, f₂, e₂) ∧
      s.start = .ok (s₁, c₁) ∧ s₁.tickMany k = .ok (counts, s₂, c₂) ∧
      s₂.world = f₂.world ∧ s₂ = { f₂ with clock := s₂.clock } ∧
      f₂.clock.count.toNat = k ∧ s₂.clock.count.toNat = s.clock.count.toNat + k ∧
      c₁.events = [] ∧ e₁.events = [] ∧
      c₂.told = e₂.told.map (Event.delayed s.clock.count) ∧ c₂.entries = e₂.entries := by
  have hboard := hs.sound.board
  obtain ⟨w, hw⟩ := World.exists_ofBoard hboard
  obtain ⟨b, hbuild⟩ := exists_build_iff.mpr ⟨hframes, w, hw, rfl⟩
  have hzero : Tick.zero.count.toNat = 0 := rfl
  -- the simulation that has just been built can be started, and goes on as long as this one
  obtain ⟨f₁, e₁, counts, f₂, e₂, hf₁, hf₂⟩ :=
    exists_run (s := ⟨s.config, Tick.zero, s.board, s.program, w, [], []⟩) (k := k) hboard
      hs.sound.program rfl (by dsimp only; omega)
  obtain ⟨w', hw', hbegun⟩ := exists_start_iff.mp ⟨e₁, hf₁⟩
  obtain rfl : w = w' := Except.ok.inj (hw.symm.trans hw')
  obtain ⟨c₁, hs₁⟩ := exists_start_iff.mpr ⟨w, hw, rfl⟩
  have hsame : s.begun w = f₁.delayed s.clock.count := by
    rw [hbegun]
    exact begun_eq_delayed hq w w
  have hqueue : f₁.queue = [] := by rw [hbegun]; rfl
  have hstart : f₁.clock.count.toNat = 0 := by rw [hbegun]; rfl
  obtain ⟨c₂, hs₂, hdelayed⟩ :=
    tickMany_delayed (n := s.clock.count) hqueue hf₂ (by omega)
  obtain ⟨-, -, -, -, hlast⟩ := frame_of_tickMany hqueue hf₂
  have hend : (f₂.delayed s.clock.count).clock.count.toNat = s.clock.count.toNat + k := by
    have hadd := Tick.toNat_count_delayed (t := f₂.clock) (n := s.clock.count) (by omega)
    show (f₂.clock.delayed s.clock.count).count.toNat = _
    omega
  rw [← hsame] at hs₂
  exact ⟨_, b, f₁, e₁, counts, f₂, e₂, _, c₁, _, c₂, hbuild, hf₁, hf₂, hs₁, hs₂, rfl, rfl,
    by omega, hend, events_of_carryOut (show s.carryOut .start = _ from hs₁),
    events_of_carryOut (show carryOut _ .start = _ from hf₁), hdelayed.told_eq,
    hdelayed.entries_eq⟩

/-- In the corridor the third run, begun in the middle of the second, is the first run again. -/
theorem start_as_fresh_corridor : ∃ s : Simulation, s.Reachable ∧ s.clock ≠ Tick.zero ∧
    s.isRunning = true ∧ ∃ f b f₁ e₁ counts f₂ e₂ s₁ c₁ s₂ c₂,
      build s.board s.config s.program = .ok (.ok (f, b)) ∧
      f.start = .ok (f₁, e₁) ∧ f₁.tickMany 3 = .ok (counts, f₂, e₂) ∧
      s.start = .ok (s₁, c₁) ∧ s₁.tickMany 3 = .ok (counts, s₂, c₂) ∧
      s₂.world = f₂.world ∧ c₂.told = e₂.told.map (Event.delayed s.clock.count) := by
  have hran := (reachable_corridor.perform (show Request.start.IsAdmissible from trivial) rfl).perform
    (show Request.run.IsAdmissible from trivial) rfl
  have hs := (hran.perform (show Request.start.IsAdmissible from trivial) rfl).perform
    (show Request.tick.IsAdmissible from trivial) rfl
  obtain ⟨f, b, f₁, e₁, counts, f₂, e₂, s₁, c₁, s₂, c₂, hbuild, hf₁, hf₂, hs₁, hs₂, hworld, -, -, -,
    -, -, htold, -⟩ := hs.start_as_fresh rfl (by decide) 3 (by decide)
  exact ⟨_, hs, by decide, rfl, f, b, f₁, e₁, counts, f₂, e₂, s₁, c₁, s₂, c₂, hbuild, hf₁, hf₂, hs₁,
    hs₂, hworld, htold⟩

end Simulation

end TileWalk
