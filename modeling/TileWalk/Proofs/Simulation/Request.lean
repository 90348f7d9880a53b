import TileWalk.Proofs.Board.Rows
import TileWalk.Proofs.Program.Closed
import TileWalk.Simulation.Run

/-!
# Requests and reachable simulations

A host builds a simulation and then asks it for one thing after another, in any order: to begin
anew, to take another program, to keep a signal for later, to process ticks, to use other settings.
A simulation is reachable if it comes about in this way (`Simulation.Reachable`).

A record carries along with a simulation what has happened since its world was made: which agents
arrived where, and what observers were told (`Record.perform`). Recording changes nothing: what
becomes of the simulation is what becomes of it without a record, and the events of the record are
the last ones that observers were told (`Record.matches_perform`). So every reachable simulation has
a record (`Simulation.Reachable.exists_record`).
-/

namespace TileWalk

open Outcome

/-! ### Requests -/

/-- What a host can ask of a simulation. -/
inductive Request
  | start
  | reset
  | load (program : Program)
  | deliver (payload : Json.Payload)
  | signal (signal : Signal)
  | tick
  | run
  | tickMany (n : Nat)
  | configure (config : Config)

/-- The programs of a signal can be had. -/
def Signal.IsAdmissible : Signal → Prop
  | .load program => program.IsObtainable
  | .start => True
  | .reset => True

/-- The programs of a request can be had. -/
def Request.IsAdmissible : Request → Prop
  | .load program => program.IsObtainable
  | .signal sent => sent.IsAdmissible
  | _ => True

namespace Simulation

/-- Does what is asked. A payload that is refused changes nothing. -/
def perform (s : Simulation) : Request → Except Fault (Simulation × Chronicle)
  | .start => s.start
  | .reset => s.reset
  | .load program => s.load program
  | .deliver payload =>
    match s.deliver payload with
    | .ok outcome => outcome
    | .error _ => .ok (s, .empty)
  | .signal signal => .ok (s.enqueue signal, .empty)
  | .tick => s.tick.map Prod.snd
  | .run => s.run.map Prod.snd
  | .tickMany n => (s.tickMany n).map Prod.snd
  | .configure config => .ok ({ s with config }, .empty)

/-- A simulation that was built and then asked for one thing after another. -/
inductive Reachable : Simulation → Prop
  | build {rows : List (List UInt32)} {board : Board} {config : Config} {program : Program}
      {s : Simulation} {c : Chronicle} (hboard : Board.ofRows rows = .ok board)
      (hcells : board.grid.cells.size < 2 ^ 31) (hprogram : program.IsObtainable)
      (hbuild : Simulation.build board config program = .ok (.ok (s, c))) : Reachable s
  | perform {s t : Simulation} {request : Request} {c : Chronicle} (hs : Reachable s)
      (hrequest : request.IsAdmissible) (hperform : s.perform request = .ok (t, c)) : Reachable t

end Simulation

/-! ### A short run -/

/-- Two cells: an agent starts on the first, and an item lies on the second, ahead of it. -/
def Board.corridor : Board :=
  ⟨⟨2, 1, #[⟨5⟩, ⟨3⟩], rfl⟩, [⟨⟨0, 0⟩, .southEast⟩], [⟨1, 0⟩]⟩

/-- A program that steps forward once. -/
def Builder.strideCalls : List Builder.Call :=
  [.add ⟨.entry, .root, ""⟩, .chain ⟨0⟩ [⟨.basic, .move, ""⟩]]

/-- An agent that has not begun to step forward, with moves of one tick. -/
def Simulation.corridor : Simulation where
  config := ⟨1, 100, 0⟩
  clock := Tick.zero
  board := Board.corridor
  program := (Builder.ofCalls Builder.strideCalls).build
  world :=
    ⟨[⟨⟨0⟩, ⟨0, 0⟩, .southEast, ⟨true, false, false, false⟩, none, .idle, none, none⟩],
      ⟨[⟨⟨0⟩, ⟨1, 0⟩, true⟩], 1⟩⟩
  queue := []
  unreported := []

theorem Simulation.reachable_corridor : Simulation.corridor.Reachable := by
  have hboard : Board.ofRows [[5, 3]] = .ok Board.corridor := rfl
  have hbuild : Simulation.build corridor.board corridor.config corridor.program =
      .ok (.ok (corridor, _)) := rfl
  exact .build hboard (by decide) (.built Builder.strideCalls rfl (by decide)) hbuild

/-! ### Arrivals -/

/-- The arrival of an agent on a cell. -/
structure Landing where
  tick : Tick
  agent : AgentId
  pos : Pos
  deriving DecidableEq, Repr

/-- The arrival of an agent in a tick, if its move ends then. -/
def Agent.landing? (g : Grid) (now : Tick) (a : Agent) : Option Landing :=
  match a.advance g with
  | .ok (some arrival, _) => some ⟨now, a.id, arrival.pos⟩
  | _ => none

/-- The arrivals of the tick that is processed next, in the order of the agents. -/
def Simulation.landings (s : Simulation) : List Landing :=
  s.world.agents.filterMap (Agent.landing? s.board.grid s.clock)

/-! ### Requests without their counts -/

namespace Simulation

variable (s : Simulation)

/-- What is left of a run after the signals have been carried out. -/
def roundFor (bound : Nat) : Except Fault (Simulation × Chronicle) :=
  if s.isRunning then
    s.step.map Prod.snd >>= fun sc =>
      ((sc.1.runFor bound).map Prod.snd).map fun td => (td.1, sc.2 ++ td.2)
  else .ok ({ s with unreported := [] }, .ofEvents s.pendingEvents)

theorem map_tick : s.tick.map Prod.snd = s.drain >>= fun sc =>
    (sc.1.step.map Prod.snd).map fun td => (td.1, sc.2 ++ td.2) := by
  unfold tick
  cases s.drain with
  | error fault => rfl
  | ok sc =>
    show Except.map Prod.snd (sc.1.step >>= _) = (sc.1.step.map Prod.snd).map _
    cases sc.1.step <;> rfl

theorem map_tickMany_succ (n : Nat) : (s.tickMany (n + 1)).map Prod.snd =
    s.tick.map Prod.snd >>= fun sc =>
      ((sc.1.tickMany n).map Prod.snd).map fun td => (td.1, sc.2 ++ td.2) := by
  rw [tickMany]
  cases s.tick with
  | error fault => rfl
  | ok result =>
    show Except.map Prod.snd (result.2.1.tickMany n >>= _) =
      ((result.2.1.tickMany n).map Prod.snd).map _
    cases result.2.1.tickMany n <;> rfl

theorem map_runFor_succ (bound : Nat) : (s.runFor (bound + 1)).map Prod.snd =
    s.drain >>= fun sc => (sc.1.roundFor bound).map fun td => (td.1, sc.2 ++ td.2) := by
  rw [runFor]
  cases s.drain with
  | error fault => rfl
  | ok sc =>
    rcases sc with ⟨s, c⟩
    show Except.map Prod.snd (if s.isRunning then s.step >>= _ else _) =
      (s.roundFor bound).map _
    unfold roundFor
    by_cases hs : s.isRunning = true
    · rw [if_pos hs, if_pos hs]
      cases s.step with
      | error fault => rfl
      | ok result =>
        show Except.map Prod.snd (result.2.1.runFor bound >>= _) =
          (((result.2.1.runFor bound).map Prod.snd).map _).map _
        cases result.2.1.runFor bound <;> rfl
    · rw [if_neg hs, if_neg hs]
      rfl

theorem map_run : s.run.map Prod.snd =
    (s.runFor s.config.maxTicks.toNat).map Prod.snd >>= fun sc =>
      (Except.ok (sc.1, Chronicle.mk [.runEnd sc.1.clock] sc.1.boundEntries)).map fun td =>
        (td.1, sc.2 ++ td.2) := by
  unfold run
  cases s.runFor s.config.maxTicks.toNat <;> rfl

end Simulation

/-! ### Records -/

/-- A simulation with what has happened since its world was made. -/
structure Record where
  sim : Simulation
  /-- The arrivals of agents, oldest first. -/
  landings : List Landing
  /-- What observers were told, oldest first. -/
  events : List Event

namespace Record

/-- The record of a world that has just been made. -/
def new (s : Simulation) : Record :=
  ⟨s, [], []⟩

/-- Carries out the signals that wait. Every signal makes the world anew. -/
def drain (r : Record) : Except Fault Record := do
  let (s, _) ← r.sim.drain
  return if r.sim.queue.isEmpty then { r with sim := s } else new s

/-- Processes one tick, whatever signals wait. -/
def step (r : Record) : Except Fault Record := do
  let (_, s, c) ← r.sim.step
  return ⟨s, r.landings ++ r.sim.landings, r.events ++ c.events⟩

/-- Carries out the signals that wait and processes one tick. -/
def tick (r : Record) : Except Fault Record := do
  let r ← r.drain
  r.step

/-- Processes `n` ticks. -/
def tickMany (r : Record) : Nat → Except Fault Record
  | 0 => .ok r
  | n + 1 => do
    let r ← r.tick
    r.tickMany n

/-- Tells observers of the agents that have not been reported. -/
def settle (r : Record) : Record where
  sim := { r.sim with unreported := [] }
  landings := r.landings
  events := r.events ++ r.sim.pendingEvents

/-- At most `bound` ticks of a run. -/
def runFor (r : Record) : (bound : Nat) → Except Fault Record
  | 0 => .ok r
  | bound + 1 => do
    let r ← r.drain
    if r.sim.isRunning then
      let r ← r.step
      r.runFor bound
    else
      return r.settle

/-- Tells observers that a run is over. -/
def endRun (r : Record) : Record :=
  { r with events := r.events ++ [.runEnd r.sim.clock] }

/-- Does what is asked. -/
def perform (r : Record) : Request → Except Fault Record
  | .start => r.sim.start.map fun x => new x.1
  | .reset => r.sim.reset.map fun x => new x.1
  | .load program => (r.sim.load program).map fun x => new x.1
  | .deliver payload =>
    match r.sim.deliver payload with
    | .ok outcome => outcome.map fun x => new x.1
    | .error _ => .ok r
  | .signal signal => .ok { r with sim := r.sim.enqueue signal }
  | .tick => r.tick
  | .run => (r.runFor r.sim.config.maxTicks.toNat).map endRun
  | .tickMany n => r.tickMany n
  | .configure config => .ok { r with sim := { r.sim with config } }

/-- The record of a simulation that was built and then asked for one thing after another. -/
inductive Reachable : Record → Prop
  | build {rows : List (List UInt32)} {board : Board} {config : Config} {program : Program}
      {s : Simulation} {c : Chronicle} (hboard : Board.ofRows rows = .ok board)
      (hcells : board.grid.cells.size < 2 ^ 31) (hprogram : program.IsObtainable)
      (hbuild : Simulation.build board config program = .ok (.ok (s, c))) : Reachable (new s)
  | perform {r t : Record} {request : Request} (hr : Reachable r)
      (hrequest : request.IsAdmissible) (hperform : r.perform request = .ok t) : Reachable t

/-! ### Recording changes nothing -/

/-- A recorded outcome and a plain one are the same, and the record ends with what was told. -/
def Matches (before : List Event) :
    Except Fault Record → Except Fault (Simulation × Chronicle) → Prop
  | .ok r, .ok (s, c) => r.sim = s ∧ r.events <:+ before ++ c.events
  | .error fault, .error fault' => fault = fault'
  | _, _ => False

variable {before : List Event} {x : Except Fault Record}
  {y : Except Fault (Simulation × Chronicle)}

/-- Either both meet the same fault, or both come to the same simulation. -/
theorem Matches.fault_or_ok (h : Matches before x y) :
    (∃ fault, x = .error fault ∧ y = .error fault) ∨
      ∃ r c, x = .ok r ∧ y = .ok (r.sim, c) ∧ r.events <:+ before ++ c.events := by
  cases x with
  | error fault =>
    cases y with
    | error fault' => exact Or.inl ⟨fault, rfl, congrArg _ (Eq.symm h)⟩
    | ok sc => exact h.elim
  | ok r =>
    cases y with
    | error fault' => exact h.elim
    | ok sc =>
      rcases sc with ⟨s, c⟩
      rcases h with ⟨rfl, hc⟩
      exact Or.inr ⟨r, c, rfl, rfl, hc⟩

theorem Matches.bind (h : Matches before x y) {f : Record → Except Fault Record}
    {g : Simulation → Except Fault (Simulation × Chronicle)}
    (hfg : ∀ r, Matches r.events (f r) (g r.sim)) :
    Matches before (x >>= f) (y >>= fun sc => (g sc.1).map fun td => (td.1, sc.2 ++ td.2)) := by
  rcases h.fault_or_ok with ⟨fault, rfl, rfl⟩ | ⟨r, c, rfl, rfl, hc⟩
  · rfl
  · show Matches before (f r) ((g r.sim).map fun td => (td.1, c ++ td.2))
    rcases (hfg r).fault_or_ok with ⟨fault, hf, hg⟩ | ⟨q, d, hf, hg, hd⟩
    · rw [hf, hg]
      exact Eq.refl fault
    · -- what the second part adds to the events comes after what the first part told
      have hevents : q.events <:+ before ++ (c ++ d).events := by
        rw [Chronicle.events_append, ← List.append_assoc]
        exact hd.trans (List.suffix_append_self_iff.mpr hc)
      rw [hf, hg]
      exact ⟨rfl, hevents⟩

/-- Nothing is told. -/
theorem matches_nothing (r : Record) : Matches r.events (.ok r) (.ok (r.sim, .empty)) := by
  refine ⟨rfl, [], ?_⟩
  exact (List.append_nil r.events).symm

/-- A world that has just been made has no past. -/
theorem matches_new (y : Except Fault (Simulation × Chronicle)) :
    Matches before (y.map fun sc => new sc.1) y := by
  cases y with
  | error fault => rfl
  | ok sc => exact ⟨rfl, List.nil_suffix⟩

theorem matches_drain (r : Record) : Matches r.events r.drain r.sim.drain := by
  unfold drain
  by_cases hq : r.sim.queue = []
  · have hd : r.sim.drain = .ok ({ r.sim with queue := [] }, .empty) := by
      unfold Simulation.drain
      rw [hq]
      rfl
    rw [hd, hq]
    exact matches_nothing { r with sim := { r.sim with queue := [] } }
  · have he : r.sim.queue.isEmpty = false := by simpa using hq
    rw [he]
    cases hd : r.sim.drain with
    | error fault => rfl
    | ok sc => exact ⟨rfl, List.nil_suffix⟩

theorem matches_step (r : Record) : Matches r.events r.step (r.sim.step.map Prod.snd) := by
  unfold step
  cases hs : r.sim.step with
  | error fault => rfl
  | ok result => exact ⟨rfl, List.suffix_refl _⟩

theorem matches_settle (r : Record) :
    Matches r.events (.ok r.settle)
      (.ok ({ r.sim with unreported := [] }, .ofEvents r.sim.pendingEvents)) :=
  ⟨rfl, List.suffix_refl _⟩

theorem matches_endRun (r : Record) :
    Matches r.events (.ok r.endRun)
      (.ok (r.sim, ⟨[.runEnd r.sim.clock], r.sim.boundEntries⟩)) :=
  ⟨rfl, List.suffix_refl _⟩

theorem matches_tick (r : Record) : Matches r.events r.tick (r.sim.tick.map Prod.snd) := by
  rw [Simulation.map_tick]
  exact (matches_drain r).bind (g := fun s => s.step.map Prod.snd) matches_step

theorem matches_tickMany (n : Nat) (r : Record) :
    Matches r.events (r.tickMany n) ((r.sim.tickMany n).map Prod.snd) := by
  induction n generalizing r with
  | zero => exact matches_nothing r
  | succ n ih =>
    rw [Simulation.map_tickMany_succ]
    exact (matches_tick r).bind (g := fun s => (s.tickMany n).map Prod.snd) ih

theorem matches_runFor (bound : Nat) (r : Record) :
    Matches r.events (r.runFor bound) ((r.sim.runFor bound).map Prod.snd) := by
  induction bound generalizing r with
  | zero => exact matches_nothing r
  | succ bound ih =>
    have hround : ∀ r : Record,
        Matches r.events
          (if r.sim.isRunning then r.step >>= fun r => r.runFor bound else pure r.settle)
          (r.sim.roundFor bound) := by
      intro r
      unfold Simulation.roundFor
      by_cases hrun : r.sim.isRunning = true
      · rw [if_pos hrun, if_pos hrun]
        exact (matches_step r).bind (g := fun s => (s.runFor bound).map Prod.snd) ih
      · rw [if_neg hrun, if_neg hrun]
        exact matches_settle r
    rw [Simulation.map_runFor_succ]
    exact (matches_drain r).bind (g := fun s => s.roundFor bound) hround

theorem matches_run (r : Record) :
    Matches r.events (r.perform .run) (r.sim.run.map Prod.snd) := by
  have hperform : r.perform .run =
      r.runFor r.sim.config.maxTicks.toNat >>= fun q => .ok q.endRun := by
    show (r.runFor _).map endRun = _
    cases r.runFor r.sim.config.maxTicks.toNat <;> rfl
  rw [Simulation.map_run, hperform]
  exact (matches_runFor r.sim.config.maxTicks.toNat r).bind
    (g := fun s => .ok (s, ⟨[.runEnd s.clock], s.boundEntries⟩)) matches_endRun

/-- What is recorded is what happens, and the events of a record are the last ones told. -/
theorem matches_perform (r : Record) (request : Request) :
    Matches r.events (r.perform request) (r.sim.perform request) := by
  cases request with
  | start => exact matches_new _
  | reset => exact matches_new _
  | load program => exact matches_new _
  | deliver payload =>
    unfold perform Simulation.perform
    dsimp only
    cases r.sim.deliver payload with
    | ok outcome => exact matches_new _
    | error cause => exact matches_nothing r
  | signal sent => exact matches_nothing { r with sim := r.sim.enqueue sent }
  | tick => exact matches_tick r
  | run => exact matches_run r
  | tickMany n => exact matches_tickMany n r
  | configure config => exact matches_nothing { r with sim := { r.sim with config } }

end Record

theorem Simulation.Reachable.exists_record {s : Simulation} (h : s.Reachable) :
    ∃ r : Record, r.Reachable ∧ r.sim = s := by
  induction h with
  | build hboard hcells hprogram hbuild =>
    exact ⟨_, .build hboard hcells hprogram hbuild, rfl⟩
  | @perform s t request c hs hrequest hperform ih =>
    rcases ih with ⟨r, hr, rfl⟩
    rcases (r.matches_perform request).fault_or_ok with
      ⟨fault, -, hfault⟩ | ⟨q, d, hq, hd, -⟩
    · rw [hperform] at hfault
      cases hfault
    · rw [hperform] at hd
      cases hd
      exact ⟨q, hr.perform hrequest hq, rfl⟩

theorem Record.Reachable.reachable_sim {r : Record} (h : r.Reachable) : r.sim.Reachable := by
  induction h with
  | build hboard hcells hprogram hbuild => exact .build hboard hcells hprogram hbuild
  | @perform r t request hr hrequest hperform ih =>
    rcases (r.matches_perform request).fault_or_ok with
      ⟨fault, hfault, -⟩ | ⟨q, d, hq, hd, -⟩
    · rw [hperform] at hfault
      cases hfault
    · rw [hperform] at hq
      cases hq
      exact ih.perform hrequest hd

end TileWalk
