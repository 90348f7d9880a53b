import TileWalk.Proofs.Simulation.Faultless

/-!
# Signals wait and collapse

Signals come from handles that are clones of one sender, so which of them sends is no part of a
request: every list of requests is one of the ways in which what the handles send can meet what a
host asks for directly. Until the next tick the signals that are sent are only kept in order
(`Simulation.exists_performAll_of_isControl`), and the next tick and the next run do what they would
do if the signals had been direct requests, made after all others (`Simulation.tick_of_drain`,
`Simulation.run_of_drain`).

Every signal makes the world anew, so of several signals only the last program that is loaded
matters, and whether the last signal is a start (`Simulation.eq_obeyed_of_carryOutAll`).
-/

namespace TileWalk

open Outcome

/-! ### Requests between two ticks -/

/-- The direct request for what a signal asks. -/
def Signal.request : Signal → Request
  | .load program => .load program
  | .start => .start
  | .reset => .reset

/-- The program that a signal brings. -/
def Signal.program? : Signal → Option Program
  | .load program => some program
  | _ => none

/-- The last program that signals bring is brought by the first of them if no other brings one. -/
theorem Signal.getD_getLast?_program?_cons (signal : Signal) (signals : List Signal) (p : Program) :
    ((signal :: signals).filterMap Signal.program?).getLast?.getD p =
      (signals.filterMap Signal.program?).getLast?.getD (signal.program?.getD p) := by
  cases hbrought : signal.program? with
  | none => rw [List.filterMap_cons_none hbrought, Option.getD_none]
  | some program =>
    rw [List.filterMap_cons_some hbrought, List.getLast?_cons, Option.getD_some, Option.getD_some]

namespace Request

/-- The signal that is sent. -/
def sent? : Request → Option Signal
  | .signal sent => some sent
  | _ => none

/-- No signal is sent. -/
def isDirect (r : Request) : Bool :=
  r.sent?.isNone

/-- The request is to begin anew, to take a program or to keep a signal, and not to go on. -/
def IsControl : Request → Prop
  | .start | .reset | .load _ | .deliver _ | .signal _ => True
  | _ => False

end Request

namespace Simulation

variable {s t u v : Simulation} {c d : Chronicle} {w : World}

/-! ### Signals wait -/

theorem perform_request (s : Simulation) (signal : Signal) :
    s.perform signal.request = s.carryOut signal := by
  cases signal <;> rfl

/-- A signal that is carried out does not look at those that wait. -/
theorem exists_carryOut_queue (hs : s.board.IsProper) (signal : Signal) :
    ∃ (u : Simulation) (c : Chronicle),
      (∀ queue, { s with queue }.carryOut signal = .ok ({ u with queue }, c)) ∧ c.events = [] ∧
        u.queue = s.queue ∧ u.board = s.board := by
  obtain ⟨u, c, hu⟩ := exists_carryOut hs signal
  obtain ⟨hconfig, -, hboard, hqueue⟩ := frame_of_carryOut hu
  refine ⟨u, c, fun queue => ?_, events_of_carryOut hu, hqueue, hboard⟩
  have hsame : { u with config := s.config, queue } = { u with queue } := by rw [← hconfig]
  rw [← hsame]
  exact carryOut_with hu s.config queue

/-- A direct request does not look at the signals that wait, and observers are told nothing. -/
theorem exists_perform_of_isDirect (hs : s.board.IsProper) {request : Request}
    (hcontrol : request.IsControl) (hdirect : request.isDirect = true) :
    ∃ (u : Simulation) (c : Chronicle),
      (∀ queue, { s with queue }.perform request = .ok ({ u with queue }, c)) ∧ c.events = [] ∧
        u.queue = s.queue ∧ u.board = s.board := by
  cases request with
  | start => exact exists_carryOut_queue hs .start
  | reset => exact exists_carryOut_queue hs .reset
  | load program => exact exists_carryOut_queue hs (.load program)
  | deliver payload =>
    unfold perform deliver
    dsimp only
    cases Program.ofPayload payload with
    | error e => exact ⟨s, .empty, fun _ => rfl, rfl, rfl, rfl⟩
    | ok program =>
      obtain ⟨u, c₁, hu, htold, hqueue, hboard⟩ := exists_carryOut_queue hs (.load program)
      obtain ⟨t, c₂, ht, htold', hqueue', hboard'⟩ :=
        exists_carryOut_queue (s := u) (hboard ▸ hs) .start
      refine ⟨t, .ofEntries program.loadEntries ++ c₁ ++ c₂, fun queue => ?_, ?_,
        hqueue'.trans hqueue, hboard'.trans hboard⟩
      · exact bind_eq_ok_iff.mpr ⟨_, hu queue, bind_eq_ok_iff.mpr ⟨_, ht queue, rfl⟩⟩
      · rw [Chronicle.events_append, Chronicle.events_append, htold, htold']
        rfl
  | signal sent => exact nomatch hdirect
  | tick => exact hcontrol.elim
  | run => exact hcontrol.elim
  | tickMany n => exact hcontrol.elim
  | configure config => exact hcontrol.elim

/-- Between two ticks signals wait in the order in which they are sent, and what is made of the rest
of the simulation is what the direct requests make of it. -/
theorem exists_performAll_of_isControl (hs : s.board.IsProper) {requests : List Request}
    (hrequests : ∀ request ∈ requests, request.IsControl) :
    ∃ (u : Simulation) (d : Chronicle),
      (∀ queue, { s with queue }.performAll (requests.filter Request.isDirect) =
        .ok ({ u with queue }, d)) ∧ d.events = [] ∧ u.queue = s.queue ∧ u.board = s.board ∧
      ∀ queue, ∃ c, { s with queue }.performAll requests =
        .ok ({ u with queue := queue ++ requests.filterMap Request.sent? }, c) ∧ c.events = [] := by
  induction requests generalizing s with
  | nil =>
    refine ⟨s, .empty, fun _ => rfl, rfl, rfl, rfl, fun queue => ⟨.empty, ?_, rfl⟩⟩
    rw [List.filterMap_nil, List.append_nil]
    rfl
  | cons request requests ih =>
    have hfirst := hrequests request List.mem_cons_self
    have hrest := fun request hmem => hrequests request (List.mem_cons_of_mem _ hmem)
    cases hdirect : request.isDirect with
    | true =>
      obtain ⟨u, c₁, hu, htold, hqueue, hboard⟩ := exists_perform_of_isDirect hs hfirst hdirect
      obtain ⟨t, d, ht, htold', hqueue', hboard', hall⟩ := ih (hboard ▸ hs) hrest
      have hnone : request.sent? = none := Option.isNone_iff_eq_none.mp hdirect
      rw [List.filter_cons_of_pos hdirect, List.filterMap_cons_none hnone]
      refine ⟨t, c₁ ++ d, fun queue => ?_, ?_, hqueue'.trans hqueue, hboard'.trans hboard,
        fun queue => ?_⟩
      · exact bind_eq_ok_iff.mpr ⟨_, hu queue, bind_eq_ok_iff.mpr ⟨_, ht queue, rfl⟩⟩
      · rw [Chronicle.events_append, htold, htold']
        rfl
      · obtain ⟨c, hc, hsilent⟩ := hall queue
        refine ⟨c₁ ++ c, bind_eq_ok_iff.mpr ⟨_, hu queue, bind_eq_ok_iff.mpr ⟨_, hc, rfl⟩⟩, ?_⟩
        rw [Chronicle.events_append, htold, hsilent]
        rfl
    | false =>
      obtain ⟨t, d, ht, htold, hqueue, hboard, hall⟩ := ih hs hrest
      obtain ⟨signal, hsent⟩ : ∃ signal, request.sent? = some signal :=
        Option.ne_none_iff_exists'.mp fun hnone => by simp [Request.isDirect, hnone] at hdirect
      obtain rfl : request = .signal signal := by
        cases request <;> cases hsent
        rfl
      rw [List.filter_cons_of_neg (by simp [hdirect]), List.filterMap_cons_some hsent]
      refine ⟨t, d, ht, htold, hqueue, hboard, fun queue => ?_⟩
      obtain ⟨c, hc, hsilent⟩ := hall (queue ++ [signal])
      rw [List.append_assoc] at hc
      exact ⟨_, bind_eq_ok_iff.mpr ⟨_, rfl, bind_eq_ok_iff.mpr ⟨_, hc, rfl⟩⟩, hsilent⟩

/-- Signals do what the direct requests do. -/
theorem exists_performAll_of_carryOutAll {signals : List Signal}
    (h : s.carryOutAll signals = .ok (t, c)) :
    ∃ d, s.performAll (signals.map Signal.request) = .ok (t, d) ∧ d.events = [] := by
  induction signals generalizing s c with
  | nil =>
    obtain ⟨rfl, -⟩ := Prod.mk.inj (Except.ok.inj h)
    exact ⟨_, rfl, rfl⟩
  | cons signal signals ih =>
    obtain ⟨u, c₁, c₂, hu, ht, -⟩ := carryOutAll_cons_eq_ok_iff.mp h
    obtain ⟨d, hd, hsilent⟩ := ih ht
    refine ⟨c₁ ++ d, bind_eq_ok_iff.mpr ⟨_, (perform_request s signal).trans hu,
      bind_eq_ok_iff.mpr ⟨_, hd, rfl⟩⟩, ?_⟩
    rw [Chronicle.events_append, events_of_carryOut hu, hsilent]
    rfl

/-! ### What waits is carried out first -/

/-- The outcome of a tick or a run, with what was noted before it. -/
def precededBy (c : Chronicle) (r : Nat × Simulation × Chronicle) : Nat × Simulation × Chronicle :=
  (r.1, r.2.1, c ++ r.2.2)

theorem tick_of_drain (h : s.drain = .ok (v, c)) : s.tick = v.tick.map (precededBy c) := by
  rw [tick_of_queue_nil (frame_of_drain h).2.2.2, tick, h]
  show (v.step >>= fun r => pure (r.1, r.2.1, c ++ r.2.2)) = v.step.map _
  cases v.step <;> rfl

theorem runFor_succ_of_drain (h : s.drain = .ok (v, c)) (bound : Nat) :
    s.runFor (bound + 1) = (v.runFor (bound + 1)).map (precededBy c) := by
  rw [runFor, runFor, h, drain_of_queue_nil (frame_of_drain h).2.2.2]
  dsimp only [bind, Except.bind]
  split_ifs with hrunning
  · cases hstep : v.step with
    | error fault => rfl
    | ok result =>
      dsimp only
      cases result.2.1.runFor bound <;> rfl
  · rfl

theorem run_of_drain (h : s.drain = .ok (v, c)) (hmax : 1 ≤ s.config.maxTicks.toNat) :
    s.run = v.run.map (precededBy c) := by
  obtain ⟨bound, hbound⟩ := Nat.exists_eq_succ_of_ne_zero (Nat.ne_of_gt hmax)
  rw [run, run, (frame_of_drain h).1, hbound, runFor_succ_of_drain h]
  cases v.runFor (bound + 1) with
  | error fault => rfl
  | ok result =>
    obtain ⟨k, t, d⟩ := result
    show Except.ok (k, t, c ++ d ++ _) = Except.ok (k, t, c ++ (d ++ _))
    rw [Chronicle.append_assoc]

/-! ### Signals collapse -/

/-- What a signal makes of a simulation whose world is to be `w` and whose program `p`. -/
def obeyed (s : Simulation) (w : World) (p : Program) : Signal → Simulation
  | .start => { s with program := p }.begun w
  | _ => { s with program := p, world := w, unreported := [] }

theorem obeyed_program (s : Simulation) (w : World) (p : Program) (signal : Signal) :
    (s.obeyed w p signal).program = p := by
  cases signal <;> rfl

/-- A signal forgets what the one before it has made. -/
theorem obeyed_obeyed (s : Simulation) (w : World) (p q : Program) (first second : Signal) :
    (s.obeyed w p first).obeyed w q second = s.obeyed w q second := by
  cases first <;> cases second <;> rfl

theorem eq_obeyed_of_carryOut {signal : Signal} (hw : World.ofBoard s.board = .ok w)
    (h : s.carryOut signal = .ok (t, c)) :
    t = s.obeyed w (signal.program?.getD s.program) signal := by
  have hsame : ∀ {v : World}, World.ofBoard s.board = .ok v → v = w :=
    fun hv => Except.ok.inj (hv.symm.trans hw)
  cases signal with
  | load program =>
    obtain ⟨v, hv, rfl⟩ := exists_load_iff.mp ⟨c, h⟩
    rw [hsame hv]
    rfl
  | start =>
    obtain ⟨v, hv, rfl⟩ := exists_start_iff.mp ⟨c, h⟩
    rw [hsame hv]
    rfl
  | reset =>
    obtain ⟨v, hv, rfl⟩ := exists_reset_iff.mp ⟨c, h⟩
    rw [hsame hv]
    rfl

/-- Of several signals the last one counts, and the last program that was loaded. -/
theorem eq_obeyed_of_carryOutAll {signals : List Signal} {last : Signal}
    (hw : World.ofBoard s.board = .ok w) (h : s.carryOutAll (signals ++ [last]) = .ok (t, c)) :
    t = s.obeyed w (((signals ++ [last]).filterMap Signal.program?).getLast?.getD s.program)
      last := by
  induction signals generalizing s c with
  | nil =>
    obtain ⟨u, c₁, c₂, hu, ht, -⟩ := carryOutAll_cons_eq_ok_iff.mp h
    obtain ⟨rfl, -⟩ := Prod.mk.inj (Except.ok.inj ht)
    have hone := eq_obeyed_of_carryOut hw hu
    cases last <;> exact hone
  | cons signal signals ih =>
    obtain ⟨u, c₁, c₂, hu, ht, -⟩ := carryOutAll_cons_eq_ok_iff.mp h
    obtain ⟨-, -, hboard, -⟩ := frame_of_carryOut hu
    have hrest := ih (hboard ▸ hw) ht
    rw [eq_obeyed_of_carryOut hw hu, obeyed_obeyed, obeyed_program] at hrest
    rw [hrest, List.cons_append, Signal.getD_getLast?_program?_cons]

/-- If signals wait, they make anew what only the last one and the last program decide. -/
theorem exists_drain_eq_obeyed (hs : s.board.IsProper) (hq : s.queue ≠ []) : ∃ last w c,
    s.queue.getLast? = some last ∧ World.ofBoard s.board = .ok w ∧
      s.drain = .ok (obeyed { s with queue := [] } w
        ((s.queue.filterMap Signal.program?).getLast?.getD s.program) last, c) := by
  obtain ⟨ready, c, hready, -⟩ := exists_drain hs
  obtain ⟨w, hw⟩ := World.exists_ofBoard hs
  obtain ⟨signals, last, hsignals⟩ := (List.eq_nil_or_concat' s.queue).resolve_left hq
  have hcarried : carryOutAll { s with queue := [] } (signals ++ [last]) = .ok (ready, c) := by
    rw [← hsignals]
    exact hready
  have hobeyed := eq_obeyed_of_carryOutAll (s := { s with queue := [] }) hw hcarried
  rw [← hsignals] at hobeyed
  refine ⟨last, w, c, by rw [hsignals, List.getLast?_concat], hw, ?_⟩
  rw [hready, hobeyed]

/-! ### What is started -/

theorem nothing_begun_of_ofBoard {b : Board} (h : World.ofBoard b = .ok w) {a : Agent}
    (ha : a ∈ w.agents) : a.cursor = none ∧ a.finished = none := by
  obtain ⟨n, sp, -, hspawn⟩ := World.exists_spawn_of_mem h ha
  obtain ⟨o, -, rfl⟩ := Agent.spawn_eq_ok_iff.mp hspawn
  exact ⟨rfl, rfl⟩

/-- Agents that have just been made are put at the beginning of a program. -/
theorem map_begun_of_root_some {b : Board} (h : World.ofBoard b = .ok w) {p : Program}
    {root : NodeId} (hroot : p.root = some root) : w.agents.map (Agent.begun p) =
      w.agents.map fun a => { a with cursor := some root, phase := .executing } := by
  refine List.map_congr_left fun a ha => ?_
  obtain ⟨-, hfinished⟩ := nothing_begun_of_ofBoard h ha
  rw [Agent.begun, hroot]
  show Agent.mk .. = Agent.mk ..
  rw [hfinished]

/-- Agents that have just been made stop at once if the program has no beginning. -/
theorem map_begun_of_root_none {b : Board} (h : World.ofBoard b = .ok w) {p : Program}
    (hroot : p.root = none) : w.agents.map (Agent.begun p) =
      w.agents.map fun a => { a with phase := .idle, finished := some .endOfProgram } := by
  refine List.map_congr_left fun a ha => ?_
  obtain ⟨hcursor, -⟩ := nothing_begun_of_ofBoard h ha
  rw [Agent.begun, hroot]
  show Agent.mk .. = Agent.mk ..
  rw [hcursor]

/-! ### Every simulation -/

/-- Signals that are sent while a host begins anew and takes programs change nothing until the next
tick or run. That does what it would do if, after everything else, the host had asked for the same
directly, one thing after the other. And when signals wait, what they will make of the simulation
depends only on the last program among them and on whether the last of them is a start. Signals are
sent between the calls of the host; observers send none during a call. -/
theorem Reachable.signals_wait_and_collapse (h : s.Reachable) :
    (∀ requests : List Request, (∀ request ∈ requests, request.IsControl) →
      ∃ t c u d v e c₀, s.performAll requests = .ok (t, c) ∧ c.events = [] ∧
        s.performAll (requests.filter Request.isDirect) = .ok (u, d) ∧ u.queue = s.queue ∧
        t = { u with queue := s.queue ++ requests.filterMap Request.sent? } ∧
        performAll { u with queue := [] } (t.queue.map Signal.request) = .ok (v, e) ∧
        v.queue = [] ∧ e.events = [] ∧ c₀.events = [] ∧
        t.tick = v.tick.map (precededBy c₀) ∧
        (1 ≤ t.config.maxTicks.toNat → t.run = v.run.map (precededBy c₀))) ∧
    (s.queue ≠ [] → ∃ ready c w, s.drain = .ok (ready, c) ∧ World.ofBoard s.board = .ok w ∧
      ready.clock = s.clock ∧ ready.config = s.config ∧ ready.board = s.board ∧
      ready.queue = [] ∧
      ready.program = (s.queue.filterMap Signal.program?).getLast?.getD s.program ∧
      (s.queue.getLast? ≠ some .start → ready.world = w ∧ ready.unreported = []) ∧
      (s.queue.getLast? = some .start →
        (∀ root, ready.program.root = some root →
          ready.world = { w with
            agents := w.agents.map fun a => { a with cursor := some root, phase := .executing } } ∧
          ready.unreported = []) ∧
        (ready.program.root = none →
          ready.world = { w with
            agents := w.agents.map fun a =>
              { a with phase := .idle, finished := some .endOfProgram } } ∧
          ready.unreported.map Ident.index = List.range ready.world.agents.length))) := by
  have hboard := h.sound.board
  refine ⟨fun requests hrequests => ?_, fun hq => ?_⟩
  · obtain ⟨u, d, hdirect, -, hqueue, hkept, hall⟩ :=
      exists_performAll_of_isControl hboard hrequests
    obtain ⟨c, ht, hsilent⟩ := hall s.queue
    have hsame : { u with queue := s.queue } = u := by rw [← hqueue]
    have hu := hdirect s.queue
    rw [hsame] at hu
    obtain ⟨v, c₀, hv⟩ := exists_carryOutAll (s := { u with queue := [] }) (hkept ▸ hboard)
      (s.queue ++ requests.filterMap Request.sent?)
    obtain ⟨e, he, htold⟩ := exists_performAll_of_carryOutAll hv
    -- the simulation in which the signals wait carries out the same
    have hdrain : drain { u with queue := s.queue ++ requests.filterMap Request.sent? } =
        .ok (v, c₀) := hv
    exact ⟨_, c, u, d, v, e, c₀, ht, hsilent, hu, hqueue, rfl, he, (frame_of_drain hdrain).2.2.2,
      htold, events_of_carryOutAll hv, tick_of_drain hdrain, run_of_drain hdrain⟩
  · obtain ⟨last, w, c, hlast, hw, hready⟩ := exists_drain_eq_obeyed hboard hq
    obtain ⟨hconfig, hclock, hkept, hqueue⟩ := frame_of_drain hready
    generalize (s.queue.filterMap Signal.program?).getLast?.getD s.program = program at *
    refine ⟨_, c, w, hready, hw, hclock, hconfig, hkept, hqueue, obeyed_program _ w program last,
      fun hne => ?_, fun hstart => ?_⟩
    · cases last with
      | start => exact absurd hlast hne
      | load program => exact ⟨rfl, rfl⟩
      | reset => exact ⟨rfl, rfl⟩
    · obtain rfl : last = .start := Option.some.inj (hlast.symm.trans hstart)
      refine ⟨fun root hroot => ?_, fun hroot => ?_⟩
      · have hroot : program.root = some root := hroot
        exact ⟨congrArg (World.mk · w.stock) (map_begun_of_root_some hw hroot),
          if_pos (Option.isSome_iff_exists.mpr ⟨root, hroot⟩)⟩
      · have hroot : program.root = none := hroot
        refine ⟨congrArg (World.mk · w.stock) (map_begun_of_root_none hw hroot), ?_⟩
        have hcount : (w.agents.map (Agent.begun program)).length = w.agents.length :=
          List.length_map _
        have hreported := World.map_index_of_ofBoard hboard hw
        rw [← hcount] at hreported
        exact (congrArg (List.map Ident.index) (if_neg (by simp [hroot]))).trans hreported

/-- In the corridor two signals are sent around a direct start, which they leave alone: the agent
executes, although a reset waits. Then the next tick does what it would do after a reset and a
start. -/
theorem signals_wait_and_collapse_corridor : ∃ t : Simulation, t.Reachable ∧
    t.queue = [.reset, .start] ∧ t.isRunning = true ∧
    (∃ v e c₀, performAll { t with queue := [] } [.reset, .start] = .ok (v, e) ∧
      t.tick = v.tick.map (precededBy c₀)) ∧
    ∃ ready d w, t.drain = .ok (ready, d) ∧ World.ofBoard t.board = .ok w ∧
      ready.world = { w with
        agents := w.agents.map fun a => { a with cursor := some ⟨0⟩, phase := .executing } } := by
  have hfirst :=
    reachable_corridor.perform (show (Request.signal .reset).IsAdmissible from trivial) rfl
  have hstarted := hfirst.perform (show Request.start.IsAdmissible from trivial) rfl
  have hs := hstarted.perform (show (Request.signal .start).IsAdmissible from trivial) rfl
  obtain ⟨hwait, -⟩ := reachable_corridor.signals_wait_and_collapse
  obtain ⟨t, c, u, d, v, e, c₀, ht, -, hu, -, -, hv, -, -, -, htick, -⟩ :=
    hwait [.signal .reset, .start, .signal .start] (by simp [Request.IsControl])
  cases ht
  cases hu
  obtain ⟨-, hcollapse⟩ := hs.signals_wait_and_collapse
  obtain ⟨ready, d, w, hready, hw, -, -, -, -, hprogram, -, hstart⟩ := hcollapse (by simp [enqueue])
  have hroot : ready.program.root = some ⟨0⟩ := by
    rw [hprogram]
    rfl
  exact ⟨_, hs, rfl, rfl, ⟨v, e, c₀, hv, htick⟩, ready, d, w, hready, hw,
    ((hstart rfl).1 ⟨0⟩ hroot).1⟩

end Simulation

end TileWalk
