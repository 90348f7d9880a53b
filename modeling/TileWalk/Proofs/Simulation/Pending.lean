import TileWalk.Proofs.Simulation.Signals
import TileWalk.Proofs.Simulation.Stream

/-!
# What is pending

Signals wait for the next tick or run, and so do the reports of agents that stopped as they were
started. A tick leaves none of them waiting, and neither does a run that may process a tick, whether
it does or not (`Simulation.clear_of_runFor`). A run that may process none returns before it has
looked: it leaves everything as it was, and tells observers only that it has ended
(`Simulation.Reachable.clears_iff`).
-/

namespace TileWalk

open Outcome

namespace Simulation

variable {s t ready : Simulation} {n bound : Nat} {c c₀ : Chronicle}

/-- A call of `s` that returns `t` and has told `c` leaves nothing that was pending. -/
structure Clears (call : Simulation → Except Fault (Nat × Simulation × Chronicle))
    (s t : Simulation) (c : Chronicle) : Prop where
  queue_eq : t.queue = []
  unreported_eq : t.unreported = []
  /-- The signals were carried out before anything else, and those who had stopped as they were
  started were reported. -/
  carriedOut : ∃ ready c₀, { s with queue := [] }.carryOutAll s.queue = .ok (ready, c₀) ∧
    call s = (call ready).map (precededBy c₀) ∧
    (ready.unreported.map (.agentFinished ready.clock · .endOfProgram)).Sublist c.events

/-! ### Reports -/

/-- A tick reports everybody who is left to be reported. -/
theorem IsAttained.reports_of_step (h : s.IsAttained) (ht : s.step = .ok (n, t, c)) :
    (s.unreported.map (.agentFinished s.clock · .endOfProgram)).Sublist c.events := by
  obtain ⟨_, _, c₁, _, c₂, _, -, -, -, -, rfl⟩ := step_eq_ok_iff.mp ht
  rw [← h.pendingEvents_eq_map]
  simp only [Chronicle.events_append, Chronicle.ofEvents, List.append_assoc, List.cons_append]
  exact (List.sublist_append_left _ _).cons _

/-- So does a run that may process a tick. -/
theorem IsAttained.reports_of_runFor (h : s.IsAttained) (hready : s.drain = .ok (ready, c₀))
    (ht : s.runFor (bound + 1) = .ok (n, t, c)) :
    (ready.unreported.map (.agentFinished ready.clock · .endOfProgram)).Sublist c.events := by
  have hattained := h.drain hready
  obtain ⟨_, _, hdrain, hround⟩ := runFor_succ_eq_ok_iff.mp ht
  obtain ⟨rfl, rfl⟩ := Prod.mk.inj (Except.ok.inj (hready.symm.trans hdrain))
  rcases hround with ⟨-, -, -, rfl⟩ | ⟨-, _, _, c₁, _, c₂, hu, -, -, rfl⟩
  · rw [← hattained.pendingEvents_eq_map, Chronicle.events_append]
    exact List.sublist_append_right _ _
  · have hreports := hattained.reports_of_step hu
    rw [Chronicle.events_append, Chronicle.events_append]
    exact (hreports.trans (List.sublist_append_left _ _)).trans (List.sublist_append_right _ _)

/-! ### What is left -/

/-- Nothing is left pending by a run that may process a tick, or that found nothing pending. -/
theorem clear_of_runFor (ht : s.runFor bound = .ok (n, t, c))
    (hbound : 0 < bound ∨ s.queue = [] ∧ s.unreported = []) :
    t.queue = [] ∧ t.unreported = [] := by
  induction bound generalizing s n c with
  | zero =>
    obtain ⟨-, h⟩ := Prod.mk.inj (Except.ok.inj ht)
    obtain ⟨rfl, -⟩ := Prod.mk.inj h
    exact hbound.resolve_left (Nat.lt_irrefl 0)
  | succ bound ih =>
    obtain ⟨ready, c₀, hready, hround⟩ := runFor_succ_eq_ok_iff.mp ht
    have hqueue := (frame_of_drain hready).2.2.2
    rcases hround with ⟨-, -, rfl, -⟩ | ⟨-, _, u, _, _, _, hu, hrest, -, -⟩
    · exact ⟨hqueue, rfl⟩
    · -- a tick has been processed, and no signal has come since
      have hframe := (frame_of_step hu).2.2.2.1
      exact ih hrest (Or.inr ⟨hframe.trans hqueue, unreported_of_step hu⟩)

theorem run_eq_ok_iff : s.run = .ok (n, t, c) ↔ ∃ d,
    s.runFor s.config.maxTicks.toNat = .ok (n, t, d) ∧
      c = d ++ ⟨[.runEnd t.clock], t.boundEntries⟩ := by
  unfold run
  rw [bind_eq_ok_iff]
  constructor
  · rintro ⟨⟨k, u, d⟩, hrun, hpure⟩
    cases pure_eq_ok_iff.mp hpure
    exact ⟨d, hrun, rfl⟩
  · rintro ⟨d, hrun, rfl⟩
    exact ⟨_, hrun, rfl⟩

/-! ### Calls -/

theorem IsAttained.clears_tick (h : s.IsAttained) (ht : s.tick = .ok (n, t, c)) :
    s.Clears tick t c := by
  obtain ⟨⟨ready, c₀⟩, hready, hrest⟩ := bind_eq_ok_iff.mp ht
  obtain ⟨⟨count, u, d⟩, hu, hpure⟩ := bind_eq_ok_iff.mp hrest
  cases pure_eq_ok_iff.mp hpure
  have hreports := (h.drain hready).reports_of_step hu
  refine ⟨?_, unreported_of_step hu, ready, c₀, hready, tick_of_drain hready, ?_⟩
  · exact (frame_of_step hu).2.2.2.1.trans (frame_of_drain hready).2.2.2
  · rw [Chronicle.events_append]
    exact hreports.trans (List.sublist_append_right _ _)

theorem IsAttained.clears_run (h : s.IsAttained) (hmax : 0 < s.config.maxTicks.toNat)
    (ht : s.run = .ok (n, t, c)) : s.Clears run t c := by
  obtain ⟨d, hd, rfl⟩ := run_eq_ok_iff.mp ht
  obtain ⟨hqueue, hunreported⟩ := clear_of_runFor hd (Or.inl hmax)
  obtain ⟨bound, hbound⟩ := Nat.exists_eq_succ_of_ne_zero (Nat.ne_of_gt hmax)
  rw [hbound] at hd
  obtain ⟨ready, c₀, hready, -⟩ := runFor_succ_eq_ok_iff.mp hd
  have hreports := h.reports_of_runFor hready hd
  refine ⟨hqueue, hunreported, ready, c₀, hready, run_of_drain hready hmax, ?_⟩
  rw [Chronicle.events_append]
  exact hreports.trans (List.sublist_append_left _ _)

/-- A run that may process no tick only tells that it has ended. -/
theorem run_of_maxTicks_eq_zero (hmax : s.config.maxTicks.toNat = 0) :
    s.run = .ok (0, s, ⟨[.runEnd s.clock], s.boundEntries⟩) := by
  rw [run_eq_ok_iff, hmax]
  exact ⟨.empty, rfl, rfl⟩

/-- Whatever is asked for, a tick leaves nothing pending: it carries out the signals that wait,
reports those who stopped as they were started, and leaves no signal and no report. A run does the
same if it may process a tick. If it may not, it does so only if nothing is pending. What is pending
is so before the call, for observers send no signal during it. -/
theorem Reachable.clears_iff (h : s.Reachable) :
    (∀ n t c, s.tick = .ok (n, t, c) → s.Clears tick t c) ∧
    ∀ n t c, s.run = .ok (n, t, c) →
      (s.Clears run t c ↔ 0 < s.config.maxTicks.toNat ∨ s.queue = [] ∧ s.unreported = []) := by
  refine ⟨fun n t c ht => h.isAttained.clears_tick ht, fun n t c ht => ?_⟩
  rcases Nat.eq_zero_or_pos s.config.maxTicks.toNat with hzero | hpos
  · have hrun := run_of_maxTicks_eq_zero hzero
    cases hrun.symm.trans ht
    constructor
    · exact fun hclears => Or.inr ⟨hclears.queue_eq, hclears.unreported_eq⟩
    · rintro (hpos | ⟨hqueue, hunreported⟩)
      · exact absurd hzero (Nat.ne_of_gt hpos)
      · refine ⟨hqueue, hunreported, s, .empty, drain_of_queue_nil hqueue, ?_, ?_⟩
        · rw [hrun]
          rfl
        · rw [hunreported]
          exact List.nil_sublist _
  · exact ⟨fun _ => Or.inl hpos, fun _ => h.isAttained.clears_run hpos ht⟩

/-- In the corridor a program without a beginning is started, and the next run reports the agent. -/
theorem clears_corridor : ∃ (s t : Simulation) (n : Nat) (c : Chronicle), s.Reachable ∧
    s.unreported = [⟨0⟩] ∧ s.run = .ok (n, t, c) ∧ s.Clears run t c ∧
    Event.agentFinished s.clock ⟨0⟩ .endOfProgram ∈ c.events := by
  have hprogram : Program.empty.IsObtainable := .built [] rfl (by decide)
  have hloaded :=
    reachable_corridor.perform (show (Request.load Program.empty).IsAdmissible from hprogram) rfl
  have hs := hloaded.perform (show Request.start.IsAdmissible from trivial) rfl
  obtain ⟨-, hrun⟩ := hs.clears_iff
  exact ⟨_, _, _, _, hs, rfl, rfl, (hrun _ _ _ rfl).mpr (Or.inl (by decide)), List.mem_cons_self⟩

/-- On a board of one cell a program without a beginning is started, and observers do not hear of it
in the next run if the settings, which are accepted, say that it may process no tick. -/
theorem exists_run_not_clears : ∃ (s t : Simulation) (n : Nat) (c : Chronicle), s.Reachable ∧
    s.config.check = .ok () ∧ s.unreported = [⟨0⟩] ∧ s.run = .ok (n, t, c) ∧
    t.unreported = [⟨0⟩] ∧ c.events = [.runEnd s.clock] := by
  have hboard : Board.ofRows [[5]] =
      .ok ⟨⟨1, 1, #[⟨5⟩], rfl⟩, [⟨⟨0, 0⟩, .southEast⟩], []⟩ := rfl
  have hprogram : Program.empty.IsObtainable := .built [] rfl (by decide)
  have hbuilt := Reachable.build hboard (by decide) hprogram
    (show build _ ⟨10, 0, 1⟩ Program.empty = .ok (.ok (_, _)) from rfl)
  have hs := hbuilt.perform (show Request.start.IsAdmissible from trivial) rfl
  exact ⟨_, _, _, _, hs, rfl, rfl, rfl, rfl, rfl⟩

end Simulation

end TileWalk
