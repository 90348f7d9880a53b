import TileWalk.Proofs.Simulation.Endings
import TileWalk.Proofs.Simulation.Progress

/-!
# Runs are ticks

A run processes ticks as long as something moves and its bound allows it. How many ticks these are
can be said without the run (`Simulation.IsRunLength`): the least number of ticks after which
nothing moves, or the bound if there is no such number up to it. The run takes so many ticks, and
what it makes of a simulation and tells observers is what these ticks make and tell
(`Simulation.Sound.exists_runFor_of_isRunLength`).

Stopping there loses nothing, for a tick in which nothing moves changes no world
(`Simulation.Sound.world_of_step`). And a run that is cut in two at any bound comes to the same end
(`Simulation.exists_runFor_of_add`), so several short runs can stand for a long one
(`Simulation.Reachable.run_iterates_ticks`).
-/

namespace TileWalk

open Outcome

namespace Simulation

variable {s t u : Simulation} {c : Chronicle} {count bound k m n : Nat} {counts : List Nat}

/-! ### How long a run is -/

/-- After some ticks nothing moves. -/
def StopsAfter (s : Simulation) (n : Nat) : Prop :=
  ∃ counts t c, s.tickMany n = .ok (counts, t, c) ∧ t.isRunning = false

/-- The least number of ticks after which nothing moves, or the bound if there is none up to it. -/
structure IsRunLength (s : Simulation) (bound k : Nat) : Prop where
  le : k ≤ bound
  least : ∀ n < k, ¬ s.StopsAfter n
  stops : k < bound → s.StopsAfter k

theorem exists_isRunLength (s : Simulation) (bound : Nat) : ∃ k, s.IsRunLength bound k := by
  induction bound with
  | zero => exact ⟨0, Nat.le_refl 0, fun n hn => absurd hn (Nat.not_lt_zero n), fun h => nomatch h⟩
  | succ bound ih =>
    obtain ⟨k, hle, hleast, hstops⟩ := ih
    by_cases hk : s.StopsAfter k
    · exact ⟨k, Nat.le_succ_of_le hle, hleast, fun _ => hk⟩
    · -- nothing has stopped within the old bound, so the new one is reached
      obtain rfl : k = bound := Nat.le_antisymm hle (Nat.not_lt.mp (mt hstops hk))
      refine ⟨k + 1, Nat.le_refl _, fun n hn => ?_, fun h => absurd h (Nat.lt_irrefl _)⟩
      rcases Nat.lt_succ_iff_lt_or_eq.mp hn with hlt | rfl
      · exact hleast n hlt
      · exact hk

theorem stopsAfter_zero : s.StopsAfter 0 ↔ s.isRunning = false := by
  constructor
  · rintro ⟨counts, t, c, ht, hstopped⟩
    obtain ⟨-, rfl, -⟩ := by simpa [tickMany] using ht
    exact hstopped
  · intro hstopped
    exact ⟨_, s, _, rfl, hstopped⟩

theorem stopsAfter_succ (hq : s.queue = []) (hu : s.step = .ok (count, u, c)) :
    s.StopsAfter (n + 1) ↔ u.StopsAfter n := by
  rw [← tick_of_queue_nil hq] at hu
  constructor
  · rintro ⟨counts, t, d, ht, hstopped⟩
    obtain ⟨count', u', c₁, rest, c₂, hu', ht', -, -⟩ := tickMany_succ_eq_ok_iff.mp ht
    obtain ⟨-, rfl, -⟩ := by simpa using hu.symm.trans hu'
    exact ⟨rest, t, c₂, ht', hstopped⟩
  · rintro ⟨rest, t, c₂, ht, hstopped⟩
    exact ⟨_, t, _, tickMany_succ_eq_ok_iff.mpr ⟨count, u, c, rest, c₂, hu, ht, rfl, rfl⟩, hstopped⟩

theorem IsRunLength.of_step (h : s.IsRunLength (bound + 1) (k + 1)) (hq : s.queue = [])
    (hu : s.step = .ok (count, u, c)) : u.IsRunLength bound k where
  le := Nat.le_of_succ_le_succ h.le
  least n hn := by
    intro hstops
    exact h.least (n + 1) (Nat.succ_lt_succ hn) ((stopsAfter_succ hq hu).mpr hstops)
  stops hk := (stopsAfter_succ hq hu).mp (h.stops (Nat.succ_lt_succ hk))

/-! ### What a run does -/

theorem pendingEvents_of_unreported_nil (h : s.unreported = []) : s.pendingEvents = [] := by
  rw [pendingEvents_eq, h]
  rfl

/-- A run carries out the waiting signals, does what its ticks do, and tells of those that are left
to be reported if it takes no tick. -/
theorem Sound.exists_runFor_of_isRunLength {ready : Simulation} {c₀ : Chronicle}
    (hs : ready.Sound) (hready : s.drain = .ok (ready, c₀))
    (hk : ready.IsRunLength (bound + 1) k) (hclock : ready.clock.count.toNat + k < 2 ^ 64) :
    ∃ counts t c d, ready.tickMany k = .ok (counts, t, c) ∧
      s.runFor (bound + 1) = .ok (k, { t with unreported := [] }, d) ∧
      d.events = c.events ++ if ready.isRunning then [] else ready.pendingEvents := by
  have hsilent : c₀.events = [] := events_of_carryOutAll hready
  have hq : ready.queue = [] := (frame_of_drain hready).2.2.2
  induction k generalizing s ready c₀ bound with
  | zero =>
    have hstopped := stopsAfter_zero.mp (hk.stops (Nat.succ_pos bound))
    refine ⟨[], ready, .empty, _, rfl, runFor_succ_of_not_isRunning hready hstopped, ?_⟩
    rw [Chronicle.events_append, hsilent, hstopped]
    rfl
  | succ k ih =>
    have hrunning : ready.isRunning = true := by
      rw [← Bool.not_eq_false, ← stopsAfter_zero]
      exact hk.least 0 (Nat.succ_pos k)
    obtain ⟨count, u, c₁, hu⟩ := hs.exists_step (by omega)
    obtain ⟨-, -, -, hqueue, hnext⟩ := frame_of_step hu
    have hreported := unreported_of_step hu
    have hless := hk.of_step hq hu
    -- after a tick nobody is left to be reported, so the rest of the run tells only of its ticks
    have hrest : ∃ counts t c d, u.tickMany k = .ok (counts, t, c) ∧
        u.runFor bound = .ok (k, { t with unreported := [] }, d) ∧ d.events = c.events := by
      cases bound with
      | zero =>
        obtain rfl := Nat.le_zero.mp hless.le
        have hsettled : { u with unreported := [] } = u := by rw [← hreported]
        exact ⟨[], u, .empty, .empty, rfl, by rw [hsettled]; rfl, rfl⟩
      | succ bound =>
        have hqueue' := hqueue.trans hq
        obtain ⟨counts, t, c, d, ht, hrun, hevents⟩ := ih (hs.step hu)
          (drain_of_queue_nil hqueue') hless (by omega) rfl hqueue'
        rw [pendingEvents_of_unreported_nil hreported, ite_self, List.append_nil] at hevents
        exact ⟨counts, t, c, d, ht, hrun, hevents⟩
    obtain ⟨counts, t, c, d, ht, hrun, hevents⟩ := hrest
    refine ⟨_, t, c₁ ++ c, _, tickMany_succ_eq_ok_iff.mpr ⟨count, u, c₁, counts, c,
      (tick_of_queue_nil hq).trans hu, ht, rfl, rfl⟩,
      runFor_succ_of_isRunning hready hrunning hu hrun, ?_⟩
    rw [Chronicle.events_append, Chronicle.events_append, Chronicle.events_append, hsilent,
      hevents, if_pos hrunning, List.append_nil]
    rfl

/-! ### Nothing is lost -/

/-- A tick in which nothing moves leaves the world alone, and nobody executes a node. -/
theorem Sound.world_of_step (hs : s.Sound) (hstopped : s.isRunning = false)
    (h : s.step = .ok (count, t, c)) : count = 0 ∧ t.world = s.world := by
  have hidle : ∀ a ∈ s.world.agents, a.phase = .idle := by
    intro a ha
    have hnone := List.any_eq_false.mp hstopped a ha
    rw [Bool.not_eq_true, Bool.not_eq_false'] at hnone
    exact Agent.isIdle_iff.mp hnone
  obtain ⟨hlive, hcount⟩ := mapM_live_of_step hs.coherent h
  have hagents : t.world.agents = s.world.agents := by
    have hsame := mapM_eq_ok_iff.mp hlive
    rw [← List.forall₂_eq_eq_eq]
    refine ((List.forall₂_and_left _ _).mpr ⟨hidle, hsame⟩).flip.imp fun b a ⟨ha, hb⟩ => ?_
    rw [Agent.live_of_idle ha] at hb
    exact (Except.ok.inj hb).symm
  -- an idle agent has no motion, so nobody arrives
  have hlandings : s.world.agents.filterMap (Agent.landing? s.board.grid s.clock) = [] := by
    rw [List.filterMap_eq_nil_iff]
    intro a ha
    have hmotion := ((hs.coherent a ha).of_idle (hidle a ha)).2
    rw [Agent.landing?_eq (Agent.advance_of_none hmotion)]
    rfl
  obtain ⟨moved, stock, c₁, agents, c₂, clock, hmoved, -, -, rfl, -⟩ := step_eq_ok_iff.mp h
  have hstock := collectAll_of_moveAgents hmoved
  rw [hlandings] at hstock
  obtain rfl := Except.ok.inj hstock
  constructor
  · rw [hcount, List.countP_eq_zero]
    intro a ha hexecuting
    rw [Agent.isExecuting_iff, hidle a ha] at hexecuting
    cases hexecuting
  · exact congrArg (World.mk · s.world.stock) hagents

/-! ### Runs in parts -/

/-- A run that has stopped has nothing more to do. -/
theorem runFor_of_not_isRunning (hq : s.queue = []) (hreported : s.unreported = [])
    (hstopped : s.isRunning = false) (n : Nat) : ∃ c, s.runFor n = .ok (0, s, c) := by
  cases n with
  | zero => exact ⟨_, rfl⟩
  | succ n =>
    have hsettled : { s with unreported := [] } = s := by rw [← hreported]
    have hrun : s.runFor (n + 1) = _ :=
      runFor_succ_of_not_isRunning (drain_of_queue_nil hq) hstopped
    rw [hsettled] at hrun
    exact ⟨_, hrun⟩

/-- A run can be cut at any bound: what is left of it is a run again. -/
theorem exists_runFor_of_add (h : s.runFor (m + n) = .ok (k, t, c)) :
    ∃ k₁ u c₁ k₂ c₂, s.runFor m = .ok (k₁, u, c₁) ∧ u.runFor n = .ok (k₂, t, c₂) ∧
      k = k₁ + k₂ := by
  induction m generalizing s k c with
  | zero =>
    rw [Nat.zero_add] at h
    exact ⟨0, s, _, k, c, rfl, h, (Nat.zero_add k).symm⟩
  | succ m ih =>
    rw [Nat.add_right_comm] at h
    obtain ⟨ready, c₀, hready, ⟨hstopped, rfl, rfl, -⟩ |
      ⟨hrunning, count, v, c₁, l, c₂, hv, ht, rfl, -⟩⟩ := runFor_succ_eq_ok_iff.mp h
    · obtain ⟨d, hrest⟩ := runFor_of_not_isRunning (s := { ready with unreported := [] })
        (frame_of_drain hready).2.2.2 rfl hstopped n
      exact ⟨0, _, _, 0, d, runFor_succ_of_not_isRunning hready hstopped, hrest, rfl⟩
    · obtain ⟨k₁, u, d₁, k₂, d₂, hu, hrest, rfl⟩ := ih ht
      exact ⟨k₁ + 1, u, _, k₂, d₂, runFor_succ_of_isRunning hready hrunning hv hu, hrest,
        Nat.add_right_comm k₁ k₂ 1⟩

/-- The simulation with another bound of its runs. -/
def bounded (m : UInt64) (s : Simulation) : Simulation :=
  { s with config := { s.config with maxTicks := m } }

theorem drain_bounded (m : UInt64) (h : s.drain = .ok (t, c)) :
    (s.bounded m).drain = .ok (t.bounded m, c) := by
  obtain ⟨hconfig, -, -, hqueue⟩ := frame_of_drain h
  have hall := carryOutAll_with h { s.config with maxTicks := m } []
  have hsame : { t with config := { s.config with maxTicks := m }, queue := [] } = t.bounded m := by
    unfold bounded
    rw [hconfig, hqueue]
  rw [hsame] at hall
  exact hall

theorem step_bounded (m : UInt64) (h : s.step = .ok (count, t, c)) :
    (s.bounded m).step = .ok (count, t.bounded m, c) := by
  obtain ⟨moved, stock, d₁, agents, d₂, clock, hmoved, hagents, hclock, rfl, rfl⟩ :=
    step_eq_ok_iff.mp h
  exact step_eq_ok_iff.mpr
    ⟨moved, stock, d₁, agents, d₂, clock, hmoved, hagents, hclock, rfl, rfl⟩

/-- A run does not look at the settings for its own bound, nor does what it does depend on them. -/
theorem runFor_bounded (m : UInt64) (h : s.runFor bound = .ok (k, t, c)) :
    (s.bounded m).runFor bound = .ok (k, t.bounded m, c) := by
  induction bound generalizing s k c with
  | zero =>
    obtain ⟨rfl, rfl, rfl⟩ := by simpa [runFor] using h
    rfl
  | succ bound ih =>
    obtain ⟨ready, c₀, hready, ⟨hstopped, rfl, rfl, rfl⟩ |
      ⟨hrunning, count, u, c₁, l, c₂, hu, ht, rfl, rfl⟩⟩ := runFor_succ_eq_ok_iff.mp h
    · exact runFor_succ_of_not_isRunning (drain_bounded m hready) hstopped
    · exact runFor_succ_of_isRunning (drain_bounded m hready) hrunning (step_bounded m hu) (ih ht)

theorem exists_run_bounded {m : UInt64} (h : s.runFor m.toNat = .ok (k, t, c)) :
    ∃ d, (s.bounded m).run = .ok (k, t.bounded m, d) :=
  ⟨_, bind_eq_ok_iff.mpr ⟨_, runFor_bounded m h, rfl⟩⟩

/-- Two runs, one after the other, come to the same end as one run with both bounds together. -/
theorem exists_runs_of_add {m₁ m₂ : UInt64} (hm : m₁.toNat + m₂.toNat < 2 ^ 64)
    (h : s.runFor (m₁.toNat + m₂.toNat) = .ok (k, t, c)) :
    ∃ k₁ u c₁ k₂ v c₂ t' c', (s.bounded m₁).run = .ok (k₁, u, c₁) ∧
      (u.bounded m₂).run = .ok (k₂, v, c₂) ∧
      (s.bounded (m₁ + m₂)).run = .ok (k, t', c') ∧ k₁ + k₂ = k ∧ v.bounded (m₁ + m₂) = t' := by
  obtain ⟨k₁, u, c₁, k₂, c₂, hu, ht, rfl⟩ := exists_runFor_of_add h
  have hsum : (m₁ + m₂).toNat = m₁.toNat + m₂.toNat := by
    rw [UInt64.toNat_add, Nat.mod_eq_of_lt hm]
  rw [← hsum] at h
  obtain ⟨d₁, hfirst⟩ := exists_run_bounded hu
  obtain ⟨d₂, hsecond⟩ := exists_run_bounded ht
  obtain ⟨d, hall⟩ := exists_run_bounded h
  exact ⟨k₁, _, d₁, k₂, _, d₂, _, d, hfirst, hsecond, hall, rfl, rfl⟩

/-! ### Every run -/

/-- A run is as many ticks as there are before nothing moves, as far as its bound allows: it makes
what they make, tells what they tell, reports who has not been reported if nothing moved from the
beginning, and says that it is over. It stops where a further tick would change no world, and it
may be cut in two. Observers send no signal while the run goes on. -/
theorem Reachable.run_iterates_ticks (h : s.Reachable) :
    (s.queue = [] → s.isRunning = false → s.clock.count.toNat + 1 < 2 ^ 64 →
      ∃ t c, s.tick = .ok (0, t, c) ∧ t.world = s.world) ∧
    ∃ ready c₀, s.drain = .ok (ready, c₀) ∧ ready.queue = [] ∧
      (1 ≤ s.config.maxTicks.toNat → ∃ k, ready.IsRunLength s.config.maxTicks.toNat k ∧
        (s.clock.count.toNat + k < 2 ^ 64 → ∃ counts t c d,
          ready.tickMany k = .ok (counts, t, c) ∧
          s.run = .ok (k, { t with unreported := [] }, d) ∧
          d.events = c.events ++ (if ready.isRunning then [] else ready.pendingEvents) ++
            [.runEnd t.clock])) ∧
      ∀ m₁ m₂ : UInt64, m₁.toNat + m₂.toNat < 2 ^ 64 →
        ∃ k, ready.IsRunLength (m₁.toNat + m₂.toNat) k ∧
          (s.clock.count.toNat + k < 2 ^ 64 → ∃ k₁ u c₁ k₂ v c₂ t c,
            (s.bounded m₁).run = .ok (k₁, u, c₁) ∧ (u.bounded m₂).run = .ok (k₂, v, c₂) ∧
            (s.bounded (m₁ + m₂)).run = .ok (k, t, c) ∧ k₁ + k₂ = k ∧
            v.bounded (m₁ + m₂) = t) := by
  obtain ⟨ready, c₀, hready, -, hclock, -, hqueue⟩ := exists_drain h.sound.board
  have hs := (h.isAttained.drain hready).sound
  refine ⟨fun hq hstopped hend => ?_, ready, c₀, hready, hqueue, fun hmax => ?_,
    fun m₁ m₂ hm => ?_⟩
  · obtain ⟨count, t, c, ht⟩ := h.sound.exists_step hend
    obtain ⟨rfl, hworld⟩ := h.sound.world_of_step hstopped ht
    exact ⟨t, c, (tick_of_queue_nil hq).trans ht, hworld⟩
  · obtain ⟨bound, hbound⟩ := Nat.exists_eq_succ_of_ne_zero (Nat.ne_of_gt hmax)
    obtain ⟨k, hk⟩ := ready.exists_isRunLength (bound + 1)
    refine ⟨k, hbound ▸ hk, fun hend => ?_⟩
    rw [← hclock] at hend
    obtain ⟨counts, t, c, d, ht, hrun, hevents⟩ :=
      hs.exists_runFor_of_isRunLength hready hk hend
    rw [← Nat.succ_eq_add_one, ← hbound] at hrun
    refine ⟨counts, t, c, _, ht, bind_eq_ok_iff.mpr ⟨_, hrun, rfl⟩, ?_⟩
    rw [Chronicle.events_append, hevents]
  · obtain ⟨k, hk⟩ := ready.exists_isRunLength (m₁.toNat + m₂.toNat)
    refine ⟨k, hk, fun hend => ?_⟩
    rw [← hclock] at hend
    obtain ⟨t, c, hrun⟩ : ∃ t c, s.runFor (m₁.toNat + m₂.toNat) = .ok (k, t, c) := by
      generalize m₁.toNat + m₂.toNat = bound at hk
      cases bound with
      | zero =>
        obtain rfl := Nat.le_zero.mp hk.le
        exact ⟨s, _, rfl⟩
      | succ bound =>
        obtain ⟨_, t, _, d, -, hrun, -⟩ := hs.exists_runFor_of_isRunLength hready hk hend
        exact ⟨_, d, hrun⟩
    exact exists_runs_of_add hm hrun

/-- In the corridor a run takes three ticks of the hundred that it may take, and so do a run of at
most one tick and another one of at most ninety-nine. -/
theorem run_iterates_ticks_corridor : ∃ s ready : Simulation, s.Reachable ∧
    ready.IsRunLength 100 3 ∧
    (∃ counts t c d, ready.tickMany 3 = .ok (counts, t, c) ∧
      s.run = .ok (3, { t with unreported := [] }, d) ∧
      d.events = c.events ++ (if ready.isRunning then [] else ready.pendingEvents) ++
        [.runEnd t.clock]) ∧
    (∃ k₁ u c₁ k₂ v c₂, (s.bounded 1).run = .ok (k₁, u, c₁) ∧
      (u.bounded 99).run = .ok (k₂, v, c₂) ∧ k₁ + k₂ = 3) ∧
    ∃ t u c d, s.run = .ok (3, t, c) ∧ t.tick = .ok (0, u, d) ∧ u.world = t.world := by
  have hs := reachable_corridor.perform (show Request.start.IsAdmissible from trivial) rfl
  have hran := hs.perform (show Request.run.IsAdmissible from trivial) rfl
  obtain ⟨-, ready, c₀, hready, -, hrun, hparts⟩ := hs.run_iterates_ticks
  obtain ⟨hquiet, -⟩ := hran.run_iterates_ticks
  obtain ⟨k, hk, hticks⟩ := hrun (by decide)
  have hle : k ≤ 100 := hk.le
  obtain ⟨counts, t, c, d, ht, hd, hevents⟩ := hticks (by show 0 + k < 2 ^ 64; omega)
  obtain rfl : k = 3 := Except.ok.inj ((congrArg (Except.map Prod.fst) hd).symm.trans rfl)
  obtain ⟨l, hl, hsplit⟩ := hparts 1 99 (by decide)
  have hle : l ≤ 100 := hl.le
  obtain ⟨k₁, u, c₁, k₂, v, c₂, _, _, hu, hv, hall, hsum, -⟩ :=
    hsplit (by show 0 + l < 2 ^ 64; omega)
  obtain rfl : l = 3 := Except.ok.inj ((congrArg (Except.map Prod.fst) hall).symm.trans rfl)
  obtain ⟨u', d', hu', hworld⟩ := hquiet rfl rfl (by decide)
  exact ⟨_, ready, hs, hk, ⟨counts, t, c, d, ht, hd, hevents⟩, ⟨k₁, u, c₁, k₂, v, c₂, hu, hv, hsum⟩,
    _, u', _, d', rfl, hu', hworld⟩

end Simulation

end TileWalk
