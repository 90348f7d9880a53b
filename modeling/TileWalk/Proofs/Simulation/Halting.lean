import TileWalk.Proofs.Simulation.Endings
import TileWalk.Proofs.Simulation.Pace
import TileWalk.Proofs.Simulation.Runs
import TileWalk.Proofs.Simulation.Separate

/-!
# Acyclic programs stop

An agent that executes an acyclic program executes each node once at most, and each move takes its
ticks once. So after as many ticks as there are nodes and ticks of their moves, and one more, every
agent is at rest (`Paced.at_rest`), and a run that may take so many ticks ends because nothing moves
any more, and not at its bound (`Simulation.Reachable.acyclic_halts`).
-/

namespace TileWalk

open Outcome

/-! ### One agent -/

namespace Paced

variable {p : Program} {g : Grid} {frames now n r' : Nat} {st : Station}
  {log : List (Tick × Dispatch)} {b : Agent}

theorem length_le_size (h : Paced p g frames st now 0 n log b r') (hp : p.IsClosed)
    (hacyclic : p.IsAcyclic) (hst : st.IsOn p g) : log.length ≤ p.size + 1 := by
  have hlength := congrArg List.length h.itinerary
  have hle := Station.length_itinerary_le hp hacyclic hst log.length
  rw [List.length_map] at hlength
  omega

theorem nodup_cursors (h : Paced p g frames st now 0 n log b r') (hacyclic : p.IsAcyclic) :
    (log.map fun e => e.2.cursor).Nodup := by
  have hnodup := Station.nodup_cursors (g := g) hacyclic st log.length
  rw [← h.itinerary, List.map_map] at hnodup
  exact hnodup

/-- Whoever has executed all that there is to execute is at rest. -/
theorem at_rest (h : Paced p g frames st now 0 n log b r') (hp : p.IsClosed)
    (hacyclic : p.IsAcyclic) (hst : st.IsOn p g) (hn : p.size * (frames + 1) + 1 ≤ n) :
    b.phase = .idle := by
  have hlength := h.length_le_size hp hacyclic hst
  have hmoves : movesOf log ≤ p.size := by
    rw [h.movesOf_eq]
    exact Station.moves_le_size hp hacyclic hst log.length
  have hticks := Nat.mul_le_mul_left frames hmoves
  have hrest : r' = 0 ∧ (st.after p g log.length).dispatch? p g = none := by
    rcases h.total with hbusy | ⟨hzero, hlast, -⟩
    · -- every node was executed and every move made, and then control was nowhere
      rw [Nat.mul_succ, Nat.mul_comm p.size frames] at hn
      have hall : log.length = p.size + 1 := by omega
      refine ⟨by omega, ?_⟩
      rw [hall]
      exact Station.dispatch?_after_size hp hacyclic hst
    · exact ⟨hzero, hlast⟩
  obtain ⟨reason, hreason⟩ := Station.dispatch?_eq_none_iff.mp hrest.2
  have hheads := h.heads
  rw [hrest.1] at hheads
  have hfollows := hheads.2.2
  rw [hreason] at hfollows
  exact hfollows.1

end Paced

/-! ### All agents -/

namespace Simulation

variable {s t u : Simulation} {c : Chronicle} {w : World} {counts : List Nat} {i j k n : Nat}

/-- Ticks can be cut in two at any number. -/
theorem exists_tickMany_of_add (h : s.tickMany (j + k) = .ok (counts, t, c)) :
    ∃ counts₁ u c₁ counts₂ c₂, s.tickMany j = .ok (counts₁, u, c₁) ∧
      u.tickMany k = .ok (counts₂, t, c₂) := by
  induction j generalizing s counts c with
  | zero =>
    rw [Nat.zero_add] at h
    exact ⟨_, s, _, counts, c, rfl, h⟩
  | succ j ih =>
    rw [Nat.add_right_comm] at h
    obtain ⟨count, v, c₁, rest, c₂, hv, ht, -, -⟩ := tickMany_succ_eq_ok_iff.mp h
    obtain ⟨counts₁, u, d₁, counts₂, d₂, hu, hrest⟩ := ih ht
    exact ⟨_, u, _, counts₂, d₂, tickMany_succ_eq_ok_iff.mpr ⟨_, _, _, _, _, hv, hu, rfl, rfl⟩,
      hrest⟩

/-- Whoever is idle has stopped for a reason. -/
def IsExplained (s : Simulation) : Prop :=
  ∀ a ∈ s.world.agents, a.phase = .idle → a.finished.isSome = true

theorem isExplained_begun (s : Simulation) (w : World) : (s.begun w).IsExplained := by
  intro a ha hidle
  obtain ⟨fresh, -, rfl⟩ := List.mem_map.mp ha
  unfold Agent.begun at hidle ⊢
  cases hroot : s.program.root with
  | some root =>
    rw [hroot] at hidle
    cases hidle
  | none => rfl

theorem IsExplained.step (h : s.IsExplained) (hs : s.Sound) {count : Nat}
    (ht : s.step = .ok (count, t, c)) : t.IsExplained := by
  intro b hb hidle
  obtain ⟨a, ha, hlives⟩ := exists_mem_of_forall₂ (forall₂_lives_of_step hs.coherent ht) hb
  by_cases hbefore : a.phase = .idle
  · rw [hlives.of_idle hbefore]
    exact h a ha hbefore
  · obtain ⟨reason, hreason⟩ := hlives.exists_finished hbefore hidle
    simp [hreason]

theorem IsExplained.tickMany (h : s.IsExplained) (hs : s.Sound) (hq : s.queue = [])
    (ht : s.tickMany n = .ok (counts, t, c)) : t.IsExplained := by
  induction n generalizing s counts c with
  | zero =>
    obtain ⟨-, rfl, -⟩ := by simpa [Simulation.tickMany] using ht
    exact h
  | succ n ih =>
    obtain ⟨count, u, c₁, rest, c₂, hu, ht, -, -⟩ := tickMany_succ_eq_ok_iff.mp ht
    rw [tick_of_queue_nil hq] at hu
    have hqueue := (frame_of_step hu).2.2.2.1
    exact ih (h.step hs hu) (hs.step hu) (hqueue.trans hq) ht

/-- After as many ticks as there are nodes and ticks of their moves, and one more, nothing moves. -/
theorem Sound.isRunning_eq_false_of_begun (hs : s.Sound) (hq : s.queue = [])
    (hacyclic : s.program.IsAcyclic) (hframes : 1 ≤ s.config.moveFrames.toNat)
    (hw : World.ofBoard s.board = .ok w)
    (hn : s.program.size * (s.config.moveFrames.toNat + 1) + 1 ≤ n)
    (hend : s.clock.count.toNat + n < 2 ^ 64)
    (ht : (s.begun w).tickMany n = .ok (counts, t, c)) : t.isRunning = false := by
  have hbegun := Sound.of_begun hs.board hs.program hw
  have hlives := forall₂_liveFor hbegun.coherent hq ht
  unfold isRunning World.isRunning
  rw [List.any_eq_false]
  intro b hb
  obtain ⟨i, hi⟩ := List.mem_iff_getElem?.mp hb
  obtain ⟨a', ha', -⟩ := exists_getElem?_of_forall₂ hlives.flip hi
  have hfresh : (w.agents.map (Agent.begun s.program))[i]? = some a' := ha'
  rw [List.getElem?_map] at hfresh
  obtain ⟨a, -, rfl⟩ := Option.map_eq_some_iff.mp hfresh
  obtain ⟨log, counts', t', c', b', r', -, ht', hb', hpaced⟩ :=
    hbegun.exists_paced (n := n) hq hframes hend ha' (a.heads_begun s.program)
  obtain ⟨-, rfl, -⟩ := by simpa using ht.symm.trans ht'
  obtain rfl := Option.some.inj (hi.symm.trans hb')
  have hon := (hbegun.agents _ (List.mem_of_getElem? ha')).isOn (a.heads_begun s.program)
  have hidle := hpaced.at_rest hs.program hacyclic hon hn
  simp [Agent.isIdle, hidle]

/-- A run that may take enough ticks ends when nothing moves. -/
theorem Sound.exists_run_of_stopsAfter (hs : s.Sound) (hq : s.queue = [])
    (hn : 1 ≤ n) (hmax : n ≤ s.config.maxTicks.toNat)
    (hend : s.clock.count.toNat + n < 2 ^ 64) (hstops : s.StopsAfter n) :
    ∃ k counts t c d, s.tickMany k = .ok (counts, t, c) ∧
      s.run = .ok (k, { t with unreported := [] }, d) ∧ k ≤ n ∧ t.isRunning = false := by
  obtain ⟨max, hmaxeq⟩ := Nat.exists_eq_add_one_of_ne_zero (n := s.config.maxTicks.toNat) (by omega)
  obtain ⟨k, hk⟩ := s.exists_isRunLength (max + 1)
  have hle : k ≤ n := by
    by_contra hlt
    exact hk.least n (by omega) hstops
  have hstopped : s.StopsAfter k := by
    by_cases hlt : k < max + 1
    · exact hk.stops hlt
    · have heq : k = n := by omega
      rwa [heq]
  obtain ⟨counts, t, c, d, ht, hrun, -⟩ :=
    hs.exists_runFor_of_isRunLength (drain_of_queue_nil hq) hk (by omega)
  obtain ⟨counts', t', c', ht', hidle⟩ := hstopped
  obtain ⟨-, rfl, -⟩ := by simpa using ht.symm.trans ht'
  rw [← hmaxeq] at hrun
  exact ⟨k, counts, t, c, _, ht, bind_eq_ok_iff.mpr ⟨_, hrun, rfl⟩, hle, hidle⟩

/-- Acyclic programs stop. If control cannot come back to a node that it has left, which is so for
every program that was loaded and calls nothing, then after a start an agent executes each node at
most once and has at most one dispatch more than there are nodes, the one at which control is
nowhere. So a run that begins then, or some ticks later, and may take as many ticks as there are
nodes and ticks of their moves, and one more, ends because nothing moves, and all agents have
stopped for a reason. -/
theorem Reachable.acyclic_halts (h : s.Reachable) (hq : s.queue = [])
    (hacyclic : s.program.IsAcyclic ∨ ∃ payload, Program.ofPayload payload = .ok s.program ∧
      ∀ n ∈ s.program.nodes.toList, n.kind ≠ .tail)
    (hframes : 1 ≤ s.config.moveFrames.toNat) : ∃ s₁ c₁, s.start = .ok (s₁, c₁) ∧
      (∀ i n, i < s.board.spawns.length → s.clock.count.toNat + n < 2 ^ 64 →
        ∃ log, s₁.dispatchLog i n = .ok log ∧ (log.map fun e => e.2.cursor).Nodup ∧
          log.length ≤ s.program.size + 1) ∧
      ∀ j bound, bound = s.program.size * (s.config.moveFrames.toNat + 1) + 1 →
        bound ≤ s.config.maxTicks.toNat → s.clock.count.toNat + j + bound < 2 ^ 64 →
          ∃ counts u c k t d, s₁.tickMany j = .ok (counts, u, c) ∧ u.run = .ok (k, t, d) ∧
            k ≤ bound ∧ t.isRunning = false ∧ ∀ a ∈ t.world.agents, a.finished.isSome = true := by
  have hs := h.sound
  have hacyclic : s.program.IsAcyclic := by
    rcases hacyclic with hgraph | ⟨payload, hpayload, hcalls⟩
    · exact hgraph
    · exact Program.isAcyclic_of_ofPayload hpayload hcalls
  obtain ⟨w, hw⟩ := World.exists_ofBoard hs.board
  obtain ⟨c₁, hstart⟩ := exists_start_iff.mpr ⟨w, hw, rfl⟩
  have hbegun := Sound.of_begun hs.board hs.program hw
  refine ⟨_, c₁, hstart, ?_, ?_⟩
  · intro i n hi hend
    obtain ⟨a, ha, hon⟩ := hs.exists_outset hw hi
    obtain ⟨s₁, c₁', log, counts, t, c, b, r, hstart', hlog, ht, hb, hpaced⟩ :=
      hs.exists_paced_of_start hq hframes hend hw ha
    obtain ⟨rfl, -⟩ := by simpa using hstart.symm.trans hstart'
    exact ⟨log, hlog, hpaced.nodup_cursors hacyclic, hpaced.length_le_size hs.program hacyclic hon⟩
  · intro j bound hbound hmax hend
    obtain ⟨counts, t, c, ht⟩ := hbegun.exists_tickMany (k := j + bound) hq (by
      show s.clock.count.toNat + (j + bound) < 2 ^ 64
      omega)
    have hidle := hs.isRunning_eq_false_of_begun hq hacyclic hframes hw (by omega) (by omega) ht
    obtain ⟨counts₁, u, d₁, counts₂, d₂, hu, hrest⟩ := exists_tickMany_of_add ht
    obtain ⟨hconfig, -, -, hqueue, hclock⟩ := frame_of_tickMany (s := s.begun w) hq hu
    have hconfig : u.config = s.config := hconfig
    have hclock : u.clock.count.toNat = s.clock.count.toNat + j := hclock
    have husound := hbegun.tickMany hq hu
    have huexplained := (isExplained_begun s w).tickMany hbegun hq hu
    obtain ⟨k, counts₃, v, d₃, d, hv, hrun, hle, hstopped⟩ :=
      husound.exists_run_of_stopsAfter (n := bound) hqueue (by omega) (by rwa [hconfig]) (by omega)
        ⟨_, _, _, hrest, hidle⟩
    refine ⟨counts₁, u, d₁, k, _, d, hu, hrun, hle, hstopped, ?_⟩
    intro a ha
    have hexplained := huexplained.tickMany husound hqueue hv
    have hphase : a.phase = .idle := by
      have hany := List.any_eq_false.mp hstopped a ha
      simpa [Agent.isIdle] using hany
    exact hexplained a ha hphase

/-- In the corridor control goes from the first node to the second one and not back. -/
theorem acyclic_halts_corridor : ∃ s₁ c₁, corridor.start = .ok (s₁, c₁) ∧
    (∃ log, s₁.dispatchLog 0 9 = .ok log ∧ (log.map fun e => e.2.cursor).Nodup ∧
      log.length ≤ 3) ∧
    ∃ k t d, s₁.run = .ok (k, t, d) ∧ k ≤ 5 ∧ t.isRunning = false ∧
      ∀ a ∈ t.world.agents, a.finished.isSome = true := by
  have hacyclic : corridor.program.IsAcyclic := by
    apply Program.isAcyclic_of_links
    intro k n hn
    match k with
    | 0 =>
      obtain rfl := Option.some.inj hn
      refine ⟨by decide, ?_⟩
      intro j hj
      cases hj with
      | inl hright => cases hright
      | inr hbottom =>
        obtain rfl := Option.some.inj hbottom
        decide
    | 1 =>
      obtain rfl := Option.some.inj hn
      refine ⟨by decide, ?_⟩
      intro j hj
      cases hj with
      | inl hright => cases hright
      | inr hbottom => cases hbottom
    | k + 2 => cases hn
  obtain ⟨s₁, c₁, hstart, hlog, hrun⟩ :=
    reachable_corridor.acyclic_halts rfl (Or.inl hacyclic) (by decide)
  obtain ⟨counts, u, c, k, t, d, hu, hran, hle, hstopped, hfinished⟩ :=
    hrun 0 5 rfl (by decide) (by decide)
  obtain ⟨-, rfl, -⟩ := by simpa [tickMany] using hu
  exact ⟨s₁, c₁, hstart, hlog 0 9 (by decide) (by decide), k, t, d, hran, hle, hstopped, hfinished⟩

end Simulation

end TileWalk
