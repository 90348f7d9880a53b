import TileWalk.Proofs.Simulation.Pointwise
import TileWalk.Proofs.Simulation.Renewal
import TileWalk.Proofs.Simulation.Request

/-!
# Small steps

Whatever a host asks of a simulation is done in steps of a few kinds: a world is made anew, the
waiting signals or the settings are exchanged, one tick is processed, observers are told. Every
record that is reachable by requests is attained by such steps (`Record.Reachable.attained`), so
what they keep is kept by all requests.
-/

namespace TileWalk

open Outcome

namespace Record

/-- Records that come about in small steps. -/
inductive Attained : Record → Prop
  | build {rows : List (List UInt32)} {board : Board} {config : Config} {program : Program}
      {s : Simulation} {c : Chronicle} (hboard : Board.ofRows rows = .ok board)
      (hcells : board.grid.cells.size < 2 ^ 31) (hprogram : program.IsObtainable)
      (hbuild : Simulation.build board config program = .ok (.ok (s, c))) : Attained (new s)
  | start {r : Record} {s : Simulation} {c : Chronicle} (hr : Attained r)
      (hs : r.sim.start = .ok (s, c)) : Attained (new s)
  | reset {r : Record} {s : Simulation} {c : Chronicle} (hr : Attained r)
      (hs : r.sim.reset = .ok (s, c)) : Attained (new s)
  | load {r : Record} {program : Program} {s : Simulation} {c : Chronicle} (hr : Attained r)
      (hprogram : program.IsObtainable) (hs : r.sim.load program = .ok (s, c)) : Attained (new s)
  /-- Other signals wait. -/
  | exchange {r : Record} (hr : Attained r) (queue : List Signal)
      (hqueue : ∀ signal ∈ queue, signal.IsAdmissible) :
      Attained { r with sim := { r.sim with queue } }
  | configure {r : Record} (hr : Attained r) (config : Config) :
      Attained { r with sim := { r.sim with config } }
  | step {r t : Record} (hr : Attained r) (ht : r.step = .ok t) : Attained t
  | settle {r : Record} (hr : Attained r) : Attained r.settle
  | endRun {r : Record} (hr : Attained r) : Attained r.endRun

variable {r t : Record} {s : Simulation} {c : Chronicle}

theorem step_eq_ok_iff : r.step = .ok t ↔ ∃ count s c, r.sim.step = .ok (count, s, c) ∧
    t = ⟨s, r.landings ++ r.sim.landings, r.events ++ c.events⟩ := by
  unfold step
  rw [bind_eq_ok_iff]
  constructor
  · rintro ⟨⟨count, s, c⟩, hs, hpure⟩
    exact ⟨count, s, c, hs, (pure_eq_ok_iff.mp hpure).symm⟩
  · rintro ⟨count, s, c, hs, rfl⟩
    exact ⟨_, hs, rfl⟩

namespace Attained

theorem isAdmissible_of_mem_queue (h : Attained r) {signal : Signal}
    (hsignal : signal ∈ r.sim.queue) : signal.IsAdmissible := by
  induction h with
  | build hboard hcells hprogram hbuild =>
    obtain ⟨-, w, -, rfl⟩ := Simulation.exists_build_iff.mp ⟨_, hbuild⟩
    exact absurd hsignal List.not_mem_nil
  | start hr hs ih =>
    obtain ⟨w, -, rfl⟩ := Simulation.exists_start_iff.mp ⟨_, hs⟩
    exact ih hsignal
  | reset hr hs ih =>
    obtain ⟨w, -, rfl⟩ := Simulation.exists_reset_iff.mp ⟨_, hs⟩
    exact ih hsignal
  | load hr hprogram hs ih =>
    obtain ⟨w, -, rfl⟩ := Simulation.exists_load_iff.mp ⟨_, hs⟩
    exact ih hsignal
  | exchange hr queue hqueue => exact hqueue signal hsignal
  | configure hr config ih => exact ih hsignal
  | step hr ht ih =>
    obtain ⟨_, _, _, hs, rfl⟩ := step_eq_ok_iff.mp ht
    obtain ⟨_, _, _, _, _, _, -, -, -, rfl, -⟩ := Simulation.step_eq_ok_iff.mp hs
    exact ih hsignal
  | settle hr ih => exact ih hsignal
  | endRun hr ih => exact ih hsignal

theorem carryOut (h : Attained r) {signal : Signal} (hsignal : signal.IsAdmissible)
    (hs : r.sim.carryOut signal = .ok (s, c)) : Attained (new s) := by
  cases signal with
  | load program => exact h.load hsignal hs
  | start => exact h.start hs
  | reset => exact h.reset hs

/-- Every signal makes the world anew. -/
theorem carryOutAll (h : Attained r) {signals : List Signal} (hne : signals ≠ [])
    (hsignals : ∀ signal ∈ signals, signal.IsAdmissible)
    (hs : r.sim.carryOutAll signals = .ok (s, c)) : Attained (new s) := by
  induction signals generalizing r c with
  | nil => exact absurd rfl hne
  | cons signal signals ih =>
    rw [Simulation.carryOutAll, bind_eq_ok_iff] at hs
    obtain ⟨⟨s₁, c₁⟩, hfirst, hs⟩ := hs
    obtain ⟨⟨s₂, c₂⟩, hrest, hpure⟩ := bind_eq_ok_iff.mp hs
    obtain ⟨rfl, -⟩ := Prod.mk.inj (pure_eq_ok_iff.mp hpure)
    have hone := h.carryOut (hsignals signal List.mem_cons_self) hfirst
    -- the world is that of the last signal
    by_cases hrest' : signals = []
    · subst hrest'
      obtain ⟨rfl, -⟩ := Prod.mk.inj (Except.ok.inj hrest)
      exact hone
    · exact ih hone hrest' (fun signal hmem => hsignals signal (List.mem_cons_of_mem _ hmem)) hrest

theorem drain (h : Attained r) (ht : r.drain = .ok t) : Attained t := by
  have hcleared := h.exchange [] fun _ hmem => absurd hmem List.not_mem_nil
  unfold Record.drain Simulation.drain at ht
  obtain ⟨⟨s, c⟩, hs, hpure⟩ := bind_eq_ok_iff.mp ht
  obtain rfl := pure_eq_ok_iff.mp hpure
  by_cases hq : r.sim.queue = []
  · rw [hq] at hs
    obtain ⟨rfl, -⟩ := Prod.mk.inj (Except.ok.inj hs)
    rw [hq]
    exact hcleared
  · have he : r.sim.queue.isEmpty = false := by simpa using hq
    rw [he]
    exact hcleared.carryOutAll hq (fun _ hmem => h.isAdmissible_of_mem_queue hmem) hs

theorem tick (h : Attained r) (ht : r.tick = .ok t) : Attained t := by
  obtain ⟨q, hq, hstep⟩ := bind_eq_ok_iff.mp ht
  exact (h.drain hq).step hstep

theorem tickMany (h : Attained r) {n : Nat} (ht : r.tickMany n = .ok t) : Attained t := by
  induction n generalizing r with
  | zero =>
    obtain rfl := Except.ok.inj ht
    exact h
  | succ n ih =>
    obtain ⟨q, hq, hrest⟩ := bind_eq_ok_iff.mp ht
    exact ih (h.tick hq) hrest

theorem runFor (h : Attained r) {bound : Nat} (ht : r.runFor bound = .ok t) : Attained t := by
  induction bound generalizing r with
  | zero =>
    obtain rfl := Except.ok.inj ht
    exact h
  | succ bound ih =>
    obtain ⟨q, hq, hround⟩ := bind_eq_ok_iff.mp ht
    have hdrained := h.drain hq
    split_ifs at hround
    · obtain ⟨q', hstep, hrest⟩ := bind_eq_ok_iff.mp hround
      exact ih (hdrained.step hstep) hrest
    · obtain rfl := pure_eq_ok_iff.mp hround
      exact hdrained.settle

theorem perform (h : Attained r) {request : Request} (hrequest : request.IsAdmissible)
    (ht : r.perform request = .ok t) : Attained t := by
  cases request with
  | start =>
    obtain ⟨⟨s, c⟩, hs, rfl⟩ := map_eq_ok_iff.mp ht
    exact h.start hs
  | reset =>
    obtain ⟨⟨s, c⟩, hs, rfl⟩ := map_eq_ok_iff.mp ht
    exact h.reset hs
  | load program =>
    obtain ⟨⟨s, c⟩, hs, rfl⟩ := map_eq_ok_iff.mp ht
    exact h.load hrequest hs
  | deliver payload =>
    unfold Record.perform Simulation.deliver at ht
    dsimp only at ht
    cases hprogram : Program.ofPayload payload with
    | error e =>
      rw [hprogram] at ht
      obtain rfl := Except.ok.inj ht
      exact h
    | ok program =>
      rw [hprogram] at ht
      obtain ⟨⟨s, c⟩, hdelivered, rfl⟩ := map_eq_ok_iff.mp ht
      obtain ⟨⟨s₁, c₁⟩, hload, hdelivered⟩ := bind_eq_ok_iff.mp hdelivered
      obtain ⟨⟨s₂, c₂⟩, hstart, hpure⟩ := bind_eq_ok_iff.mp hdelivered
      obtain ⟨rfl, -⟩ := Prod.mk.inj (pure_eq_ok_iff.mp hpure)
      have hloaded := h.load (.loaded payload hprogram) hload
      exact hloaded.start hstart
  | signal sent =>
    obtain rfl := Except.ok.inj ht
    refine h.exchange (r.sim.queue ++ [sent]) fun signal hmem => ?_
    rcases List.mem_append.mp hmem with hold | hnew
    · exact h.isAdmissible_of_mem_queue hold
    · obtain rfl := List.mem_singleton.mp hnew
      exact hrequest
  | tick => exact h.tick ht
  | run =>
    obtain ⟨q, hq, rfl⟩ := map_eq_ok_iff.mp ht
    exact (h.runFor hq).endRun
  | tickMany n => exact h.tickMany ht
  | configure config =>
    obtain rfl := Except.ok.inj ht
    exact h.configure config

end Attained

/-- Requests are carried out in small steps. -/
theorem Reachable.attained (h : r.Reachable) : r.Attained := by
  induction h with
  | build hboard hcells hprogram hbuild => exact .build hboard hcells hprogram hbuild
  | perform hr hrequest hperform ih => exact ih.perform hrequest hperform

end Record

/-! ### Simulations between two ticks -/

namespace Simulation

variable {s t : Simulation} {c : Chronicle}

/-- A simulation that comes about in small steps, between two requests or in the middle of one. -/
def IsAttained (s : Simulation) : Prop :=
  ∃ r : Record, r.Attained ∧ r.sim = s

theorem Reachable.isAttained (h : s.Reachable) : s.IsAttained := by
  obtain ⟨r, hr, hsim⟩ := h.exists_record
  exact ⟨r, hr.attained, hsim⟩

namespace IsAttained

theorem drain (h : s.IsAttained) (ht : s.drain = .ok (t, c)) : t.IsAttained := by
  obtain ⟨r, hr, rfl⟩ := h
  rcases r.matches_drain.fault_or_ok with ⟨fault, -, hfault⟩ | ⟨q, d, hq, hd, -⟩
  · rw [ht] at hfault
    cases hfault
  · rw [ht] at hd
    cases hd
    exact ⟨q, hr.drain hq, rfl⟩

theorem step (h : s.IsAttained) {count : Nat} (ht : s.step = .ok (count, t, c)) :
    t.IsAttained := by
  obtain ⟨r, hr, rfl⟩ := h
  exact ⟨_, hr.step (Record.step_eq_ok_iff.mpr ⟨count, t, c, ht, rfl⟩), rfl⟩

theorem perform (h : s.IsAttained) {request : Request} (hrequest : request.IsAdmissible)
    (ht : s.perform request = .ok (t, c)) : t.IsAttained := by
  obtain ⟨r, hr, rfl⟩ := h
  rcases (r.matches_perform request).fault_or_ok with ⟨fault, -, hfault⟩ | ⟨q, d, hq, hd, -⟩
  · rw [ht] at hfault
    cases hfault
  · rw [ht] at hd
    cases hd
    exact ⟨q, hr.perform hrequest hq, rfl⟩

end IsAttained

/-- A tick that is asked of `s` begins at `t`: the waiting signals have just been carried out, or it
follows another tick of the same request. -/
inductive TicksAt (s : Simulation) : Simulation → Prop
  | first {t : Simulation} {c : Chronicle} (ht : s.drain = .ok (t, c)) : TicksAt s t
  | next {t u v : Simulation} {count : Nat} {c d : Chronicle} (ht : TicksAt s t)
      (hu : t.step = .ok (count, u, c)) (hv : u.drain = .ok (v, d)) : TicksAt s v

theorem TicksAt.isAttained (h : s.TicksAt t) (hs : s.IsAttained) : t.IsAttained := by
  induction h with
  | first ht => exact hs.drain ht
  | next _ hu hv ih => exact (ih.step hu).drain hv

end Simulation

end TileWalk
