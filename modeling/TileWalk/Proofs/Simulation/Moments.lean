import TileWalk.Proofs.Simulation.Pending
import TileWalk.Proofs.Simulation.Stream

/-!
# What a request tells

Whatever a host asks for, observers are told of it moment by moment (`Simulation.moments`): of each
tick that is processed, of those who are left to be reported when a run stops because nothing moves,
and of the end of a run. What they are told of a tick is what `Simulation.stream` lists, so all that
they are told of a request can be read off its moments (`Simulation.IsAttained.tells_perform`).
-/

namespace TileWalk

open Outcome

/-! ### Moments -/

/-- A stretch of what observers are told. -/
inductive Moment
  /-- A tick begins at `ready`, where no signal waits, and leads to `next`. -/
  | tick (ready next : Simulation)
  /-- A run finds that nothing moves. -/
  | settle (ready : Simulation)
  /-- A run is over. -/
  | runEnd (final : Simulation)

namespace Moment

/-- What observers are told. -/
def events : Moment → List Event
  | .tick ready next => ready.stream next.world
  | .settle ready => ready.unreported.map (.agentFinished ready.clock · .endOfProgram)
  | .runEnd final => [.runEnd final.clock]

/-- The number of the tick. -/
def clock? : Moment → Option Tick
  | .tick ready _ => some ready.clock
  | _ => none

/-- The simulations of the moment come about in small steps, and a tick leads from one to the other.
-/
def IsAttained : Moment → Prop
  | .tick ready next => ready.IsAttained ∧ ∃ count c, ready.step = .ok (count, next, c)
  | .settle ready => ready.IsAttained
  | .runEnd _ => True

theorem filterMap_begun?_events (m : Moment) :
    m.events.filterMap Event.begun? = m.clock?.toList := by
  cases m with
  | tick ready next => exact Simulation.filterMap_begun?_stream ready next.world
  | settle ready => exact Simulation.filterMap_begun?_map_agentFinished ready.clock ready.unreported
  | runEnd final => rfl

end Moment

namespace Simulation

/-- The moments of `n` ticks. -/
def momentsMany (s : Simulation) : (n : Nat) → List Moment
  | 0 => []
  | n + 1 =>
    match s.drain with
    | .error _ => []
    | .ok (ready, _) =>
      match ready.step with
      | .error _ => []
      | .ok (_, next, _) => .tick ready next :: next.momentsMany n

/-- The moments of a run that may take `bound` ticks, without its end. -/
def momentsFor (s : Simulation) : (bound : Nat) → List Moment
  | 0 => []
  | bound + 1 =>
    match s.drain with
    | .error _ => []
    | .ok (ready, _) =>
      if ready.isRunning then
        match ready.step with
        | .error _ => []
        | .ok (_, next, _) => .tick ready next :: next.momentsFor bound
      else [.settle ready]

/-- The moments of a request. -/
def moments (s : Simulation) : Request → List Moment
  | .tick => s.momentsMany 1
  | .tickMany n => s.momentsMany n
  | .run =>
    match s.run with
    | .error _ => []
    | .ok (_, final, _) => s.momentsFor s.config.maxTicks.toNat ++ [.runEnd final]
  | _ => []

/-- The moments of one request after another. -/
def momentsAll (s : Simulation) : List Request → List Moment
  | [] => []
  | request :: requests =>
    match s.perform request with
    | .error _ => []
    | .ok (t, _) => s.moments request ++ t.momentsAll requests

/-! ### What is told of a request -/

/-- What was told is what the moments tell, and the moments come about in small steps. -/
structure Tells (c : Chronicle) (moments : List Moment) : Prop where
  events : c.events = moments.flatMap Moment.events
  attained : ∀ m ∈ moments, m.IsAttained

namespace Tells

variable {c d : Chronicle} {first rest : List Moment}

theorem of_silent (h : c.events = []) : Tells c [] where
  events := h
  attained := fun _ hm => (nomatch hm)

theorem append (h : Tells c first) (h' : Tells d rest) : Tells (c ++ d) (first ++ rest) where
  events := by rw [Chronicle.events_append, h.events, h'.events, List.flatMap_append]
  attained m hm := by
    cases List.mem_append.mp hm with
    | inl hm => exact h.attained m hm
    | inr hm => exact h'.attained m hm

/-- Signals that are carried out before a moment tell nothing. -/
theorem of_drain {s t : Simulation} (ht : s.drain = .ok (t, c)) (h : Tells d rest) :
    Tells (c ++ d) rest where
  events := by rw [Chronicle.events_append, events_of_carryOutAll ht, List.nil_append, h.events]
  attained := h.attained

end Tells

namespace IsAttained

variable {s t next : Simulation} {c : Chronicle} {n count : Nat} {request : Request}
  {requests : List Request}

theorem tells_step (h : s.IsAttained) (ht : s.step = .ok (count, next, c)) :
    Tells c [.tick s next] where
  events := by
    rw [List.flatMap_singleton]
    exact h.events_of_step ht
  attained m hm := by
    obtain rfl := List.mem_singleton.mp hm
    exact ⟨h, count, c, ht⟩

theorem tells_settle (h : s.IsAttained) : Tells (.ofEvents s.pendingEvents) [.settle s] where
  events := by
    rw [List.flatMap_singleton]
    exact h.pendingEvents_eq_map
  attained m hm := by
    obtain rfl := List.mem_singleton.mp hm
    exact h

theorem tells_tickMany (h : s.IsAttained) {counts : List Nat}
    (ht : s.tickMany n = .ok (counts, t, c)) : Tells c (s.momentsMany n) := by
  induction n generalizing s counts c with
  | zero =>
    obtain ⟨-, -, rfl⟩ := by simpa [tickMany] using ht
    exact .of_silent rfl
  | succ n ih =>
    obtain ⟨count, u, c₁, rest, c₂, hu, hrest, -, rfl⟩ := tickMany_succ_eq_ok_iff.mp ht
    obtain ⟨⟨ready, c₀⟩, hready, htick⟩ := bind_eq_ok_iff.mp hu
    obtain ⟨⟨k, v, d⟩, hstep, hpure⟩ := bind_eq_ok_iff.mp htick
    obtain ⟨rfl, rfl, rfl⟩ := by simpa using pure_eq_ok_iff.mp hpure
    have hattained := h.drain hready
    have hmoments : s.momentsMany (n + 1) = .tick ready v :: v.momentsMany n := by
      rw [momentsMany, hready]
      dsimp only
      rw [hstep]
    rw [hmoments]
    exact (Tells.of_drain hready (hattained.tells_step hstep)).append
      (ih (hattained.step hstep) hrest)

theorem tells_runFor (h : s.IsAttained) {ticks : Nat} (ht : s.runFor n = .ok (ticks, t, c)) :
    Tells c (s.momentsFor n) := by
  induction n generalizing s ticks c with
  | zero =>
    obtain ⟨-, -, rfl⟩ := by simpa [runFor] using ht
    exact .of_silent rfl
  | succ n ih =>
    obtain ⟨ready, c₀, hready, hround⟩ := runFor_succ_eq_ok_iff.mp ht
    have hattained := h.drain hready
    rw [momentsFor, hready]
    dsimp only
    obtain ⟨hidle, -, -, rfl⟩ | ⟨hrunning, count, u, c₁, l, c₂, hu, hrest, -, rfl⟩ := hround
    · rw [hidle]
      exact .of_drain hready hattained.tells_settle
    · rw [if_pos hrunning, hu]
      exact .of_drain hready
        ((hattained.tells_step hu).append (ih (hattained.step hu) hrest))

/-- What observers are told of a request is what its moments tell. -/
theorem tells_perform (h : s.IsAttained) (ht : s.perform request = .ok (t, c)) :
    Tells c (s.moments request) := by
  cases hprocesses : request.processes with
  | false =>
    have hmoments : s.moments request = [] := by
      cases request <;> first | rfl | cases hprocesses
    rw [hmoments]
    exact .of_silent (silent_of_perform hprocesses ht).2
  | true =>
    cases request with
    | tick =>
      obtain ⟨⟨count, u, d⟩, hu, hsame⟩ := map_eq_ok_iff.mp ht
      obtain ⟨rfl, rfl⟩ := Prod.mk.inj hsame
      have hone : s.tickMany 1 = .ok ([count], u, d ++ .empty) :=
        tickMany_succ_eq_ok_iff.mpr ⟨count, u, d, [], .empty, hu, rfl, rfl, rfl⟩
      obtain ⟨hevents, hattained⟩ := h.tells_tickMany hone
      refine ⟨?_, hattained⟩
      rw [moments, ← hevents, Chronicle.events_append]
      exact (List.append_nil _).symm
    | run =>
      obtain ⟨⟨ticks, u, d⟩, hu, hsame⟩ := map_eq_ok_iff.mp ht
      obtain ⟨rfl, rfl⟩ := Prod.mk.inj hsame
      obtain ⟨e, he, rfl⟩ := run_eq_ok_iff.mp hu
      rw [moments, hu]
      refine (h.tells_runFor he).append ⟨rfl, fun m hm => ?_⟩
      obtain rfl := List.mem_singleton.mp hm
      trivial
    | tickMany n =>
      obtain ⟨⟨counts, u, d⟩, hu, hsame⟩ := map_eq_ok_iff.mp ht
      obtain ⟨rfl, rfl⟩ := Prod.mk.inj hsame
      exact h.tells_tickMany hu
    | _ => cases hprocesses

theorem tells_performAll (h : s.IsAttained)
    (hrequests : ∀ request ∈ requests, request.IsAdmissible)
    (ht : s.performAll requests = .ok (t, c)) : Tells c (s.momentsAll requests) := by
  induction requests generalizing s c with
  | nil =>
    obtain ⟨-, rfl⟩ := Prod.mk.inj (Except.ok.inj ht)
    exact .of_silent rfl
  | cons request requests ih =>
    obtain ⟨⟨u, c₁⟩, hu, hrest⟩ := bind_eq_ok_iff.mp ht
    obtain ⟨⟨t', c₂⟩, ht', hpure⟩ := bind_eq_ok_iff.mp hrest
    obtain ⟨rfl, rfl⟩ := Prod.mk.inj (pure_eq_ok_iff.mp hpure)
    rw [momentsAll, hu]
    exact (h.tells_perform hu).append (ih (h.perform (hrequests request List.mem_cons_self) hu)
      (fun request hmem => hrequests request (List.mem_cons_of_mem _ hmem)) ht')

/-- The moments of requests contain every tick that the clock counts, one after the other. -/
theorem map_clock_momentsAll (h : s.IsAttained)
    (hrequests : ∀ request ∈ requests, request.IsAdmissible)
    (hend : s.clock.count.toNat + s.ticksOfAll requests < 2 ^ 64) :
    ((s.momentsAll requests).filterMap Moment.clock?).map (fun tick => tick.count.toNat) =
      List.range' s.clock.count.toNat (s.ticksOfAll requests) := by
  obtain ⟨t, c, ht, -, hlast⟩ := h.exists_performAll hrequests hend
  obtain ⟨k, hcounts⟩ := h.counts_performAll hrequests ht
  obtain rfl : k = s.ticksOfAll requests := Nat.add_left_cancel (hcounts.clock.symm.trans hlast)
  rw [← hcounts.begun, (h.tells_performAll hrequests ht).events, List.filterMap_flatMap]
  simp only [Moment.filterMap_begun?_events]
  rw [List.filterMap_eq_flatMap_toList]

end IsAttained

end Simulation

end TileWalk
