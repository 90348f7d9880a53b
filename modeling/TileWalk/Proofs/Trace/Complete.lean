import Mathlib.Data.List.ReduceOption
import TileWalk.Proofs.Simulation.Moments
import TileWalk.Proofs.Trace.Calls

/-!
# Traces are complete

While a simulation is traced a host asks it for one thing after another, and now and then brings the
trace to its place or asks which failure came first (`Trace.Session.performAll`). What the writer is
called for can be read off the simulation alone (`Simulation.script`), so it does not depend on
which calls fail, and the simulation is the one that it would be if nobody traced it. Whoever asks
for a failure is told of the first one since somebody asked last
(`Simulation.Reachable.trace_complete`).
-/

namespace TileWalk

open Outcome

/-! ### What has to be written -/

/-- What a state says of an agent. -/
def Trace.SnapshotRow.at (tick : Tick) (a : Agent) : Trace.SnapshotRow where
  agentId := a.id.val
  tick := tick.count
  x := a.pos.x
  y := a.pos.y
  facing := a.facing.value
  phase := a.phase.label
  remainFrames := a.remainFrames
  fx := (a.gridPosition.toOption.getD (0, 0)).1
  fy := (a.gridPosition.toOption.getD (0, 0)).2
  front := a.openings.front
  left := a.openings.left
  right := a.openings.right
  back := a.openings.back

/-- What has to be written of an item that is collected, and of an agent that stops. -/
def Event.row? : Event → Option Trace.EventRow
  | .itemCollected tick agent item =>
    some ⟨tick.count, agent.val, "item_collected", toString item.index⟩
  | .agentFinished tick agent reason => some ⟨tick.count, agent.val, "finished", reason.text⟩
  | _ => none

/-- The calls of a moment: in a tick, a row for each item that is collected and for each agent that
stops, and then the states of all agents after the tick, if the world is shown in this tick and
there are agents; one call at the end of a run. -/
def Moment.calls : Moment → List Trace.Call
  | .tick ready next =>
    ((ready.stream next.world).filterMap Event.row?).map .event ++
      if (0 < ready.config.snapshotInterval.toNat ∧
          ready.config.snapshotInterval.toNat ∣ ready.clock.count.toNat) ∧
          ready.board.spawns ≠ [] then
        [.snapshots (next.world.agents.map (Trace.SnapshotRow.at ready.clock))]
      else []
  | .settle ready =>
    ready.unreported.map fun id =>
      .event ⟨ready.clock.count, id.val, "finished", Ending.endOfProgram.text⟩
  | .runEnd _ => [.finish]

namespace Trace

/-- What a host does with a simulation that is traced. -/
inductive Operation
  /-- Asks the simulation for something. -/
  | request (request : Request)
  /-- Brings the trace to its place. -/
  | finish
  /-- Asks for the first failure. -/
  | takeError

/-- What is asked of the simulation. -/
def Operation.request? : Operation → Option Request
  | .request asked => some asked
  | _ => none

/-- Everything that is asked of the simulation. -/
def requests (operations : List Operation) : List Request :=
  operations.filterMap Operation.request?

end Trace

open Trace (Operation Writer requests)

/-- The calls of a host that traces a simulation, with `none` where it asks for a failure. -/
def Simulation.script (s : Simulation) : List Operation → List (Option Trace.Call)
  | [] => []
  | .request request :: operations =>
    match s.perform request with
    | .error _ => []
    | .ok (t, _) => ((s.moments request).flatMap Moment.calls).map some ++ t.script operations
  | .finish :: operations => some .finish :: s.script operations
  | .takeError :: operations => none :: s.script operations

namespace Trace

/-! ### Sessions -/

/-- A simulation that is traced, and what was said when a failure was asked for. -/
structure Session (ω : Type) where
  sim : Simulation
  trace : Trace ω
  answers : List (Option Error)

namespace Session

variable {ω : Type} [Writer ω]

/-- The beginning of a trace. -/
def ofWriter (s : Simulation) (writer : ω) : Session ω :=
  ⟨s, .ofWriter writer, []⟩

/-- Does what a host does; the events of a request are sent to the trace. -/
def perform (x : Session ω) : Operation → Except Fault (Session ω)
  | .request request => do
    let (sim, c) ← x.sim.perform request
    let trace ← x.trace.observeAll c.events
    return ⟨sim, trace, x.answers⟩
  | .finish => .ok { x with trace := x.trace.finish }
  | .takeError =>
    let (answer, trace) := x.trace.takeError
    .ok ⟨x.sim, trace, x.answers ++ [answer]⟩

/-- Does one thing after another. -/
def performAll (x : Session ω) : List Operation → Except Fault (Session ω)
  | [] => .ok x
  | operation :: operations => do
    let x ← x.perform operation
    x.performAll operations

end Session

/-! ### Failures -/

/-- The failure of a call, if it fails. -/
def failure? : Except Error Unit → Option Error
  | .error e => some e
  | .ok () => none

/-- What the calls of a script say, with `none` where a failure is asked for. -/
def respond {ω : Type} [Writer ω] : List (Option Call) → ω → List (Option (Except Error Unit))
  | [], _ => []
  | some call :: script, w => some (call.perform w).2 :: respond script (call.perform w).1
  | none :: script, w => none :: respond script w

/-- What is said when a failure is asked for, if `pending` is the first one so far. -/
def answersFrom (pending : Option Error) : List (Option (Except Error Unit)) → List (Option Error)
  | [] => []
  | some result :: results => answersFrom (pending.or (failure? result)) results
  | none :: results => pending :: answersFrom none results

section

variable {ω : Type} [Writer ω]

theorem respond_append (calls : List Call) (script : List (Option Call)) (w : ω) :
    respond (calls.map some ++ script) w =
      (Call.performAll calls w).2.map some ++ respond script (Call.performAll calls w).1 := by
  induction calls generalizing w with
  | nil => rfl
  | cons call calls ih =>
    rw [List.map_cons, List.cons_append, respond, ih, Call.performAll]
    rfl

theorem answersFrom_append (pending : Option Error) (segment : List (Except Error Unit))
    (results : List (Option (Except Error Unit))) :
    answersFrom pending (segment.map some ++ results) =
      answersFrom (pending.or (segment.findSome? failure?)) results := by
  induction segment generalizing pending with
  | nil => rw [List.findSome?_nil, Option.or_none]; rfl
  | cons result segment ih =>
    rw [List.map_cons, List.cons_append, answersFrom, ih, List.findSome?_cons, Option.or_assoc]
    cases failure? result <;> rfl

theorem length_answersFrom (pending : Option Error)
    (results : List (Option (Except Error Unit))) :
    (answersFrom pending results).length = results.countP Option.isNone := by
  induction results generalizing pending with
  | nil => rfl
  | cons result results ih =>
    cases result with
    | none => rw [answersFrom, List.length_cons, ih, List.countP_cons_of_pos rfl]
    | some r => rw [answersFrom, ih, List.countP_cons_of_neg (by simp)]

/-- As often as a failure is asked for there is an answer, and it is the first failure since
somebody asked last, if there was one. -/
structure AnswersFirst (results : List (Option (Except Error Unit)))
    (answers : List (Option Error)) : Prop where
  length_eq : answers.length = results.countP Option.isNone
  first : ∀ before (segment : List (Except Error Unit)) after,
    results = before ++ segment.map some ++ none :: after →
    before = [] ∨ before.getLast? = some none →
    answers[before.countP Option.isNone]? = some (segment.findSome? failure?)

/-- What is said after a failure was asked for does not depend on what happened before. -/
theorem answersFrom_append_none (pending : Option Error)
    (before results : List (Option (Except Error Unit))) :
    answersFrom pending (before ++ none :: results) =
      answersFrom pending (before ++ [none]) ++ answersFrom none results := by
  induction before generalizing pending with
  | nil => rfl
  | cons result before ih =>
    cases result with
    | none => rw [List.cons_append, answersFrom, ih, List.cons_append, answersFrom]; rfl
    | some r => rw [List.cons_append, answersFrom, ih, List.cons_append, answersFrom]

theorem answersFirst_answersFrom (results : List (Option (Except Error Unit))) :
    AnswersFirst results (answersFrom none results) where
  length_eq := length_answersFrom none results
  first := by
    rintro before segment after rfl hbefore
    have hsegment : answersFrom none (segment.map some ++ none :: after) =
        segment.findSome? failure? :: answersFrom none after := by
      rw [answersFrom_append, Option.none_or, answersFrom]
    obtain rfl | hlast := hbefore
    · rw [List.nil_append, hsegment]
      rfl
    · obtain ⟨start, rfl⟩ := List.getLast?_eq_some_iff.mp hlast
      rw [List.append_assoc, List.append_assoc, List.singleton_append, answersFrom_append_none,
        hsegment, ← length_answersFrom none, List.getElem?_append_right (Nat.le_refl _),
        Nat.sub_self]
      rfl

/-! ### Traces and calls -/

/-- The trace after some calls of its writer. -/
def recordAll (t : Trace ω) (calls : List Call) : Trace ω :=
  calls.foldl (fun t call => t.record call.perform) t

/-- Every call is made, and the first failure is kept. -/
theorem recordAll_eq (t : Trace ω) (calls : List Call) :
    t.recordAll calls = ⟨(Call.performAll calls t.writer).1,
      t.firstError.or ((Call.performAll calls t.writer).2.findSome? failure?)⟩ := by
  induction calls generalizing t with
  | nil =>
    rw [Call.performAll, List.findSome?_nil, Option.or_none]
    rfl
  | cons call calls ih =>
    have hrecord : t.record call.perform = ⟨(call.perform t.writer).1,
        t.firstError.or (failure? (call.perform t.writer).2)⟩ := by
      unfold record
      obtain ⟨writer, result⟩ := call.perform t.writer
      cases t.firstError <;> cases result <;> rfl
    have hrest := ih (t.record call.perform)
    rw [hrecord] at hrest
    rw [Call.performAll, List.findSome?_cons]
    show (t.record call.perform).recordAll calls = _
    rw [hrecord, hrest, Option.or_assoc]
    cases failure? (call.perform t.writer).2 <;> rfl

/-- The calls for one event. -/
def callsOf : Event → List Call
  | .snapshot tick world =>
    if world.agents = [] then [] else [.snapshots (world.agents.map (SnapshotRow.at tick))]
  | .runEnd _ => [.finish]
  | e => (e.row?.map Call.event).toList

/-- The positions of all agents that the event shows can be computed. -/
def HasPlaces (e : Event) : Prop :=
  ∀ tick world, e = .snapshot tick world →
    ∀ a ∈ world.agents, ∃ place, a.gridPosition = .ok place

theorem SnapshotRow.ofAgent_eq {a : Agent} (h : ∃ place, a.gridPosition = .ok place) (tick : Tick) :
    SnapshotRow.ofAgent tick a = .ok (SnapshotRow.at tick a) := by
  obtain ⟨place, hplace⟩ := h
  unfold SnapshotRow.ofAgent SnapshotRow.at
  rw [hplace]
  rfl

theorem snapshotRows_eq {w : World} (h : ∀ a ∈ w.agents, ∃ place, a.gridPosition = .ok place)
    (tick : Tick) : snapshotRows tick w = .ok (w.agents.map (SnapshotRow.at tick)) := by
  rw [snapshotRows, mapM_eq_ok_iff, List.forall₂_map_right_iff, List.forall₂_same]
  exact fun a ha => SnapshotRow.ofAgent_eq (h a ha) tick

theorem observe_eq {e : Event} (h : HasPlaces e) (t : Trace ω) :
    t.observe e = .ok (t.recordAll (callsOf e)) := by
  cases e with
  | snapshot tick world =>
    rw [observe, snapshotRows_eq (h tick world rfl), callsOf]
    show Except.ok _ = _
    cases world.agents <;> rfl
  | _ => rfl

theorem observeAll_eq {events : List Event} (h : ∀ e ∈ events, HasPlaces e) (t : Trace ω) :
    t.observeAll events = .ok (t.recordAll (events.flatMap callsOf)) := by
  induction events generalizing t with
  | nil => rfl
  | cons e events ih =>
    rw [observeAll, observe_eq (h e List.mem_cons_self)]
    show (t.recordAll (callsOf e)).observeAll events = _
    rw [ih fun e he => h e (List.mem_cons_of_mem _ he), List.flatMap_cons, recordAll, recordAll,
      recordAll, List.foldl_append]

end

/-! ### The calls of a moment -/

/-- The event is not about the whole world or the whole run. -/
def IsPlain : Event → Prop
  | .snapshot _ _ => False
  | .runEnd _ => False
  | _ => True

theorem IsPlain.hasPlaces {e : Event} (h : IsPlain e) : HasPlaces e := by
  rintro tick world rfl
  exact h.elim

theorem IsPlain.callsOf_eq {e : Event} (h : IsPlain e) :
    callsOf e = (e.row?.map Call.event).toList := by
  cases e with
  | snapshot tick world => exact h.elim
  | runEnd tick => exact h.elim
  | _ => rfl

theorem flatMap_callsOf {events : List Event} (h : ∀ e ∈ events, IsPlain e) :
    events.flatMap callsOf = (events.filterMap Event.row?).map Call.event := by
  rw [List.map_filterMap, List.filterMap_eq_flatMap_toList]
  exact List.flatMap_congr fun e he => (h e he).callsOf_eq

theorem isPlain_of_mem_arrivalEvents {now : Tick} {agents : List Agent} {items : List Item}
    {a : Agent} {e : Event} (h : e ∈ Simulation.arrivalEvents now agents items a) : IsPlain e := by
  unfold Simulation.arrivalEvents at h
  split at h
  · obtain h | h := List.mem_append.mp h
    · obtain ⟨item, -, rfl⟩ := List.mem_map.mp h
      trivial
    · obtain ⟨reason, -, rfl⟩ := Option.map_eq_some_iff.mp (Option.mem_toList.mp h)
      trivial
  · cases h

theorem isPlain_of_mem_stopEvents {now : Tick} {x : Agent × Agent} {e : Event}
    (h : e ∈ Simulation.stopEvents now x) : IsPlain e := by
  unfold Simulation.stopEvents at h
  dsimp only at h
  split at h
  · obtain ⟨tick, reason, rfl⟩ := Agent.areOf_farewell now x.2 e h
    trivial
  · cases h

/-- In a tick the world is the last thing that is told, and everything before it is plain. -/
theorem exists_stream_eq (s : Simulation) (w : World) : ∃ plain, (∀ e ∈ plain, IsPlain e) ∧
    s.stream w = plain ++ if 0 < s.config.snapshotInterval.toNat ∧
        s.config.snapshotInterval.toNat ∣ s.clock.count.toNat then
      [.snapshot s.clock w]
    else [] := by
  refine ⟨_, fun e he => ?_, rfl⟩
  simp only [List.mem_append, List.mem_singleton, List.mem_map, List.mem_flatMap] at he
  obtain (((rfl | ⟨id, -, rfl⟩) | ⟨a, -, he⟩) | ⟨x, -, he⟩) | rfl := he
  · trivial
  · trivial
  · exact isPlain_of_mem_arrivalEvents he
  · exact isPlain_of_mem_stopEvents he
  · trivial

end Trace

namespace Moment

open Trace

variable {m : Moment}

theorem IsAttained.hasPlaces (h : m.IsAttained) : ∀ e ∈ m.events, HasPlaces e := by
  intro e he
  cases m with
  | tick ready next =>
    obtain ⟨hready, count, c, hstep⟩ := h
    have hnext := (hready.step hstep).sound
    obtain ⟨plain, hplain, hstream⟩ := exists_stream_eq ready next.world
    rw [events, hstream] at he
    obtain he | he := List.mem_append.mp he
    · exact (hplain e he).hasPlaces
    · split at he
      · obtain rfl := List.mem_singleton.mp he
        rintro tick world heq a ha
        cases heq
        exact (hnext.agents a ha).exists_gridPosition
      · cases he
  | settle ready =>
    obtain ⟨id, -, rfl⟩ := List.mem_map.mp he
    exact IsPlain.hasPlaces trivial
  | runEnd final =>
    obtain rfl := List.mem_singleton.mp he
    rintro tick world heq
    cases heq

/-- What the events of a moment call for are the calls of the moment. -/
theorem IsAttained.flatMap_callsOf (h : m.IsAttained) : m.events.flatMap callsOf = m.calls := by
  cases m with
  | tick ready next =>
    obtain ⟨hready, count, c, hstep⟩ := h
    have hagents : next.world.agents = [] ↔ ready.board.spawns = [] := by
      have hids := congrArg List.length (hready.step hstep).sound.ids
      rw [List.length_map, List.length_map, List.length_range,
        (Simulation.frame_of_step hstep).2.1] at hids
      rw [← List.length_eq_zero_iff, hids, List.length_eq_zero_iff]
    obtain ⟨plain, hplain, hstream⟩ := exists_stream_eq ready next.world
    rw [events, calls, hstream, List.flatMap_append, Trace.flatMap_callsOf hplain,
      List.filterMap_append, List.map_append, List.append_assoc]
    congr 1
    by_cases hshown : 0 < ready.config.snapshotInterval.toNat ∧
        ready.config.snapshotInterval.toNat ∣ ready.clock.count.toNat
    · rw [if_pos hshown, List.flatMap_singleton, callsOf]
      by_cases hspawns : ready.board.spawns = []
      · rw [if_pos (hagents.mpr hspawns), if_neg fun h => h.2 hspawns]
        rfl
      · rw [if_neg (mt hagents.mp hspawns), if_pos ⟨hshown, hspawns⟩]
        rfl
    · rw [if_neg hshown, if_neg fun h => hshown h.1]
      rfl
  | settle ready =>
    rw [events, Trace.flatMap_callsOf, List.filterMap_map]
    · show (ready.unreported.filterMap fun id => some _).map Call.event = _
      rw [List.filterMap_eq_map', List.map_map]
      rfl
    · intro e he
      obtain ⟨id, -, rfl⟩ := List.mem_map.mp he
      trivial
  | runEnd final => rfl

end Moment

/-! ### Whole sessions -/

namespace Trace

variable {ω : Type} [Writer ω] {s t : Simulation} {c : Chronicle} {operations : List Operation}

theorem reduceOption_map_some (calls : List Call) : (calls.map some).reduceOption = calls := by
  rw [List.reduceOption, List.filterMap_map]
  exact List.filterMap_some

/-- A request is traced by the calls of its moments. -/
theorem observeAll_of_perform {request : Request} (h : s.IsAttained)
    (ht : s.perform request = .ok (t, c)) (trace : Trace ω) :
    trace.observeAll c.events =
      .ok (trace.recordAll ((s.moments request).flatMap Moment.calls)) := by
  obtain ⟨hevents, hattained⟩ := h.tells_perform ht
  have hplaces : ∀ e ∈ c.events, HasPlaces e := by
    intro e he
    rw [hevents] at he
    obtain ⟨m, hm, he⟩ := List.mem_flatMap.mp he
    exact (hattained m hm).hasPlaces e he
  rw [observeAll_eq hplaces, hevents, List.flatMap_assoc]
  congr 2
  exact List.flatMap_congr fun m hm => (hattained m hm).flatMap_callsOf

/-- A session comes to the simulation that nobody traces. Its writer is called for what the script
lists, and the failures that it tells of are those of the script. -/
theorem Session.exists_performAll {x : Session ω} (h : x.sim.IsAttained)
    (hoperations : ∀ request ∈ requests operations, request.IsAdmissible)
    (ht : x.sim.performAll (requests operations) = .ok (t, c)) :
    ∃ pending, x.performAll operations = .ok
      ⟨t, ⟨(Call.performAll (x.sim.script operations).reduceOption x.trace.writer).1, pending⟩,
        x.answers ++ answersFrom x.trace.firstError
          (respond (x.sim.script operations) x.trace.writer)⟩ := by
  induction operations generalizing x c with
  | nil =>
    obtain ⟨rfl, -⟩ := Prod.mk.inj (Except.ok.inj ht)
    refine ⟨x.trace.firstError, ?_⟩
    rw [Simulation.script, respond, answersFrom, List.append_nil]
    rfl
  | cons operation operations ih =>
    cases operation with
    | request request =>
      obtain ⟨⟨u, c₁⟩, hu, hrest⟩ := bind_eq_ok_iff.mp ht
      obtain ⟨⟨t', c₂⟩, ht', hpure⟩ := bind_eq_ok_iff.mp hrest
      obtain ⟨rfl, -⟩ := Prod.mk.inj (pure_eq_ok_iff.mp hpure)
      have hscript : x.sim.script (.request request :: operations) =
          ((x.sim.moments request).flatMap Moment.calls).map some ++ u.script operations := by
        rw [Simulation.script, hu]
      have hperform : x.perform (.request request) = .ok ⟨u,
          x.trace.recordAll ((x.sim.moments request).flatMap Moment.calls), x.answers⟩ :=
        bind_eq_ok_iff.mpr ⟨_, hu, bind_eq_ok_iff.mpr ⟨_, observeAll_of_perform h hu _, rfl⟩⟩
      obtain ⟨pending, hpending⟩ := ih (x := ⟨u, _, x.answers⟩)
        (h.perform (hoperations request List.mem_cons_self) hu)
        (fun r hr => hoperations r (List.mem_cons_of_mem _ hr)) ht'
      refine ⟨pending, bind_eq_ok_iff.mpr ⟨_, hperform, ?_⟩⟩
      rw [hpending, hscript, respond_append, answersFrom_append, List.reduceOption_append,
        reduceOption_map_some, Call.performAll_append, recordAll_eq]
    | finish =>
      obtain ⟨pending, hpending⟩ := ih (x := { x with trace := x.trace.recordAll [.finish] }) h
        hoperations ht
      have hscript : x.sim.script (.finish :: operations) =
          [Call.finish].map some ++ x.sim.script operations := rfl
      refine ⟨pending, bind_eq_ok_iff.mpr ⟨_, rfl, hpending.trans ?_⟩⟩
      rw [hscript, respond_append, answersFrom_append, List.reduceOption_append,
        reduceOption_map_some, Call.performAll_append, recordAll_eq]
    | takeError =>
      obtain ⟨pending, hpending⟩ := ih (x := ⟨x.sim, x.trace.takeError.2,
        x.answers ++ [x.trace.takeError.1]⟩) h hoperations ht
      refine ⟨pending, bind_eq_ok_iff.mpr ⟨_, rfl, hpending.trans ?_⟩⟩
      rw [List.append_assoc]
      rfl

/-- A recorder keeps every call, whether or not it fails. -/
theorem toList_calls_performAll (calls : List Call) (r : Recorder) :
    (Call.performAll calls r).1.calls.toList = r.calls.toList ++ calls := by
  induction calls generalizing r with
  | nil => exact (List.append_nil _).symm
  | cons call calls ih =>
    have hkeep : (call.perform r).1.calls.toList = r.calls.toList ++ [call] := by
      cases call <;> exact Array.toList_push
    rw [Call.performAll]
    show (Call.performAll calls (call.perform r).1).1.calls.toList = _
    rw [ih, hkeep, List.append_assoc, List.singleton_append]

end Trace

open Trace (Session Recorder SnapshotRow)

/-- Tracing a simulation does not change what becomes of it, and the trace is complete. Every tick
that the clock counts is a moment of its own and leads from one simulation to the next, observers
are told what the moments tell, and the agents are listed by their numbers. The writer is called for
the calls of the moments and whenever the host brings the trace to its place, in this order,
whatever calls fail: this holds of every writer, and a recorder keeps exactly these calls. As often
as a failure is asked for, the answer is the first failure since somebody asked last, if there was
one. -/
theorem Simulation.Reachable.trace_complete {s : Simulation} (h : s.Reachable)
    {operations : List Operation}
    (hoperations : ∀ request ∈ requests operations, request.IsAdmissible)
    (hend : s.clock.count.toNat + s.ticksOfAll (requests operations) < 2 ^ 64) :
    ∃ t c, s.performAll (requests operations) = .ok (t, c) ∧
      c.events = (s.momentsAll (requests operations)).flatMap Moment.events ∧
      ((s.momentsAll (requests operations)).filterMap Moment.clock?).map
          (fun tick => tick.count.toNat) =
        List.range' s.clock.count.toNat
          (s.ticksOfAll (requests operations)) ∧
      (∀ ready next, .tick ready next ∈ s.momentsAll (requests operations) →
        (∃ count d, ready.step = .ok (count, next, d)) ∧
        next.world.agents.map Agent.id =
          (List.range ready.board.spawns.length).map Ident.ofIndex ∧
        ∀ a ∈ next.world.agents,
          SnapshotRow.ofAgent ready.clock a = .ok (SnapshotRow.at ready.clock a)) ∧
      (∀ {ω : Type} [Writer ω] (w : ω), ∃ x, (Session.ofWriter s w).performAll operations = .ok x ∧
        x.sim = t ∧
        x.trace.writer = (Trace.Call.performAll (s.script operations).reduceOption w).1 ∧
        Trace.AnswersFirst (Trace.respond (s.script operations) w) x.answers) ∧
      ∀ fails, ∃ x, (Session.ofWriter s (Recorder.ofFailures fails)).performAll operations = .ok x ∧
        x.trace.writer.calls.toList = (s.script operations).reduceOption := by
  obtain ⟨t, c, ht, -⟩ := h.isAttained.exists_performAll hoperations hend
  obtain ⟨hevents, hattained⟩ := h.isAttained.tells_performAll hoperations ht
  refine ⟨t, c, ht, hevents, h.isAttained.map_clock_momentsAll hoperations hend,
    fun ready next hmoment => ?_, fun {ω} _ w => ?_, fun fails => ?_⟩
  · obtain ⟨hready, count, d, hstep⟩ := hattained _ hmoment
    have hnext := (hready.step hstep).sound
    refine ⟨⟨count, d, hstep⟩, ?_, fun a ha => ?_⟩
    · rw [hnext.ids, (frame_of_step hstep).2.1]
    · exact SnapshotRow.ofAgent_eq (hnext.agents a ha).exists_gridPosition ready.clock
  · obtain ⟨pending, hx⟩ :=
      Session.exists_performAll (x := .ofWriter s w) h.isAttained hoperations ht
    exact ⟨_, hx, rfl, rfl, Trace.answersFirst_answersFrom _⟩
  · obtain ⟨pending, hx⟩ := Session.exists_performAll
      (x := .ofWriter s (Recorder.ofFailures fails)) h.isAttained hoperations ht
    exact ⟨_, hx, Trace.toList_calls_performAll _ _⟩

/-- Ticks, a run and a last call in the corridor, with questions in between. -/
def Trace.corridorOperations : List Operation :=
  [.request (.configure ⟨1, 100, 2⟩), .request .start, .request (.tickMany 2), .takeError,
    .request .run, .finish, .takeError, .takeError]

/-- In the corridor the world is shown in the first and in the third tick, and in the third tick the
agent also collects the item and stops. Three of the calls fail, and the third of them goes
unnoticed, for the second one came before it. -/
theorem Simulation.Reachable.trace_complete_corridor : ∃ x,
    (Session.ofWriter corridor (Recorder.ofFailures fun n => n = 0 || n = 2 || n = 5)).performAll
        Trace.corridorOperations = .ok x ∧
      x.trace.writer.calls.toList = (corridor.script Trace.corridorOperations).reduceOption ∧
      x.trace.writer.calls.toList.map Trace.Call.name =
        ["snapshots", "event", "event", "snapshots", "finish", "finish"] ∧
      x.answers = [some (.io "snapshots failed at call 0"), some (.io "event failed at call 2"),
        none] := by
  have hadmissible : ∀ request ∈ requests Trace.corridorOperations,
      request.IsAdmissible := by
    simp [Trace.corridorOperations, requests, Operation.request?, Request.IsAdmissible]
  obtain ⟨t, c, -, -, -, -, -, hrecorder⟩ :=
    reachable_corridor.trace_complete hadmissible (by decide)
  obtain ⟨x, hx, hcalls⟩ := hrecorder fun n => n = 0 || n = 2 || n = 5
  refine ⟨x, hx, hcalls, ?_⟩
  cases hx
  exact ⟨rfl, rfl⟩

end TileWalk
