import TileWalk.Proofs.Program.Defects
import TileWalk.Proofs.Simulation.Progress

/-!
# Deliveries

A payload is refused for what is wrong with its document, or else for the first defect of the trees
in it (`Program.ofPayload_eq_error_iff`). A delivery looks at the payload before it changes
anything. To say so it is written once more as it happens, step by step on one simulation
(`Simulation.InPlace.deliver`): if the payload is refused the simulation is left as it was, in the
middle of whatever it did, and otherwise the program is loaded and started
(`Simulation.delivers_or_unchanged`).
-/

namespace TileWalk

open Outcome

namespace Program

variable {payload : Json.Payload} {e : ProgramError}

/-- A payload is refused for its document or for the trees in it. -/
theorem ofPayload_eq_error_iff : ofPayload payload = .error e ↔
    (∃ failure, bricksOf payload = .error failure ∧ e = .json failure) ∨
      ∃ trees, bricksOf payload = .ok trees ∧ ofBricks trees = .error e := by
  unfold ofPayload
  cases bricksOf payload with
  | error failure => simp [eq_comm]
  | ok trees => simp

end Program

namespace Simulation

/-! ### Deliveries as they happen -/

/-- What is done to a simulation until something is refused. -/
abbrev InPlace (α : Type) :=
  ExceptT SimulationError (StateT Simulation (Except Fault)) α

namespace InPlace

/-- What comes of doing it, and the simulation that it leaves. -/
def on {α : Type} (x : InPlace α) (s : Simulation) :
    Except Fault (Except SimulationError α × Simulation) :=
  x.run.run s

/-- Changes the simulation. -/
def change (f : Simulation → Except Fault (Simulation × Chronicle)) : InPlace Chronicle := do
  let (t, c) ← f (← get)
  set t
  return c

/-- Takes a payload from an editor: installs its program and starts it. -/
def deliver (payload : Json.Payload) : InPlace Chronicle := do
  let program ← ofExcept ((Program.ofPayload payload).mapError SimulationError.program)
  let c ← change (load program)
  let d ← change start
  return .ofEntries program.loadEntries ++ c ++ d

theorem on_bind {α β : Type} (x : InPlace α) (f : α → InPlace β) (s : Simulation) :
    (x >>= f).on s =
      match x.on s with
      | .ok (.ok a, t) => (f a).on t
      | .ok (.error e, t) => .ok (.error e, t)
      | .error fault => .error fault := by
  show (x s >>= fun r => ExceptT.bindCont f r.1 r.2 : Except Fault _) = _
  show _ = (match x s with
    | .ok (.ok a, t) => (f a).on t | .ok (.error e, t) => _ | .error fault => _)
  rcases x s with fault | ⟨e | a, t⟩ <;> rfl

theorem on_change (f : Simulation → Except Fault (Simulation × Chronicle)) (s : Simulation) :
    (change f).on s = (f s).map fun r => (.ok r.2, r.1) := by
  have hlift : (liftM (f s) : InPlace (Simulation × Chronicle)).on s =
      (f s).map fun r => (.ok r, s) := by
    cases f s <;> rfl
  rw [change, on_bind]
  show (liftM (f s) >>= fun r => _ : InPlace Chronicle).on s = _
  rw [on_bind, hlift]
  cases f s <;> rfl

/-- A delivery leaves the simulation that it is said to leave, and the one there was if it is
refused. -/
theorem on_deliver (payload : Json.Payload) (s : Simulation) : (deliver payload).on s =
    match s.deliver payload with
    | .error e => .ok (.error e, s)
    | .ok outcome => outcome.map fun r => (.ok r.2, r.1) := by
  unfold deliver Simulation.deliver
  cases Program.ofPayload payload with
  | error e => rfl
  | ok program =>
    show (change (load program) >>= fun c => change start >>= fun d => _ : InPlace _).on s = _
    rw [on_bind, on_change]
    dsimp only
    cases s.load program with
    | error fault => rfl
    | ok r =>
      show (change start >>= fun d => _ : InPlace Chronicle).on r.1 = _
      rw [on_bind, on_change]
      show _ = Except.map _ (r.1.start >>= _)
      cases r.1.start <;> rfl

end InPlace

/-! ### What comes of a delivery -/

variable {s : Simulation} {payload : Json.Payload}

theorem deliver_eq_error {e : ProgramError} (h : Program.ofPayload payload = .error e) :
    s.deliver payload = .error (.program e) := by
  rw [deliver, h]

theorem deliver_eq_ok {p : Program} {t u : Simulation} {c d : Chronicle}
    (h : Program.ofPayload payload = .ok p) (hload : s.load p = .ok (t, c))
    (hstart : t.start = .ok (u, d)) :
    s.deliver payload = .ok (.ok (u, .ofEntries p.loadEntries ++ c ++ d)) := by
  rw [deliver, h]
  exact congrArg Except.ok (bind_eq_ok_iff.mpr ⟨_, hload, bind_eq_ok_iff.mpr ⟨_, hstart, rfl⟩⟩)

/-- Trees are refused exactly if something is wrong with one of their bricks, and for the first
thing that is. A simulation that is handed a payload that is refused, for this or for its document,
says so and stays as it was; one that is handed a program loads it and starts it. -/
theorem delivers_or_unchanged :
    (∀ trees : List Brick, (trees.flatMap Brick.bricks).length < 2 ^ 32 →
      ((∃ e, Program.ofBricks trees = .error e) ↔
        ∃ b ∈ trees.flatMap Brick.bricks, ∃ e, b.Defect e) ∧
      ∀ e, Program.ofBricks trees = .error e ↔ (trees.flatMap Brick.defects).head? = some e) ∧
    (∀ payload e, Program.ofPayload payload = .error e ↔
      (∃ failure, Program.bricksOf payload = .error failure ∧ e = .json failure) ∨
        ∃ trees, Program.bricksOf payload = .ok trees ∧ Program.ofBricks trees = .error e) ∧
    ∀ (s : Simulation) (payload : Json.Payload), s.Reachable →
      (∀ e, Program.ofPayload payload = .error e →
        s.deliver payload = .error (.program e) ∧
        (InPlace.deliver payload).on s = .ok (.error (.program e), s)) ∧
      ∀ p, Program.ofPayload payload = .ok p → ∃ t c u d,
        s.load p = .ok (t, c) ∧ t.start = .ok (u, d) ∧
        s.deliver payload = .ok (.ok (u, .ofEntries p.loadEntries ++ c ++ d)) ∧
        (InPlace.deliver payload).on s = .ok (.ok (.ofEntries p.loadEntries ++ c ++ d), u) := by
  refine ⟨fun trees hsize => ?_, fun _ _ => Program.ofPayload_eq_error_iff,
    fun s payload hs => ⟨fun e he => ?_, fun p hp => ?_⟩⟩
  · have hfails := Program.failsWith_ofBricks trees (Nat.le_of_lt hsize)
    refine ⟨hfails.exists_error_iff.trans ?_, hfails⟩
    simp only [Brick.mem_flatMap_defects_iff]
    exact ⟨fun ⟨e, b, hb, he⟩ => ⟨b, hb, e, he⟩, fun ⟨b, hb, e, he⟩ => ⟨e, b, hb, he⟩⟩
  · have hdeliver : s.deliver payload = .error (.program e) := deliver_eq_error he
    refine ⟨hdeliver, ?_⟩
    rw [InPlace.on_deliver, hdeliver]
  · have hboard := hs.sound.board
    obtain ⟨t, c, hload⟩ := exists_load hboard p
    have hcarried : s.carryOut (.load p) = .ok (t, c) := hload
    obtain ⟨-, -, hkept, -⟩ := frame_of_carryOut hcarried
    have hproper : t.board.IsProper := hkept ▸ hboard
    obtain ⟨u, d, hstart⟩ := exists_start hproper
    have hdeliver := deliver_eq_ok hp hload hstart
    refine ⟨t, c, u, d, hload, hstart, hdeliver, ?_⟩
    rw [InPlace.on_deliver, hdeliver]
    rfl

/-- Of the defects of these trees the one on the right comes first, and then the one below the same
brick. -/
def defectiveTrees : List Brick :=
  [⟨none, ⟨"EntryBrick", "CommandNOP", .null⟩,
      .brick none ⟨"BasicBrick", "CommandMove", .string ""⟩ .absent (.marker "nil"),
      .marker "none"⟩,
    ⟨some (.bool true), ⟨"BasicBrick", "CommandMove", .array []⟩, .absent, .marker "Nil"⟩]

/-- A payload that ends before it is a document. -/
def brokenPayload : Json.Payload :=
  .ofString "["

/-- A payload that draws nothing. -/
def blankPayload : Json.Payload :=
  .ofString "[]"

/-- Of the defects of a list of trees the first one is named. In the middle of a move, with a signal
that waits, a payload that is no document changes nothing, and one that draws nothing is loaded and
started. -/
theorem delivers_or_unchanged_corridor :
    Program.ofBricks defectiveTrees = .error (.badLink "nil") ∧
    ∃ s : Simulation, s.Reachable ∧ s.queue = [.reset] ∧
      (∃ a ∈ s.world.agents, a.isMoving = true) ∧
      (InPlace.deliver brokenPayload).on s = .ok (.error (.program (.json .truncated)), s) ∧
      ∃ t c u d, s.load Program.empty = .ok (t, c) ∧ t.start = .ok (u, d) ∧
        (InPlace.deliver blankPayload).on s =
          .ok (.ok (.ofEntries Program.empty.loadEntries ++ c ++ d), u) := by
  obtain ⟨htrees, -, hdelivery⟩ := delivers_or_unchanged
  have hstarted := reachable_corridor.perform (show Request.start.IsAdmissible from trivial) rfl
  have hticked := hstarted.perform (show (Request.tickMany 2).IsAdmissible from trivial) rfl
  have hsent := hticked.perform (show (Request.signal .reset).IsAdmissible from trivial) rfl
  refine ⟨((htrees defectiveTrees (by decide)).2 _).mpr rfl, _, hsent, rfl, ?_, ?_, ?_⟩
  · exact ⟨_, List.mem_cons_self, rfl⟩
  · exact ((hdelivery _ brokenPayload hsent).1 _ rfl).2
  · have hblank : Program.ofPayload blankPayload = .ok Program.empty := rfl
    have hdelivered := (hdelivery _ blankPayload hsent).2 Program.empty hblank
    obtain ⟨t, c, u, d, hload, hstart, -, hleft⟩ := hdelivered
    exact ⟨t, c, u, d, hload, hstart, hleft⟩

end Simulation

end TileWalk
