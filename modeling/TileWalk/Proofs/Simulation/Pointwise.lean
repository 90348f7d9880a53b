import TileWalk.Proofs.Agent.Sound
import TileWalk.Simulation.Tick

/-!
# A tick acts on every agent alone

A tick goes through the agents twice: first all of them move, then those that did not arrive
execute. For coherent agents this is one pass in which every agent does what it would do alone
(`Simulation.mapM_live_of_step`): an agent that arrives is kept from executing, and an agent that
executes has no motion. The number of a tick counts the agents that were executing when it began.
-/

namespace TileWalk

open Outcome

/-! ### One agent in the two phases -/

namespace Agent

variable {p : Program} {g : Grid} {frames : UInt32} {a b : Agent} {m : Agent × Bool}

/-- The first phase of a tick makes `m` of an agent; the flag says that it arrived. -/
def Moves (g : Grid) (a : Agent) (m : Agent × Bool) : Prop :=
  ∃ arrival?, a.advance g = .ok (arrival?, m.1) ∧ m.2 = arrival?.isSome

/-- The second phase of a tick makes `b` of what the first has left. -/
def Dispatches (p : Program) (g : Grid) (frames : UInt32) (m : Agent × Bool) (b : Agent) : Prop :=
  if m.2 then b = m.1 else ∃ d?, m.1.execute p g frames = .ok (d?, b)

/-- The agent executes in the second phase. -/
def isDue (m : Agent × Bool) : Bool :=
  !m.2 && m.1.isExecuting

theorem moves_unique {m' : Agent × Bool} (h : Moves g a m) (h' : Moves g a m') : m = m' := by
  obtain ⟨arrival?, ha, hflag⟩ := h
  obtain ⟨arrival?', ha', hflag'⟩ := h'
  obtain ⟨rfl, hagent⟩ := Prod.mk.inj (Except.ok.inj (ha.symm.trans ha'))
  exact Prod.ext hagent (hflag.trans hflag'.symm)

theorem moves_iff_of_motion_none (hm : a.motion = none) :
    Moves g a m ↔ m = (a, false) := by
  unfold Moves
  rw [advance_of_none hm]
  constructor
  · rintro ⟨arrival?, ha, hflag⟩
    obtain ⟨rfl, h1⟩ := Prod.mk.inj (Except.ok.inj ha)
    exact Prod.ext h1.symm hflag
  · rintro rfl
    exact ⟨none, rfl, rfl⟩

theorem phase_eq_of_advance_none {sequel : Sequel} {motion : Motion}
    (hphase : a.phase = .moving sequel) (hmotion : a.motion = some motion)
    (ha : a.advance g = .ok (none, b)) : b.phase = .moving sequel := by
  cases hover : motion.advance.isOver with
  | false =>
    rw [advance_of_not_isOver hmotion hover] at ha
    obtain ⟨-, rfl⟩ := Prod.mk.inj (Except.ok.inj ha)
    exact hphase
  | true =>
    obtain ⟨_, _, _, -, -, -, harrival, -⟩ := (advance_eq_ok_iff_of_isOver hmotion hover).mp ha
    cases harrival

theorem phase_ne_of_advance_none {sequel : Sequel} {motion : Motion}
    (hphase : a.phase = .moving sequel) (hmotion : a.motion = some motion)
    (ha : a.advance g = .ok (none, b)) : b.phase ≠ .executing := by
  rw [phase_eq_of_advance_none hphase hmotion ha]
  exact fun h => nomatch h

/-- The two phases together are what a coherent agent does alone. -/
theorem Coherent.live_eq_ok_iff (h : a.Coherent) :
    a.live p g frames = .ok b ↔ ∃ m, Moves g a m ∧ Dispatches p g frames m b := by
  cases hphase : a.phase with
  | idle =>
    have hne : a.phase ≠ .executing := by
      rw [hphase]
      exact fun he => nomatch he
    rw [live_of_idle hphase]
    constructor
    · intro hb
      obtain rfl := Except.ok.inj hb
      refine ⟨(a, false), (moves_iff_of_motion_none (h.of_idle hphase).2).mpr rfl, none, ?_⟩
      exact execute_of_ne hne
    · rintro ⟨m, hmoves, hb⟩
      obtain rfl := (moves_iff_of_motion_none (h.of_idle hphase).2).mp hmoves
      obtain ⟨d?, hd⟩ := hb
      rw [execute_of_ne hne] at hd
      exact congrArg Except.ok (Prod.mk.inj (Except.ok.inj hd)).2
  | executing =>
    rw [live_eq_ok_iff_of_executing hphase]
    constructor
    · rintro ⟨d?, hd⟩
      exact ⟨(a, false), (moves_iff_of_motion_none (h.of_executing hphase).1).mpr rfl, d?, hd⟩
    · rintro ⟨m, hmoves, hb⟩
      obtain rfl := (moves_iff_of_motion_none (h.of_executing hphase).1).mp hmoves
      exact hb
  | moving sequel =>
    obtain ⟨-, -, motion, hmotion, -⟩ := h.of_moving sequel hphase
    rw [live_eq_ok_iff_of_moving hphase]
    constructor
    · rintro ⟨arrival?, ha⟩
      refine ⟨(b, arrival?.isSome), ⟨arrival?, ha, rfl⟩, ?_⟩
      -- who has arrived is passed over, and who has not is not executing
      cases arrival? with
      | some arrival => exact rfl
      | none => exact ⟨none, execute_of_ne (phase_ne_of_advance_none hphase hmotion ha)⟩
    · rintro ⟨m, ⟨arrival?, ha, hflag⟩, hb⟩
      unfold Dispatches at hb
      cases arrival? with
      | some arrival =>
        rw [hflag] at hb
        obtain rfl : b = m.1 := hb
        exact ⟨_, ha⟩
      | none =>
        rw [hflag] at hb
        obtain ⟨d?, hd⟩ := hb
        rw [execute_of_ne (phase_ne_of_advance_none hphase hmotion ha)] at hd
        obtain ⟨-, rfl⟩ := Prod.mk.inj (Except.ok.inj hd)
        exact ⟨none, ha⟩

/-- Who executes in the second phase was executing when the tick began. -/
theorem Coherent.isDue_eq (h : a.Coherent) (hm : Moves g a m) : isDue m = a.isExecuting := by
  cases hphase : a.phase with
  | idle =>
    obtain rfl := (moves_iff_of_motion_none (h.of_idle hphase).2).mp hm
    rfl
  | executing =>
    obtain rfl := (moves_iff_of_motion_none (h.of_executing hphase).1).mp hm
    rfl
  | moving sequel =>
    obtain ⟨-, -, motion, hmotion, -⟩ := h.of_moving sequel hphase
    obtain ⟨arrival?, ha, hflag⟩ := hm
    have hne : a.isExecuting = false := by
      rw [isExecuting, hphase]
      rfl
    unfold isDue
    rw [hne, hflag]
    cases arrival? with
    | some arrival => rfl
    | none =>
      rw [Option.isSome_none, Bool.not_false, Bool.true_and, ← Bool.not_eq_true, isExecuting_iff]
      exact phase_ne_of_advance_none hphase hmotion ha

end Agent

/-! ### All agents in the two phases -/

namespace Simulation

open Agent

variable {p : Program} {g : Grid} {frames : UInt32} {now : Tick} {agents : List Agent}
  {moved : List (Agent × Bool)} {stock stock' : Stock} {count : Nat} {c : Chronicle}
  {s t : Simulation} {b : Agent}

/-- What an arrival, if there is one, makes of the items, and what is noted of it. -/
def land (now : Tick) (a : Agent) (stock : Stock) : Option Arrival → Except Fault (Stock × Chronicle)
  | none => .ok (stock, .empty)
  | some arrival => do
    let (items, stock) ← stock.collectAt arrival.pos
    return (stock, .ofEntries (Agent.arrivalEntries a.id arrival)
      ++ (items.map (collected now a.id arrival.pos)).foldr (· ++ ·) .empty
      ++ .ofEvents (finishEvents now a))

/-- The first phase takes the agents one after the other. -/
theorem moveAgents_cons_eq_ok_iff {a : Agent} :
    moveAgents g now (a :: agents) stock = .ok (moved, stock', c) ↔
      ∃ arrival? b stock₁ here rest c₁, a.advance g = .ok (arrival?, b) ∧
        land now b stock arrival? = .ok (stock₁, here) ∧
        moveAgents g now agents stock₁ = .ok (rest, stock', c₁) ∧
        moved = (b, arrival?.isSome) :: rest ∧ c = here ++ c₁ := by
  rw [moveAgents]
  cases ha : a.advance g with
  | error interruption => simp
  | ok result =>
    obtain ⟨arrival?, b⟩ := result
    cases arrival? with
    | none =>
      dsimp only
      rw [bind_eq_ok_iff]
      constructor
      · rintro ⟨⟨rest, stock₂, c₁⟩, hrest, hpure⟩
        obtain ⟨rfl, rfl, rfl⟩ := by simpa using pure_eq_ok_iff.mp hpure
        exact ⟨none, b, stock, .empty, rest, c₁, rfl, rfl, hrest, rfl, rfl⟩
      · rintro ⟨_, _, stock₁, here, rest, c₁, hb, hland, hrest, rfl, rfl⟩
        obtain ⟨rfl, rfl⟩ := Prod.mk.inj (Except.ok.inj hb)
        obtain ⟨rfl, rfl⟩ := Prod.mk.inj (Except.ok.inj hland)
        exact ⟨_, hrest, rfl⟩
    | some arrival =>
      dsimp only
      rw [bind_eq_ok_iff]
      constructor
      · rintro ⟨⟨items, stock₁⟩, hitems, h⟩
        obtain ⟨⟨rest, stock₂, c₁⟩, hrest, hpure⟩ := bind_eq_ok_iff.mp h
        obtain ⟨rfl, rfl, rfl⟩ := by simpa using pure_eq_ok_iff.mp hpure
        refine ⟨some arrival, b, stock₁, _, rest, c₁, rfl, ?_, hrest, rfl, rfl⟩
        exact bind_eq_ok_iff.mpr ⟨_, hitems, rfl⟩
      · rintro ⟨_, _, stock₁, here, rest, c₁, hb, hland, hrest, rfl, rfl⟩
        obtain ⟨rfl, rfl⟩ := Prod.mk.inj (Except.ok.inj hb)
        obtain ⟨⟨items, stock₂⟩, hitems, hpure⟩ := bind_eq_ok_iff.mp hland
        obtain ⟨rfl, rfl⟩ := Prod.mk.inj (pure_eq_ok_iff.mp hpure)
        exact ⟨_, hitems, bind_eq_ok_iff.mpr ⟨_, hrest, rfl⟩⟩

theorem forall₂_moves (h : moveAgents g now agents stock = .ok (moved, stock', c)) :
    List.Forall₂ (Moves g) agents moved := by
  induction agents generalizing moved stock c with
  | nil =>
    obtain ⟨rfl, -⟩ := Prod.mk.inj (Except.ok.inj h)
    exact .nil
  | cons a agents ih =>
    obtain ⟨arrival?, b, stock₁, here, rest, c₁, ha, -, hrest, rfl, -⟩ :=
      moveAgents_cons_eq_ok_iff.mp h
    exact .cons ⟨arrival?, ha, rfl⟩ (ih hrest)

/-- What an agent does in the second phase, whether it executes, and what is noted of it. -/
def act (p : Program) (g : Grid) (frames : UInt32) (now : Tick) :
    Agent × Bool → Except Fault (Agent × Nat × Chronicle)
  | (a, true) => .ok (a, 0, .empty)
  | (a, false) => do
    let (d?, b) ← a.execute p g frames
    match d? with
    | none => return (b, 0, .empty)
    | some d => return (b, 1, ⟨finishEvents now b, a.decisionEntries p d⟩)

/-- The second phase takes the agents one after the other. -/
theorem dispatchAgents_cons_eq_ok_iff {m : Agent × Bool} :
    dispatchAgents p g frames now (m :: moved) = .ok (agents, count, c) ↔
      ∃ b n here rest k c₁, act p g frames now m = .ok (b, n, here) ∧
        dispatchAgents p g frames now moved = .ok (rest, k, c₁) ∧
        agents = b :: rest ∧ count = k + n ∧ c = here ++ c₁ := by
  obtain ⟨a, flag⟩ := m
  cases flag with
  | true =>
    rw [dispatchAgents, bind_eq_ok_iff]
    constructor
    · rintro ⟨⟨rest, k, c₁⟩, hrest, hpure⟩
      obtain ⟨rfl, rfl, rfl⟩ := by simpa using pure_eq_ok_iff.mp hpure
      exact ⟨a, 0, .empty, rest, k, c₁, rfl, hrest, rfl, rfl, rfl⟩
    · rintro ⟨b, n, here, rest, k, c₁, hact, hrest, rfl, rfl, rfl⟩
      obtain ⟨rfl, rfl, rfl⟩ := by simpa [act] using hact
      exact ⟨_, hrest, rfl⟩
  | false =>
    rw [dispatchAgents, bind_eq_ok_iff]
    constructor
    · rintro ⟨⟨d?, b⟩, hb, h⟩
      obtain ⟨⟨rest, k, c₁⟩, hrest, hpure⟩ := bind_eq_ok_iff.mp h
      cases d? with
      | none =>
        obtain ⟨rfl, rfl, rfl⟩ := by simpa using pure_eq_ok_iff.mp hpure
        exact ⟨b, 0, .empty, rest, k, c₁, bind_eq_ok_iff.mpr ⟨_, hb, rfl⟩, hrest, rfl, rfl, rfl⟩
      | some d =>
        obtain ⟨rfl, rfl, rfl⟩ := by simpa using pure_eq_ok_iff.mp hpure
        exact ⟨b, 1, _, rest, k, c₁, bind_eq_ok_iff.mpr ⟨_, hb, rfl⟩, hrest, rfl, rfl, rfl⟩
    · rintro ⟨b, n, here, rest, k, c₁, hact, hrest, rfl, rfl, rfl⟩
      obtain ⟨⟨d?, b'⟩, hb, hpure⟩ := bind_eq_ok_iff.mp hact
      cases d? with
      | none =>
        obtain ⟨rfl, rfl, rfl⟩ := by simpa using pure_eq_ok_iff.mp hpure
        exact ⟨_, hb, bind_eq_ok_iff.mpr ⟨_, hrest, rfl⟩⟩
      | some d =>
        obtain ⟨rfl, rfl, rfl⟩ := by simpa using pure_eq_ok_iff.mp hpure
        exact ⟨_, hb, bind_eq_ok_iff.mpr ⟨_, hrest, rfl⟩⟩

theorem exists_act_iff {m : Agent × Bool} {n : Nat} :
    (∃ here, act p g frames now m = .ok (b, n, here)) ↔
      Dispatches p g frames m b ∧ n = if isDue m then 1 else 0 := by
  obtain ⟨a, flag⟩ := m
  cases flag with
  | true =>
    show (∃ here, Except.ok (a, 0, Chronicle.empty) = .ok (b, n, here)) ↔ b = a ∧ n = 0
    constructor
    · rintro ⟨here, h⟩
      obtain ⟨rfl, rfl, -⟩ := by simpa using h
      exact ⟨rfl, rfl⟩
    · rintro ⟨rfl, rfl⟩
      exact ⟨_, rfl⟩
  | false =>
    show (∃ here, act p g frames now (a, false) = .ok (b, n, here)) ↔
      (∃ d?, a.execute p g frames = .ok (d?, b)) ∧ n = if a.isExecuting then 1 else 0
    by_cases hphase : a.phase = .executing
    · rw [if_pos (isExecuting_iff.mpr hphase), act]
      constructor
      · rintro ⟨here, h⟩
        obtain ⟨⟨d?, b'⟩, hb, hpure⟩ := bind_eq_ok_iff.mp h
        obtain ⟨o, -, rfl, -⟩ := (execute_eq_ok_iff hphase).mp hb
        obtain ⟨rfl, rfl, -⟩ := by simpa using pure_eq_ok_iff.mp hpure
        exact ⟨⟨_, hb⟩, rfl⟩
      · rintro ⟨⟨d?, hb⟩, rfl⟩
        obtain ⟨o, -, rfl, -⟩ := (execute_eq_ok_iff hphase).mp hb
        exact ⟨_, bind_eq_ok_iff.mpr ⟨_, hb, rfl⟩⟩
    · have hact : act p g frames now (a, false) = .ok (a, 0, .empty) := by
        rw [act, execute_of_ne hphase]
        rfl
      rw [if_neg (mt isExecuting_iff.mp hphase), execute_of_ne hphase, hact]
      constructor
      · rintro ⟨here, h⟩
        obtain ⟨rfl, rfl, -⟩ := by simpa using h
        exact ⟨⟨none, rfl⟩, rfl⟩
      · rintro ⟨⟨d?, hb⟩, rfl⟩
        obtain ⟨rfl, rfl⟩ := Prod.mk.inj (Except.ok.inj hb)
        exact ⟨_, rfl⟩

theorem forall₂_dispatches (h : dispatchAgents p g frames now moved = .ok (agents, count, c)) :
    List.Forall₂ (Dispatches p g frames) moved agents ∧ count = moved.countP isDue := by
  induction moved generalizing agents count c with
  | nil =>
    obtain ⟨rfl, rfl, -⟩ := by simpa [dispatchAgents] using h
    exact ⟨.nil, rfl⟩
  | cons m moved ih =>
    obtain ⟨b, n, here, rest, k, c₁, hact, hrest, rfl, rfl, -⟩ :=
      dispatchAgents_cons_eq_ok_iff.mp h
    obtain ⟨hb, rfl⟩ := exists_act_iff.mp ⟨here, hact⟩
    obtain ⟨hdispatched, rfl⟩ := ih hrest
    rw [List.countP_cons]
    exact ⟨.cons hb hdispatched, rfl⟩

/-! ### Whole ticks -/

theorem step_eq_ok_iff : s.step = .ok (count, t, c) ↔
    ∃ moved stock c₁ agents c₂ clock,
      moveAgents s.board.grid s.clock s.world.agents s.world.stock = .ok (moved, stock, c₁) ∧
      dispatchAgents s.program s.board.grid s.config.moveFrames s.clock moved =
        .ok (agents, count, c₂) ∧
      s.clock.next = .ok clock ∧
      t = { s with world := ⟨agents, stock⟩, clock, unreported := [] } ∧
      c = .ofEvents (.tickStart s.clock :: s.pendingEvents) ++ c₁ ++ c₂ ++
        .ofEvents (.tickEnd s.clock count ::
          if isSnapshotTick s.config.snapshotInterval s.clock then
            [.snapshot s.clock ⟨agents, stock⟩]
          else []) := by
  unfold step
  dsimp only
  rw [bind_eq_ok_iff]
  constructor
  · rintro ⟨⟨moved, stock, c₁⟩, hmoved, h⟩
    obtain ⟨⟨agents, n, c₂⟩, hagents, h⟩ := bind_eq_ok_iff.mp h
    obtain ⟨clock, hclock, hpure⟩ := bind_eq_ok_iff.mp h
    obtain ⟨rfl, rfl, rfl⟩ := by simpa using pure_eq_ok_iff.mp hpure
    exact ⟨moved, stock, c₁, agents, c₂, clock, hmoved, hagents, hclock, rfl, rfl⟩
  · rintro ⟨moved, stock, c₁, agents, c₂, clock, hmoved, hagents, hclock, rfl, rfl⟩
    exact ⟨_, hmoved, bind_eq_ok_iff.mpr ⟨_, hagents, bind_eq_ok_iff.mpr ⟨_, hclock, rfl⟩⟩⟩

/-- A tick lets every agent do what it would do alone, and counts those that execute. -/
theorem mapM_live_of_step (hs : ∀ a ∈ s.world.agents, a.Coherent)
    (h : s.step = .ok (count, t, c)) :
    s.world.agents.mapM (Agent.live s.program s.board.grid s.config.moveFrames) =
        .ok t.world.agents ∧
      count = s.world.agents.countP Agent.isExecuting := by
  obtain ⟨moved, stock, c₁, agents, c₂, clock, hmoved, hagents, -, rfl, -⟩ := step_eq_ok_iff.mp h
  obtain ⟨hdispatched, rfl⟩ := forall₂_dispatches hagents
  have hmoves := forall₂_moves hmoved
  rw [mapM_eq_ok_iff]
  show List.Forall₂ _ s.world.agents agents ∧ _
  -- the two passes are joined agent by agent
  generalize s.world.agents = before at hs hmoves
  clear h hmoved hagents
  induction hmoves generalizing agents with
  | nil =>
    obtain rfl := List.forall₂_nil_left_iff.mp hdispatched
    exact ⟨.nil, rfl⟩
  | @cons a m before moved ha hmoves ih =>
    obtain ⟨b, agents', hb, hrest, rfl⟩ := List.forall₂_cons_left_iff.mp hdispatched
    have hcoherent := hs a List.mem_cons_self
    obtain ⟨hlives, hcount⟩ := ih agents' hrest fun a ha => hs a (List.mem_cons_of_mem _ ha)
    refine ⟨.cons (hcoherent.live_eq_ok_iff.mpr ⟨m, ha, hb⟩) hlives, ?_⟩
    rw [List.countP_cons, List.countP_cons, hcount, hcoherent.isDue_eq ha]

theorem forall₂_lives_of_step (hs : ∀ a ∈ s.world.agents, a.Coherent)
    (h : s.step = .ok (count, t, c)) :
    List.Forall₂ (Agent.Lives s.program s.board.grid s.config.moveFrames) s.world.agents
      t.world.agents := by
  have hlive := mapM_eq_ok_iff.mp (mapM_live_of_step hs h).1
  have hboth := (List.forall₂_and_left _ _).mpr ⟨hs, hlive⟩
  exact hboth.imp fun a b hab => hab.1.lives hab.2

theorem coherent_of_step (hs : ∀ a ∈ s.world.agents, a.Coherent)
    (h : s.step = .ok (count, t, c)) : ∀ b ∈ t.world.agents, b.Coherent := by
  intro b hb
  obtain ⟨a, ha, hab⟩ := exists_mem_of_forall₂ (forall₂_lives_of_step hs h) hb
  exact hab.coherent (hs a ha)

end Simulation

end TileWalk
