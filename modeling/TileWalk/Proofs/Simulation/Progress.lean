import TileWalk.Proofs.Simulation.Sound
import TileWalk.Simulation.Run

/-!
# Going on

A simulation can always do what it is asked to, as long as the clock does not run out: a board that
is proper has a world (`World.exists_ofBoard`), a sound simulation can process a tick
(`Simulation.Sound.exists_step`), and it can process any number of ticks that the clock can count
(`Simulation.Sound.exists_tickMany`).
-/

namespace TileWalk

open Outcome

/-! ### New worlds -/

namespace World

theorem exists_spawnAll {g : Grid} (hg : g.IsSmall) {spawns : List Spawn}
    (hs : ∀ s ∈ spawns, g.isWalkable s.pos = true) (n : Nat) :
    ∃ agents, spawnAll g n spawns = .ok agents := by
  induction spawns generalizing n with
  | nil => exact ⟨[], rfl⟩
  | cons s spawns ih =>
    have hon := Grid.contains_of_isWalkable (hs s List.mem_cons_self)
    obtain ⟨o, ho⟩ := Openings.exists_around hg hon s.facing
    obtain ⟨agents, hagents⟩ := ih (fun s hmem => hs s (List.mem_cons_of_mem _ hmem)) (n + 1)
    obtain ⟨a, ha⟩ : ∃ a, Agent.spawn (Ident.ofIndex n) s g = .ok a :=
      ⟨_, Agent.spawn_eq_ok_iff.mpr ⟨o, ho, rfl⟩⟩
    exact ⟨_, bind_eq_ok_iff.mpr ⟨a, ha, bind_eq_ok_iff.mpr ⟨agents, hagents, rfl⟩⟩⟩

theorem exists_ofBoard {b : Board} (hb : b.IsProper) : ∃ w, ofBoard b = .ok w := by
  obtain ⟨agents, hagents⟩ := exists_spawnAll hb.small hb.spawn_walkable 0
  obtain ⟨stock, hstock⟩ := (Stock.isCounted_ofBoard b).exists_collectAll (b.spawns.map Spawn.pos)
  exact ⟨⟨agents, stock⟩, ofBoard_eq_ok_iff.mpr ⟨hagents, hstock⟩⟩

end World

namespace Simulation

open Agent

variable {s t : Simulation} {count : Nat} {c : Chronicle}

theorem exists_start (hs : s.board.IsProper) : ∃ t c, s.start = .ok (t, c) := by
  obtain ⟨w, hw⟩ := World.exists_ofBoard hs
  obtain ⟨c, hc⟩ := exists_start_iff.mpr ⟨w, hw, rfl⟩
  exact ⟨_, c, hc⟩

theorem exists_reset (hs : s.board.IsProper) : ∃ t c, s.reset = .ok (t, c) := by
  obtain ⟨w, hw⟩ := World.exists_ofBoard hs
  obtain ⟨c, hc⟩ := exists_reset_iff.mpr ⟨w, hw, rfl⟩
  exact ⟨_, c, hc⟩

theorem exists_load (hs : s.board.IsProper) (program : Program) :
    ∃ t c, s.load program = .ok (t, c) := by
  obtain ⟨w, hw⟩ := World.exists_ofBoard hs
  obtain ⟨c, hc⟩ := exists_load_iff.mpr ⟨w, hw, rfl⟩
  exact ⟨_, c, hc⟩

/-! ### Signals -/

/-- What a signal leaves alone. -/
theorem frame_of_carryOut {signal : Signal} (h : s.carryOut signal = .ok (t, c)) :
    t.config = s.config ∧ t.clock = s.clock ∧ t.board = s.board ∧ t.queue = s.queue := by
  cases signal with
  | load program =>
    obtain ⟨w, -, rfl⟩ := exists_load_iff.mp ⟨c, h⟩
    exact ⟨rfl, rfl, rfl, rfl⟩
  | start =>
    obtain ⟨w, -, rfl⟩ := exists_start_iff.mp ⟨c, h⟩
    exact ⟨rfl, rfl, rfl, rfl⟩
  | reset =>
    obtain ⟨w, -, rfl⟩ := exists_reset_iff.mp ⟨c, h⟩
    exact ⟨rfl, rfl, rfl, rfl⟩

theorem exists_carryOut (hs : s.board.IsProper) (signal : Signal) :
    ∃ t c, s.carryOut signal = .ok (t, c) := by
  cases signal with
  | load program => exact exists_load hs program
  | start => exact exists_start hs
  | reset => exact exists_reset hs

theorem carryOutAll_cons_eq_ok_iff {signal : Signal} {signals : List Signal} :
    s.carryOutAll (signal :: signals) = .ok (t, c) ↔ ∃ u c₁ c₂,
      s.carryOut signal = .ok (u, c₁) ∧ u.carryOutAll signals = .ok (t, c₂) ∧
        c = .ofEntries [entry .debug "signal" [("signal", .text signal.name)]] ++ c₁ ++ c₂ := by
  rw [carryOutAll, bind_eq_ok_iff]
  constructor
  · rintro ⟨⟨u, c₁⟩, hu, h⟩
    obtain ⟨⟨t', c₂⟩, ht, hpure⟩ := bind_eq_ok_iff.mp h
    obtain ⟨rfl, rfl⟩ := Prod.mk.inj (pure_eq_ok_iff.mp hpure)
    exact ⟨u, c₁, c₂, hu, ht, rfl⟩
  · rintro ⟨u, c₁, c₂, hu, ht, rfl⟩
    exact ⟨_, hu, bind_eq_ok_iff.mpr ⟨_, ht, rfl⟩⟩

/-- Observers are told nothing while signals are carried out. -/
theorem events_of_carryOutAll {signals : List Signal}
    (h : s.carryOutAll signals = .ok (t, c)) : c.events = [] := by
  induction signals generalizing s c with
  | nil =>
    obtain ⟨-, rfl⟩ := Prod.mk.inj (Except.ok.inj h)
    rfl
  | cons signal signals ih =>
    obtain ⟨u, c₁, c₂, hu, ht, rfl⟩ := carryOutAll_cons_eq_ok_iff.mp h
    rw [Chronicle.events_append, Chronicle.events_append, events_of_carryOut hu, ih ht]
    rfl

theorem carryOutAll_with {signals : List Signal} (h : s.carryOutAll signals = .ok (t, c))
    (config : Config) (queue : List Signal) :
    { s with config, queue }.carryOutAll signals = .ok ({ t with config, queue }, c) := by
  induction signals generalizing s c with
  | nil =>
    obtain ⟨rfl, rfl⟩ := Prod.mk.inj (Except.ok.inj h)
    rfl
  | cons signal signals ih =>
    obtain ⟨u, c₁, c₂, hu, ht, rfl⟩ := carryOutAll_cons_eq_ok_iff.mp h
    exact carryOutAll_cons_eq_ok_iff.mpr ⟨_, c₁, c₂, carryOut_with hu config queue, ih ht, rfl⟩

theorem frame_of_carryOutAll {signals : List Signal} (h : s.carryOutAll signals = .ok (t, c)) :
    t.config = s.config ∧ t.clock = s.clock ∧ t.board = s.board ∧ t.queue = s.queue := by
  induction signals generalizing s c with
  | nil =>
    obtain ⟨rfl, -⟩ := Prod.mk.inj (Except.ok.inj h)
    exact ⟨rfl, rfl, rfl, rfl⟩
  | cons signal signals ih =>
    obtain ⟨u, c₁, c₂, hu, ht, -⟩ := carryOutAll_cons_eq_ok_iff.mp h
    obtain ⟨hconfig, hclock, hboard, hqueue⟩ := frame_of_carryOut hu
    obtain ⟨hconfig', hclock', hboard', hqueue'⟩ := ih ht
    exact ⟨hconfig'.trans hconfig, hclock'.trans hclock, hboard'.trans hboard,
      hqueue'.trans hqueue⟩

theorem exists_carryOutAll (hs : s.board.IsProper) (signals : List Signal) :
    ∃ t c, s.carryOutAll signals = .ok (t, c) := by
  induction signals generalizing s with
  | nil => exact ⟨s, _, rfl⟩
  | cons signal signals ih =>
    obtain ⟨u, c₁, hu⟩ := exists_carryOut hs signal
    obtain ⟨-, -, hboard, -⟩ := frame_of_carryOut hu
    obtain ⟨t, c₂, ht⟩ := ih (hboard ▸ hs)
    exact ⟨t, _, carryOutAll_cons_eq_ok_iff.mpr ⟨u, c₁, c₂, hu, ht, rfl⟩⟩

/-- After the waiting signals have been carried out none waits. -/
theorem frame_of_drain (h : s.drain = .ok (t, c)) :
    t.config = s.config ∧ t.clock = s.clock ∧ t.board = s.board ∧ t.queue = [] :=
  frame_of_carryOutAll (s := { s with queue := [] }) h

/-- The waiting signals can always be carried out. -/
theorem exists_drain (hs : s.board.IsProper) :
    ∃ t c, s.drain = .ok (t, c) ∧ t.config = s.config ∧ t.clock = s.clock ∧
      t.board = s.board ∧ t.queue = [] := by
  obtain ⟨t, c, ht⟩ := exists_carryOutAll (s := { s with queue := [] }) hs s.queue
  exact ⟨t, c, ht, frame_of_drain ht⟩

/-! ### Ticks -/

theorem exists_moveAgents {p : Program} {g : Grid} (hg : g.IsSmall) {agents : List Agent}
    (ha : ∀ a ∈ agents, a.Sound p g) {stock : Stock} (hstock : stock.IsCounted) (now : Tick) :
    ∃ moved stock' c, moveAgents g now agents stock = .ok (moved, stock', c) := by
  induction agents generalizing stock with
  | nil => exact ⟨_, _, _, rfl⟩
  | cons a agents ih =>
    have hrest := fun a hmem => ha a (List.mem_cons_of_mem _ hmem)
    obtain ⟨arrival?, b, hb⟩ := (ha a List.mem_cons_self).exists_advance hg
    obtain ⟨stock₁, here, hland, hcounted⟩ :
        ∃ stock₁ here, land now b stock arrival? = .ok (stock₁, here) ∧ stock₁.IsCounted := by
      cases arrival? with
      | none => exact ⟨stock, .empty, rfl, hstock⟩
      | some arrival =>
        obtain ⟨ids, stock₁, hids⟩ := hstock.exists_collectAt arrival.pos
        exact ⟨stock₁, _, bind_eq_ok_iff.mpr ⟨_, hids, rfl⟩, hstock.collectAt hids⟩
    obtain ⟨moved, stock', c, hmoved⟩ := ih hrest hcounted
    exact ⟨_, _, _, moveAgents_cons_eq_ok_iff.mpr
      ⟨arrival?, b, stock₁, here, moved, c, hb, hland, hmoved, rfl, rfl⟩⟩

theorem exists_dispatchAgents {p : Program} {g : Grid} {frames : UInt32}
    {moved : List (Agent × Bool)} (hm : ∀ m ∈ moved, ∃ b, Dispatches p g frames m b) (now : Tick) :
    ∃ agents count c, dispatchAgents p g frames now moved = .ok (agents, count, c) := by
  induction moved with
  | nil => exact ⟨_, _, _, rfl⟩
  | cons m moved ih =>
    obtain ⟨b, hb⟩ := hm m List.mem_cons_self
    obtain ⟨here, hact⟩ := exists_act_iff.mpr ⟨hb, rfl⟩
    obtain ⟨agents, count, c, hagents⟩ := ih fun m hmem => hm m (List.mem_cons_of_mem _ hmem)
    exact ⟨_, _, _, dispatchAgents_cons_eq_ok_iff.mpr
      ⟨b, _, here, agents, count, c, hact, hagents, rfl, rfl, rfl⟩⟩

/-- A sound simulation can process a tick that the clock can count. -/
theorem Sound.exists_step (hs : s.Sound) (hclock : s.clock.count.toNat + 1 < 2 ^ 64) :
    ∃ count t c, s.step = .ok (count, t, c) := by
  have hg := hs.board.small
  obtain ⟨moved, stock, c₁, hmoved⟩ := exists_moveAgents hg hs.agents hs.counted s.clock
  -- an agent that can go on alone can go on in both phases
  have hdispatches : ∀ m ∈ moved, ∃ b,
      Dispatches s.program s.board.grid s.config.moveFrames m b := by
    intro m hmem
    obtain ⟨a, ha, hmoves⟩ := exists_mem_of_forall₂ (forall₂_moves hmoved) hmem
    obtain ⟨b, hb⟩ := (hs.agents a ha).exists_live hg s.config.moveFrames
    obtain ⟨m', hmoves', hb⟩ := (hs.coherent a ha).live_eq_ok_iff.mp hb
    rw [moves_unique hmoves hmoves']
    exact ⟨b, hb⟩
  obtain ⟨agents, count, c₂, hagents⟩ := exists_dispatchAgents hdispatches s.clock
  obtain ⟨clock, hnext⟩ : ∃ clock, s.clock.next = .ok clock := by
    refine ⟨⟨UInt64.ofNat (s.clock.count.toNat + 1)⟩, Tick.next_eq_ok_iff.mpr ?_⟩
    exact UInt64.toNat_ofNat_of_lt' hclock
  exact ⟨_, _, _, step_eq_ok_iff.mpr
    ⟨moved, stock, c₁, agents, c₂, clock, hmoved, hagents, hnext, rfl, rfl⟩⟩

/-- What a tick leaves alone, and the clock. -/
theorem frame_of_step (h : s.step = .ok (count, t, c)) :
    t.config = s.config ∧ t.board = s.board ∧ t.program = s.program ∧ t.queue = s.queue ∧
      t.clock.count.toNat = s.clock.count.toNat + 1 := by
  obtain ⟨_, _, _, _, _, clock, -, -, hclock, rfl, -⟩ := step_eq_ok_iff.mp h
  exact ⟨rfl, rfl, rfl, rfl, Tick.next_eq_ok_iff.mp hclock⟩

/-- After a tick nobody is left to be reported. -/
theorem unreported_of_step (h : s.step = .ok (count, t, c)) : t.unreported = [] := by
  obtain ⟨_, _, _, _, _, _, -, -, -, rfl, -⟩ := step_eq_ok_iff.mp h
  rfl

/-! ### Ticks without signals -/

theorem drain_of_queue_nil (hq : s.queue = []) : s.drain = .ok (s, .empty) := by
  unfold drain
  rw [hq]
  show Except.ok (_, _) = _
  rw [← hq]

theorem tick_of_queue_nil (hq : s.queue = []) : s.tick = s.step := by
  unfold tick
  rw [drain_of_queue_nil hq]
  show (s.step >>= fun x => pure (x.1, x.2.1, .empty ++ x.2.2)) = s.step
  cases s.step <;> rfl

theorem tickMany_succ_eq_ok_iff {counts : List Nat} {k : Nat} :
    s.tickMany (k + 1) = .ok (counts, t, c) ↔
      ∃ count u c₁ rest c₂, s.tick = .ok (count, u, c₁) ∧ u.tickMany k = .ok (rest, t, c₂) ∧
        counts = count :: rest ∧ c = c₁ ++ c₂ := by
  rw [tickMany, bind_eq_ok_iff]
  constructor
  · rintro ⟨⟨count, u, c₁⟩, hu, h⟩
    obtain ⟨⟨rest, t', c₂⟩, ht, hpure⟩ := bind_eq_ok_iff.mp h
    obtain ⟨rfl, rfl, rfl⟩ := by simpa using pure_eq_ok_iff.mp hpure
    exact ⟨count, u, c₁, rest, c₂, hu, ht, rfl, rfl⟩
  · rintro ⟨count, u, c₁, rest, c₂, hu, ht, rfl, rfl⟩
    exact ⟨_, hu, bind_eq_ok_iff.mpr ⟨_, ht, rfl⟩⟩

/-! ### Runs -/

/-- A run stops as soon as nothing moves, and reports who is left to be reported. -/
theorem runFor_succ_of_not_isRunning {ready : Simulation} {bound : Nat}
    (hready : s.drain = .ok (ready, c)) (hrunning : ready.isRunning = false) :
    s.runFor (bound + 1) =
      .ok (0, { ready with unreported := [] }, c ++ .ofEvents ready.pendingEvents) := by
  have hstops : ¬ ready.isRunning = true := by simp [hrunning]
  rw [runFor, hready]
  dsimp only [bind, Except.bind]
  rw [if_neg hstops]
  rfl

/-- As long as something moves, a run goes on with a tick. -/
theorem runFor_succ_of_isRunning {ready u : Simulation} {c₁ c₂ c₃ : Chronicle} {bound ticks : Nat}
    (hready : s.drain = .ok (ready, c₁)) (hrunning : ready.isRunning = true)
    (hu : ready.step = .ok (count, u, c₂)) (ht : u.runFor bound = .ok (ticks, t, c₃)) :
    s.runFor (bound + 1) = .ok (ticks + 1, t, c₁ ++ (c₂ ++ c₃)) := by
  rw [runFor, hready]
  dsimp only [bind, Except.bind]
  rw [if_pos hrunning, hu]
  dsimp only
  rw [ht]
  rfl

theorem runFor_succ_eq_ok_iff {bound k : Nat} : s.runFor (bound + 1) = .ok (k, t, c) ↔
    ∃ ready c₀, s.drain = .ok (ready, c₀) ∧
      (ready.isRunning = false ∧ k = 0 ∧ t = { ready with unreported := [] } ∧
          c = c₀ ++ .ofEvents ready.pendingEvents ∨
        ready.isRunning = true ∧ ∃ count u c₁ l c₂, ready.step = .ok (count, u, c₁) ∧
          u.runFor bound = .ok (l, t, c₂) ∧ k = l + 1 ∧ c = c₀ ++ (c₁ ++ c₂)) := by
  constructor
  · intro h
    rw [runFor, bind_eq_ok_iff] at h
    obtain ⟨⟨ready, c₀⟩, hready, hround⟩ := h
    refine ⟨ready, c₀, hready, ?_⟩
    dsimp only at hround
    split_ifs at hround with hrunning
    · obtain ⟨⟨count, u, c₁⟩, hu, hround⟩ := bind_eq_ok_iff.mp hround
      obtain ⟨⟨l, t', c₂⟩, ht, hpure⟩ := bind_eq_ok_iff.mp hround
      obtain ⟨rfl, rfl, rfl⟩ := by simpa using pure_eq_ok_iff.mp hpure
      exact Or.inr ⟨hrunning, count, u, c₁, l, c₂, hu, ht, rfl, rfl⟩
    · obtain ⟨rfl, rfl, rfl⟩ := by simpa using pure_eq_ok_iff.mp hround
      exact Or.inl ⟨by simpa using hrunning, rfl, rfl, rfl⟩
  · rintro ⟨ready, c₀, hready, ⟨hrunning, rfl, rfl, rfl⟩ |
      ⟨hrunning, count, u, c₁, l, c₂, hu, ht, rfl, rfl⟩⟩
    · exact runFor_succ_of_not_isRunning hready hrunning
    · exact runFor_succ_of_isRunning hready hrunning hu ht

/-! ### Many ticks -/

/-- What ticks leave alone if no signal waits, and the clock. -/
theorem frame_of_tickMany (hq : s.queue = []) {k : Nat} {counts : List Nat}
    (h : s.tickMany k = .ok (counts, t, c)) :
    t.config = s.config ∧ t.board = s.board ∧ t.program = s.program ∧ t.queue = [] ∧
      t.clock.count.toNat = s.clock.count.toNat + k := by
  induction k generalizing s counts c with
  | zero =>
    obtain ⟨-, rfl, -⟩ := by simpa [tickMany] using h
    exact ⟨rfl, rfl, rfl, hq, rfl⟩
  | succ k ih =>
    obtain ⟨count, u, c₁, rest, c₂, hu, ht, -, -⟩ := tickMany_succ_eq_ok_iff.mp h
    rw [tick_of_queue_nil hq] at hu
    obtain ⟨hconfig, hboard, hprogram, hqueue, hnext⟩ := frame_of_step hu
    obtain ⟨hconfig', hboard', hprogram', hqueue', hlast⟩ := ih (hqueue.trans hq) ht
    exact ⟨hconfig'.trans hconfig, hboard'.trans hboard, hprogram'.trans hprogram, hqueue', by omega⟩

/-- A sound simulation can process as many ticks as the clock can count. -/
theorem Sound.exists_tickMany (hs : s.Sound) (hq : s.queue = []) {k : Nat}
    (hclock : s.clock.count.toNat + k < 2 ^ 64) :
    ∃ counts t c, s.tickMany k = .ok (counts, t, c) := by
  induction k generalizing s with
  | zero => exact ⟨_, _, _, rfl⟩
  | succ k ih =>
    obtain ⟨count, u, c₁, hu⟩ := hs.exists_step (by omega)
    obtain ⟨-, -, -, hqueue, hnext⟩ := frame_of_step hu
    obtain ⟨rest, t, c₂, ht⟩ := ih (hs.step hu) (hqueue.trans hq) (by omega)
    rw [← tick_of_queue_nil hq] at hu
    exact ⟨_, _, _, tickMany_succ_eq_ok_iff.mpr ⟨count, u, c₁, rest, c₂, hu, ht, rfl, rfl⟩⟩

/-- Ticks keep a simulation sound if no signal waits. -/
theorem Sound.tickMany (hs : s.Sound) (hq : s.queue = []) {n : Nat}
    {counts : List Nat} (ht : s.tickMany n = .ok (counts, t, c)) : t.Sound := by
  induction n generalizing s counts c with
  | zero =>
    obtain ⟨-, rfl, -⟩ := by simpa [Simulation.tickMany] using ht
    exact hs
  | succ n ih =>
    obtain ⟨count, u, c₁, rest, c₂, hu, ht, -, -⟩ := tickMany_succ_eq_ok_iff.mp ht
    rw [tick_of_queue_nil hq] at hu
    have hqueue := (frame_of_step hu).2.2.2.1
    exact ih (hs.step hu) (hqueue.trans hq) ht

end Simulation

end TileWalk
