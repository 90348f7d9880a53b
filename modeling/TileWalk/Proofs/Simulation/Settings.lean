import TileWalk.Proofs.Simulation.Pace

/-!
# Ticks under changing settings

Between two ticks a host may assign other settings. What is seen at the beginning of each of some
ticks, every one of them under settings of its own, is kept in a log (`Simulation.logUnder`). As
long as no signal waits, neither the board nor the program changes then, and the simulation stays
sound (`Simulation.Sound.keeps_of_logUnder`).

Whatever the settings are, an agent executes the nodes of its itinerary, one after the other
(`Simulation.Sound.exists_traced`).
-/

namespace TileWalk

open Outcome

namespace Simulation

variable {β : Type} {look : Simulation → Except Fault (Option β)} {s t : Simulation} {i : Nat}
  {config : Config} {configs later : List Config} {log : List (Tick × β)}

/-! ### Logs -/

/-- Processes one tick under each of some settings in turn. What is seen after the waiting signals
have been carried out is kept with the tick. -/
def logUnder (look : Simulation → Except Fault (Option β)) (s : Simulation) :
    List Config → Except Fault (List (Tick × β) × Simulation)
  | [] => .ok ([], s)
  | config :: later => do
    let (ready, _) ← { s with config }.drain
    let seen? ← look ready
    let (_, t, _) ← ready.step
    let (log, t) ← t.logUnder look later
    return ((seen?.map (ready.clock, ·)).toList ++ log, t)

/-- The simulation under other settings. -/
def configured (s : Simulation) (config : Config) : Simulation :=
  { s with config }

theorem logUnder_nil_eq_ok_iff : s.logUnder look [] = .ok (log, t) ↔ log = [] ∧ t = s := by
  constructor
  · intro h
    obtain ⟨rfl, rfl⟩ := Prod.mk.inj (Except.ok.inj h)
    exact ⟨rfl, rfl⟩
  · rintro ⟨rfl, rfl⟩
    rfl

theorem logUnder_cons_eq_ok_iff (hq : s.queue = []) :
    s.logUnder look (config :: later) = .ok (log, t) ↔ ∃ seen? count u c rest,
      look (s.configured config) = .ok seen? ∧
        (s.configured config).step = .ok (count, u, c) ∧ u.logUnder look later = .ok (rest, t) ∧
          log = (seen?.map (s.clock, ·)).toList ++ rest := by
  have hdrain : (s.configured config).drain = .ok (s.configured config, .empty) :=
    drain_of_queue_nil hq
  rw [logUnder]
  show (s.configured config).drain >>= _ = _ ↔ _
  rw [hdrain, bind_eq_ok_iff]
  constructor
  · rintro ⟨⟨ready, c₀⟩, hready, h⟩
    obtain ⟨rfl, -⟩ := Prod.mk.inj (Except.ok.inj hready)
    obtain ⟨seen?, hseen, h⟩ := bind_eq_ok_iff.mp h
    obtain ⟨⟨count, u, c⟩, hu, h⟩ := bind_eq_ok_iff.mp h
    obtain ⟨⟨rest, t'⟩, hrest, hpure⟩ := bind_eq_ok_iff.mp h
    obtain ⟨rfl, rfl⟩ := Prod.mk.inj (pure_eq_ok_iff.mp hpure)
    exact ⟨seen?, count, u, c, rest, hseen, hu, hrest, rfl⟩
  · rintro ⟨seen?, count, u, c, rest, hseen, hu, hrest, rfl⟩
    exact ⟨_, rfl, bind_eq_ok_iff.mpr ⟨seen?, hseen, bind_eq_ok_iff.mpr ⟨_, hu,
      bind_eq_ok_iff.mpr ⟨_, hrest, rfl⟩⟩⟩⟩

theorem Sound.configured (hs : s.Sound) (config : Config) : (s.configured config).Sound :=
  ⟨hs.board, hs.program, hs.ids, hs.agents, hs.counted⟩

/-- What is the same after some ticks under any settings, if no signal waits. -/
structure Keeps (s t : Simulation) (n : Nat) : Prop where
  sound : t.Sound
  queue_eq : t.queue = []
  board_eq : t.board = s.board
  program_eq : t.program = s.program
  clock_eq : t.clock.count.toNat = s.clock.count.toNat + n

theorem Sound.keeps_of_step (hs : s.Sound) (hq : s.queue = []) {count : Nat} {c : Chronicle}
    (h : (s.configured config).step = .ok (count, t, c)) : s.Keeps t 1 := by
  obtain ⟨-, hboard, hprogram, hqueue, hclock⟩ := frame_of_step h
  exact ⟨(hs.configured config).step h, hqueue.trans hq, hboard, hprogram, hclock⟩

theorem Keeps.trans {u : Simulation} {m n : Nat} (h : s.Keeps t m) (h' : t.Keeps u n) :
    s.Keeps u (m + n) where
  sound := h'.sound
  queue_eq := h'.queue_eq
  board_eq := h'.board_eq.trans h.board_eq
  program_eq := h'.program_eq.trans h.program_eq
  clock_eq := by
    have hfirst := h.clock_eq
    have hsecond := h'.clock_eq
    omega

theorem Sound.keeps_of_logUnder (hs : s.Sound) (hq : s.queue = [])
    (h : s.logUnder look configs = .ok (log, t)) : s.Keeps t configs.length := by
  induction configs generalizing s log with
  | nil =>
    obtain ⟨-, rfl⟩ := logUnder_nil_eq_ok_iff.mp h
    exact ⟨hs, hq, rfl, rfl, rfl⟩
  | cons config later ih =>
    obtain ⟨seen?, count, u, c, rest, -, hu, hrest, -⟩ := (logUnder_cons_eq_ok_iff hq).mp h
    have hfirst := hs.keeps_of_step hq hu
    have hall := hfirst.trans (ih hfirst.sound hfirst.queue_eq hrest)
    rwa [Nat.add_comm] at hall

/-- What a tick under any settings makes of an agent. -/
theorem Sound.exists_step_configured (hs : s.Sound) (hq : s.queue = []) (config : Config)
    (hclock : s.clock.count.toNat + 1 < 2 ^ 64) {a : Agent} (ha : s.world.agents[i]? = some a) :
    ∃ count u c b, (s.configured config).step = .ok (count, u, c) ∧ s.Keeps u 1 ∧
      u.world.agents[i]? = some b ∧ a.Sound s.program s.board.grid ∧
      a.Lives s.program s.board.grid config.moveFrames b := by
  have hconfigured := hs.configured config
  obtain ⟨count, u, c, hu⟩ := hconfigured.exists_step hclock
  have hlives := forall₂_lives_of_step hconfigured.coherent hu
  obtain ⟨b, hb, hab⟩ := exists_getElem?_of_forall₂ hlives ha
  have hsound := hs.agents a (List.mem_of_getElem? ha)
  exact ⟨count, u, c, b, hu, hs.keeps_of_step hq hu, hb, hsound, hab⟩

end Simulation

/-! ### What an agent executes -/

/-- What an agent has executed from a station on, before which it had `r` ticks of a move left. The
agent is `b` now, and has `r'` ticks left before it comes to the next station. -/
structure Traced (p : Program) (g : Grid) (st : Station) (r : Nat) (log : List (Tick × Dispatch))
    (b : Agent) (r' : Nat) : Prop where
  itinerary : log.map Prod.snd = st.itinerary p g log.length
  heads : b.Heads (st.after p g log.length) r'
  waits : log = [] → r' ≤ r
  /-- Only a move takes time. -/
  moves : ∀ e, log.getLast? = some e → e.2.isMove = false → r' = 0

namespace Traced

variable {p : Program} {g : Grid} {st : Station} {r r' j : Nat} {log : List (Tick × Dispatch)}
  {b : Agent} {x : Dispatch}

theorem zero (h : b.Heads st r) : Traced p g st r [] b r where
  itinerary := rfl
  heads := h
  waits _ := Nat.le_refl r
  moves _ he := nomatch he

theorem travel (h : Traced p g st r log b r') : Traced p g st (r + 1) log b r' where
  itinerary := h.itinerary
  heads := h.heads
  waits hnil := Nat.le_succ_of_le (h.waits hnil)
  moves := h.moves

theorem dispatch {tick : Tick} {n : Nat} (hx : st.dispatch? p g = some x)
    (hstay : x.isMove = false → n = 0) (h : Traced p g x.station n log b r') :
    Traced p g st 0 ((tick, x) :: log) b r' where
  itinerary := by
    rw [List.map_cons, List.length_cons, Station.itinerary_succ_of_some hx, h.itinerary]
  heads := by
    rw [List.length_cons, Station.after_succ_of_some hx]
    exact h.heads
  waits hnil := nomatch hnil
  moves e he hmove := by
    cases hlog : log with
    | nil =>
      rw [hlog] at he
      obtain rfl := Option.some.inj he
      have hwaits := h.waits hlog
      have hzero := hstay hmove
      omega
    | cons first rest =>
      rw [hlog, List.getLast?_cons_cons, ← hlog] at he
      exact h.moves e he hmove

/-- The node with number `j` is the one that is executed at the station after `j` nodes. -/
theorem exists_dispatch? (h : Traced p g st r log b r') (hj : j < log.length) :
    ∃ e, log[j]? = some e ∧ (st.after p g j).dispatch? p g = some e.2 := by
  have hentry : (log.map Prod.snd)[j]? = (st.after p g j).dispatch? p g := by
    rw [h.itinerary]
    exact Station.getElem?_itinerary hj
  rw [List.getElem?_map, List.getElem?_eq_getElem hj] at hentry
  exact ⟨log[j], List.getElem?_eq_getElem hj, hentry.symm⟩

end Traced

namespace Simulation

variable {s : Simulation} {i : Nat} {configs : List Config} {a : Agent} {st : Station} {r : Nat}

/-- Whatever the settings are, an agent executes what the itinerary says. -/
theorem Sound.exists_traced (hs : s.Sound) (hq : s.queue = [])
    (hend : s.clock.count.toNat + configs.length < 2 ^ 64) (ha : s.world.agents[i]? = some a)
    (hheads : a.Heads st r) : ∃ log t b r',
      s.logUnder (fun u => u.dispatch? i) configs = .ok (log, t) ∧
        t.world.agents[i]? = some b ∧ Traced s.program s.board.grid st r log b r' := by
  induction configs generalizing s a st r with
  | nil => exact ⟨[], s, a, r, rfl, ha, .zero hheads⟩
  | cons config later ih =>
    rw [List.length_cons] at hend
    obtain ⟨count, u, c, b, hu, hkeeps, hb, hsound, hlives⟩ :=
      hs.exists_step_configured hq config (by omega) ha
    have hclock := hkeeps.clock_eq
    have hdispatch : (s.configured config).dispatch? i = .ok (a.dispatch? s.program) :=
      (hs.configured config).dispatch?_eq ha
    -- what comes after this tick are ticks from where the agent then heads
    have hlater : ∀ {st' : Station} {r₁ : Nat}, b.Heads st' r₁ →
        (∀ {log b' r'}, Traced s.program s.board.grid st' r₁ log b' r' →
          Traced s.program s.board.grid st r
            (((a.dispatch? s.program).map (s.clock, ·)).toList ++ log) b' r') →
        ∃ log t b' r', s.logUnder (fun u => u.dispatch? i) (config :: later) = .ok (log, t) ∧
          t.world.agents[i]? = some b' ∧ Traced s.program s.board.grid st r log b' r' := by
      intro st' r₁ hb' htraced
      have hrest := ih hkeeps.sound hkeeps.queue_eq (by omega) hb hb'
      rw [hkeeps.program_eq, hkeeps.board_eq] at hrest
      obtain ⟨log, t, b', r', hlog, hlast, hrest⟩ := hrest
      exact ⟨_, t, b', r', (logUnder_cons_eq_ok_iff hq).mpr ⟨_, _, _, _, _, hdispatch, hu, hlog, rfl⟩,
        hlast, htraced hrest⟩
    cases r with
    | succ r =>
      have hnone : a.dispatch? s.program = none := Agent.dispatch?_of_heads_succ hheads
      rw [hnone] at hlater
      exact hlater (hlives.heads_travel hsound hheads) Traced.travel
    | zero =>
      have hdue := hsound.dispatch?_eq hheads
      rw [hdue] at hlater
      cases hx : st.dispatch? s.program s.board.grid with
      | none =>
        rw [hx] at hlater
        exact hlater (hlives.heads_rest hheads hx) id
      | some x =>
        rw [hx] at hlater
        refine hlater (hlives.heads_station hsound (hdue.trans hx)) ?_
        intro log b' r' hrest
        refine .dispatch hx ?_ hrest
        intro hstay
        simp [hstay]

end Simulation

end TileWalk
