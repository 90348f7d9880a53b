import TileWalk.Proofs.Agent.Control
import TileWalk.Proofs.Simulation.Progress

/-!
# Moves only take time

How many ticks a move takes decides when an agent executes its nodes, and nothing else. What an
agent executes in some ticks is kept in a log (`Simulation.dispatchLog`), which has no more and no
less than what the ticks do (`Simulation.Sound.refresh_apply_of_dispatch?`,
`Simulation.Sound.count_eq_of_step`). The log is the beginning of an itinerary that knows of no
ticks, and the moments are those at which the agent comes to its stations
(`Simulation.Sound.exists_paced`). So two runs with moves of different lengths go through the same
nodes, each at its own pace (`Simulation.Reachable.same_dispatches`).
-/

namespace TileWalk

open Outcome

/-! ### What an agent executes in a run -/

namespace Simulation

variable {s t : Simulation} {c : Chronicle} {i n count : Nat} {a : Agent}

/-- What the agent with number `i` executes in the tick that is processed next, whatever signals
wait: it executes in the second phase, unless it arrived in the first. -/
def dispatch? (s : Simulation) (i : Nat) : Except Fault (Option Dispatch) := do
  let (moved, _, _) ← moveAgents s.board.grid s.clock s.world.agents s.world.stock
  match moved[i]? with
  | some (a, false) =>
    let (decision?, _) ← a.execute s.program s.board.grid s.config.moveFrames
    match decision? with
    | some decision =>
      let openings ← Openings.around s.board.grid a.pos a.facing
      return some ⟨a.cursor, a.pos, a.facing, openings, decision⟩
    | none => return none
  | _ => return none

/-- What the agent with number `i` executes in the next `n` ticks, and when. -/
def dispatchLog (i : Nat) (s : Simulation) : Nat → Except Fault (List (Tick × Dispatch))
  | 0 => .ok []
  | n + 1 => do
    let (s, _) ← s.drain
    let dispatch? ← s.dispatch? i
    let (_, t, _) ← s.step
    let rest ← t.dispatchLog i n
    return (dispatch?.map (s.clock, ·)).toList ++ rest

/-- An agent executes in a tick if it was executing when the tick began. -/
theorem Sound.dispatch?_eq (hs : s.Sound) (ha : s.world.agents[i]? = some a) :
    s.dispatch? i = .ok (a.dispatch? s.program) := by
  have hsound := hs.agents a (List.mem_of_getElem? ha)
  obtain ⟨moved, stock, c, hmoved⟩ :=
    exists_moveAgents hs.board.small hs.agents hs.counted s.clock
  obtain ⟨m, hm, hmoves⟩ := exists_getElem?_of_forall₂ (forall₂_moves hmoved) ha
  have hlive := hsound.exists_live hs.board.small s.config.moveFrames
  unfold dispatch? Agent.dispatch?
  rw [hmoved]
  dsimp only [bind, Except.bind]
  rw [hm]
  cases hphase : a.phase with
  | idle =>
    obtain rfl := (Agent.moves_iff_of_motion_none (hsound.of_idle hphase).2).mp hmoves
    have hne : a.phase ≠ .executing := by simp [hphase]
    dsimp only
    rw [Agent.execute_of_ne hne, if_neg (mt Agent.isExecuting_iff.mp hne)]
    rfl
  | executing =>
    obtain rfl := (Agent.moves_iff_of_motion_none (hsound.of_executing hphase).1).mp hmoves
    obtain ⟨b, hb⟩ := hlive
    obtain ⟨d?, hd⟩ := (Agent.live_eq_ok_iff_of_executing hphase).mp hb
    obtain ⟨o, ho, rfl, -⟩ := (Agent.execute_eq_ok_iff hphase).mp hd
    obtain rfl := Except.ok.inj (ho.symm.trans hsound.openings_eq)
    dsimp only
    rw [hd, if_pos (Agent.isExecuting_iff.mpr hphase)]
    dsimp only
    rw [ho]
    rfl
  | moving sequel =>
    obtain ⟨-, -, motion, hmotion, -⟩ := hsound.of_moving sequel hphase
    have hne : a.phase ≠ .executing := by simp [hphase]
    rw [if_neg (mt Agent.isExecuting_iff.mp hne)]
    obtain ⟨b, flag⟩ := m
    obtain ⟨arrival?, hadvance, rfl⟩ := hmoves
    -- who has arrived is passed over, and who has not is still moving
    cases arrival? with
    | some arrival => rfl
    | none =>
      dsimp only [Option.isSome]
      rw [Agent.execute_of_ne (Agent.phase_ne_of_advance_none hphase hmotion hadvance)]
      rfl

/-- What an agent executes is what the tick makes it do. -/
theorem Sound.refresh_apply_of_dispatch? {b : Agent} {x : Dispatch} (hs : s.Sound)
    (ht : s.step = .ok (count, t, c)) (ha : s.world.agents[i]? = some a)
    (hb : t.world.agents[i]? = some b) (hx : s.dispatch? i = .ok (some x)) :
    (a.apply x.decision s.config.moveFrames).refresh s.board.grid = .ok b := by
  rw [hs.dispatch?_eq ha, Agent.dispatch?] at hx
  split_ifs at hx with hexecuting
  · obtain rfl := Option.some.inj (Except.ok.inj hx)
    have hlive := (mapM_live_of_step hs.coherent ht).1
    obtain ⟨b', hb', hab⟩ := exists_getElem?_of_forall₂ (mapM_eq_ok_iff.mp hlive) ha
    obtain rfl := Option.some.inj (hb'.symm.trans hb)
    have hphase := Agent.isExecuting_iff.mp hexecuting
    obtain ⟨d?, hd⟩ := (Agent.live_eq_ok_iff_of_executing hphase).mp hab
    obtain ⟨o, ho, -, happly⟩ := (Agent.execute_eq_ok_iff hphase).mp hd
    obtain rfl := Except.ok.inj
      (ho.symm.trans (hs.agents a (List.mem_of_getElem? ha)).openings_eq)
    exact happly
  · cases hx

/-- As many agents execute something as observers are told when the tick ends. -/
theorem Sound.count_eq_of_step (hs : s.Sound) (ht : s.step = .ok (count, t, c)) :
    count = (s.world.agents.filterMap (Agent.dispatch? s.program)).length := by
  rw [(mapM_live_of_step hs.coherent ht).2, List.length_filterMap_eq_countP]
  refine List.countP_congr fun a _ => ?_
  unfold Agent.dispatch?
  cases a.isExecuting <;> simp

theorem dispatchLog_succ_eq_ok_iff (hq : s.queue = []) {log : List (Tick × Dispatch)} :
    s.dispatchLog i (n + 1) = .ok log ↔ ∃ dispatch? count t c rest, s.dispatch? i = .ok dispatch? ∧
      s.step = .ok (count, t, c) ∧ t.dispatchLog i n = .ok rest ∧
        log = (dispatch?.map (s.clock, ·)).toList ++ rest := by
  rw [dispatchLog, drain_of_queue_nil hq]
  show (s.dispatch? i >>= _) = _ ↔ _
  rw [bind_eq_ok_iff]
  constructor
  · rintro ⟨dispatch?, hdispatch, h⟩
    obtain ⟨⟨count, t, c⟩, ht, h⟩ := bind_eq_ok_iff.mp h
    obtain ⟨rest, hrest, hpure⟩ := bind_eq_ok_iff.mp h
    exact ⟨dispatch?, count, t, c, rest, hdispatch, ht, hrest, (pure_eq_ok_iff.mp hpure).symm⟩
  · rintro ⟨dispatch?, count, t, c, rest, hdispatch, ht, hrest, rfl⟩
    exact ⟨_, hdispatch, bind_eq_ok_iff.mpr ⟨_, ht, bind_eq_ok_iff.mpr ⟨_, hrest, rfl⟩⟩⟩

end Simulation

/-! ### When an agent executes -/

/-- How many of the nodes that were executed began a move. -/
def movesOf (log : List (Tick × Dispatch)) : Nat :=
  log.countP fun e => e.2.isMove

theorem movesOf_cons (e : Tick × Dispatch) (log : List (Tick × Dispatch)) :
    movesOf (e :: log) = movesOf log + if e.2.isMove then 1 else 0 :=
  List.countP_cons

/-- What an agent has executed in `n` ticks, beginning at tick `now` with `r` ticks before it comes
to a station, if a move takes `frames` ticks. The agent is `b` now, and heads in `r'` ticks for the
station after the nodes that it has executed. -/
structure Paced (p : Program) (g : Grid) (frames : Nat) (st : Station) (now r n : Nat)
    (log : List (Tick × Dispatch)) (b : Agent) (r' : Nat) : Prop where
  itinerary : log.map Prod.snd = st.itinerary p g log.length
  heads : b.Heads (st.after p g log.length) r'
  /-- A node is executed after as many ticks as nodes before it, and the ticks of their moves. -/
  tick_eq : ∀ (k : Nat) (tick : Tick) (x : Dispatch), log[k]? = some (tick, x) →
    tick.count.toNat = now + r + k + frames * movesOf (log.take k)
  /-- All ticks are accounted for, unless the agent rests. -/
  total : n + r' = r + log.length + frames * movesOf log ∨
    r' = 0 ∧ (st.after p g log.length).dispatch? p g = none ∧
      r + log.length + frames * movesOf log ≤ n

namespace Paced

variable {p : Program} {g : Grid} {frames now r n r' : Nat} {st : Station}
  {log : List (Tick × Dispatch)} {b : Agent}

theorem zero (h : b.Heads st r) : Paced p g frames st now r 0 [] b r where
  itinerary := rfl
  heads := h
  tick_eq _ _ _ he := nomatch he
  total := .inl (by simp [movesOf])

/-- A tick of a move comes before everything else. -/
theorem travel (h : Paced p g frames st (now + 1) r n log b r') :
    Paced p g frames st now (r + 1) (n + 1) log b r' where
  itinerary := h.itinerary
  heads := h.heads
  tick_eq k tick x he := by
    have htick := h.tick_eq k tick x he
    omega
  total := by
    rcases h.total with hbusy | ⟨hzero, hlast, hle⟩
    · exact .inl (by omega)
    · exact .inr ⟨hzero, hlast, by omega⟩

/-- Nothing happens any more at the last station. -/
theorem rest (h : Paced p g frames st (now + 1) 0 n log b r') (hlast : st.dispatch? p g = none) :
    Paced p g frames st now 0 (n + 1) log b r' := by
  have hnil : log = [] := by
    have hnone := h.itinerary
    rw [Station.itinerary_of_none hlast] at hnone
    exact List.map_eq_nil_iff.mp hnone
  subst hnil
  refine ⟨rfl, h.heads, fun _ _ _ he => (nomatch he), .inr ⟨?_, hlast, Nat.zero_le _⟩⟩
  rcases h.total with hbusy | ⟨hzero, -⟩
  · simp only [movesOf, List.length_nil, List.countP_nil] at hbusy
    omega
  · exact hzero

/-- A node is executed before everything else. -/
theorem dispatch {x : Dispatch} {tick : Tick} (hx : st.dispatch? p g = some x)
    (htick : tick.count.toNat = now)
    (h : Paced p g frames x.station (now + 1) (if x.isMove then frames else 0) n log b r') :
    Paced p g frames st now 0 (n + 1) ((tick, x) :: log) b r' where
  itinerary := by
    rw [List.map_cons, List.length_cons, Station.itinerary_succ_of_some hx, h.itinerary]
  heads := by
    rw [List.length_cons, Station.after_succ_of_some hx]
    exact h.heads
  tick_eq k tick' x' he := by
    cases k with
    | zero =>
      obtain ⟨rfl, -⟩ := Prod.mk.inj (Option.some.inj he)
      simp [movesOf, htick]
    | succ k =>
      have hlater := h.tick_eq k tick' x' he
      rw [List.take_succ_cons, movesOf_cons, hlater]
      cases x.isMove <;> simp [Nat.mul_add] <;> omega
  total := by
    rw [List.length_cons, Station.after_succ_of_some hx, movesOf_cons]
    rcases h.total with hbusy | ⟨hzero, hlast, hle⟩
    · exact .inl (by cases hmove : x.isMove <;> simp [hmove, Nat.mul_add] at hbusy ⊢ <;> omega)
    · refine .inr ⟨hzero, hlast, ?_⟩
      cases hmove : x.isMove <;> simp [hmove, Nat.mul_add] at hle ⊢ <;> omega

/-! ### Which nodes, and how many -/

variable {k : Nat} {x : Dispatch}

theorem movesOf_take (h : Paced p g frames st now r n log b r') (hk : k ≤ log.length) :
    movesOf (log.take k) = st.moves p g k := by
  have hmap : movesOf (log.take k) = ((log.take k).map Prod.snd).countP Dispatch.isMove := by
    rw [List.countP_map]
    rfl
  rw [hmap, List.map_take, h.itinerary, Station.take_itinerary hk]
  rfl

theorem movesOf_eq (h : Paced p g frames st now r n log b r') :
    movesOf log = st.moves p g log.length := by
  have htake := h.movesOf_take (Nat.le_refl log.length)
  rwa [List.take_length] at htake

/-- The node with number `k` is the one that is executed at the station after `k` nodes. -/
theorem map_getElem? (h : Paced p g frames st now r n log b r') (hk : k < log.length) :
    log[k]?.map Prod.snd = (st.after p g k).dispatch? p g := by
  rw [← List.getElem?_map, h.itinerary, Station.getElem?_itinerary hk]

/-- No node is executed after the last station. -/
theorem length_le (h : Paced p g frames st now r n log b r')
    (hlast : (st.after p g k).dispatch? p g = none) : log.length ≤ k := by
  by_contra hlt
  have hk := Nat.lt_of_not_le hlt
  have hnode := h.map_getElem? hk
  rw [hlast, List.getElem?_eq_getElem hk] at hnode
  cases hnode

/-- A node has been executed if its tick has passed. -/
theorem lt_length (h : Paced p g frames st now r n log b r')
    (hx : (st.after p g k).dispatch? p g = some x) (hn : r + k + frames * st.moves p g k < n) :
    k < log.length := by
  by_contra hle
  have hle := Nat.le_of_not_lt hle
  have hmore : st.moves p g log.length ≤ st.moves p g k := Station.moves_le_moves hle
  have hmoves := Nat.mul_le_mul_left frames hmore
  rcases h.total with hbusy | ⟨-, hlast, -⟩
  · rw [h.movesOf_eq] at hbusy
    omega
  · rw [Station.dispatch?_after_of_le hlast hle] at hx
    cases hx

/-- Where no node is left, all have been executed after as many ticks as nodes and the ticks of
their moves, and the agent stands at the last station. -/
theorem length_eq (h : Paced p g frames st now r n log b r')
    (hlast : (st.after p g k).dispatch? p g = none)
    (hnodes : ∀ j < k, (st.after p g j).dispatch? p g ≠ none)
    (hn : r + k + frames * st.moves p g k ≤ n) : log.length = k ∧ r' = 0 := by
  have hle := h.length_le hlast
  have hmore : st.moves p g log.length ≤ st.moves p g k := Station.moves_le_moves hle
  have hmoves := Nat.mul_le_mul_left frames hmore
  rcases h.total with hbusy | ⟨hzero, hend, -⟩
  · rw [h.movesOf_eq] at hbusy
    constructor <;> omega
  · refine ⟨Nat.le_antisymm hle (Nat.le_of_not_lt fun hlt => hnodes _ hlt hend), hzero⟩

/-! ### Two paces -/

variable {frames' now' r₁ n' r₁' : Nat} {log' : List (Tick × Dispatch)} {b' : Agent} {tick : Tick}

/-- What is executed at one pace is executed at another one too, as soon as its tick has passed. -/
theorem exists_getElem? (h : Paced p g frames st now r n log b r')
    (h' : Paced p g frames' st now' r₁ n' log' b' r₁') (hx : log[k]? = some (tick, x))
    (hn : r₁ + k + frames' * movesOf (log.take k) < n') : ∃ tick', log'[k]? = some (tick', x) := by
  obtain ⟨hk, -⟩ := List.getElem?_eq_some_iff.mp hx
  have hnode := h.map_getElem? hk
  rw [hx] at hnode
  rw [h.movesOf_take (Nat.le_of_lt hk)] at hn
  have hnode' := (h'.map_getElem? (h'.lt_length hnode.symm hn)).trans hnode.symm
  obtain ⟨⟨tick', _⟩, hx', rfl⟩ := Option.map_eq_some_iff.mp hnode'
  exact ⟨tick', hx'⟩

/-- Who comes to rest at one pace comes to the same rest at another one. -/
theorem rests (h : Paced p g frames st now r n log b r')
    (h' : Paced p g frames' st now' r₁ n' log' b' r₁') (hidle : b.phase = .idle)
    (hn : r₁ + log.length + frames' * movesOf log ≤ n') :
    log'.map Prod.snd = log.map Prod.snd ∧ b'.phase = .idle ∧ b'.finished = b.finished ∧
      b'.pos = b.pos ∧ b'.facing = b.facing := by
  obtain ⟨rfl, reason, hreason⟩ := h.heads.of_idle hidle
  have hlast : (st.after p g log.length).dispatch? p g = none := by
    rw [Station.dispatch?, hreason]
  have hnodes : ∀ j < log.length, (st.after p g j).dispatch? p g ≠ none := by
    intro j hj hnone
    have hnode := h.map_getElem? hj
    rw [hnone, List.getElem?_eq_getElem hj] at hnode
    cases hnode
  rw [h.movesOf_eq] at hn
  obtain ⟨hlength, rfl⟩ := h'.length_eq hlast hnodes hn
  have hheads' := h'.heads
  rw [hlength] at hheads'
  obtain ⟨hpos, hfacing, hfollows⟩ := h.heads
  obtain ⟨hpos', hfacing', hfollows'⟩ := hheads'
  rw [hreason] at hfollows hfollows'
  refine ⟨?_, hfollows'.1, hfollows'.2.trans hfollows.2.symm, hpos'.trans hpos.symm,
    hfacing'.trans hfacing.symm⟩
  rw [h'.itinerary, h.itinerary, hlength]

end Paced

/-! ### From a start on -/

/-- Where an agent stands when a run begins. -/
def Agent.outset (p : Program) (a : Agent) : Station :=
  ⟨a.pos, a.facing, match p.root with
    | some root => .resume (some root)
    | none => .finish .endOfProgram⟩

theorem Agent.heads_begun (p : Program) (a : Agent) : (a.begun p).Heads (a.outset p) 0 := by
  unfold begun outset
  cases p.root with
  | some root => exact ⟨rfl, rfl, rfl, rfl⟩
  | none => exact a.heads_zero_follow (.finish .endOfProgram)

namespace Simulation

variable {s s' t : Simulation} {c : Chronicle} {i n n' : Nat} {a : Agent} {st : Station} {r : Nat}

/-- Whatever station an agent heads for, it goes on from there as the itinerary says. -/
theorem Sound.exists_paced (hs : s.Sound) (hq : s.queue = [])
    (hframes : 1 ≤ s.config.moveFrames.toNat) (hend : s.clock.count.toNat + n < 2 ^ 64)
    (ha : s.world.agents[i]? = some a) (hheads : a.Heads st r) :
    ∃ log counts t c b r', s.dispatchLog i n = .ok log ∧ s.tickMany n = .ok (counts, t, c) ∧
      t.world.agents[i]? = some b ∧
      Paced s.program s.board.grid s.config.moveFrames.toNat st s.clock.count.toNat r n log b
        r' := by
  induction n generalizing s a st r with
  | zero => exact ⟨[], _, s, _, a, r, rfl, rfl, ha, .zero hheads⟩
  | succ n ih =>
    obtain ⟨count, u, c₁, hu⟩ := hs.exists_step (by omega)
    obtain ⟨hconfig, hboard, hprogram, hqueue, hclock⟩ := frame_of_step hu
    obtain ⟨b, hb, hlives⟩ := exists_getElem?_of_forall₂ (forall₂_lives_of_step hs.coherent hu) ha
    have hsound := hs.agents a (List.mem_of_getElem? ha)
    have hdispatch := hs.dispatch?_eq ha
    have htick := (tick_of_queue_nil hq).trans hu
    -- what comes after this tick is a run from where the agent then heads
    have hlater : ∀ {due? : Option Dispatch} {st' : Station} {r₁ : Nat},
        s.dispatch? i = .ok due? → b.Heads st' r₁ →
        (∀ {log b' r'}, Paced s.program s.board.grid s.config.moveFrames.toNat st'
            (s.clock.count.toNat + 1) r₁ n log b' r' →
          Paced s.program s.board.grid s.config.moveFrames.toNat st s.clock.count.toNat r (n + 1)
            ((due?.map (s.clock, ·)).toList ++ log) b' r') →
        ∃ log counts t c b' r', s.dispatchLog i (n + 1) = .ok log ∧
          s.tickMany (n + 1) = .ok (counts, t, c) ∧ t.world.agents[i]? = some b' ∧
          Paced s.program s.board.grid s.config.moveFrames.toNat st s.clock.count.toNat r (n + 1)
            log b' r' := by
      intro due? st' r₁ hdue hb' hpaced
      have hrest := ih (hs.step hu) (hqueue.trans hq) (hconfig ▸ hframes) (by omega) hb hb'
      rw [hconfig, hboard, hprogram, hclock] at hrest
      obtain ⟨log, counts, t, c₂, b', r', hlog, ht, hlast, hrest⟩ := hrest
      exact ⟨_, _, t, _, b', r',
        (dispatchLog_succ_eq_ok_iff hq).mpr ⟨_, _, _, _, log, hdue, hu, hlog, rfl⟩,
        tickMany_succ_eq_ok_iff.mpr ⟨_, _, _, _, _, htick, ht, rfl, rfl⟩, hlast, hpaced hrest⟩
    cases r with
    | succ r =>
      rw [Agent.dispatch?_of_heads_succ hheads] at hdispatch
      exact hlater hdispatch (hlives.heads_travel hsound hheads) Paced.travel
    | zero =>
      have hdue := hsound.dispatch?_eq hheads
      rw [hdue] at hdispatch
      cases hx : st.dispatch? s.program s.board.grid with
      | none =>
        rw [hx] at hdispatch
        exact hlater hdispatch (hlives.heads_rest hheads hx) fun hrest => hrest.rest hx
      | some x =>
        rw [hx] at hdispatch
        exact hlater hdispatch (hlives.heads_dispatch hsound hframes (hdue.trans hx))
          fun hrest => .dispatch hx rfl hrest

/-- Every starting place has its agent, and what it is to do there at first can be done. -/
theorem Sound.exists_outset (hs : s.Sound) {w : World} (hw : World.ofBoard s.board = .ok w)
    (hi : i < s.board.spawns.length) :
    ∃ a, w.agents[i]? = some a ∧ (a.outset s.program).IsOn s.program s.board.grid := by
  obtain ⟨a, ha, -⟩ := World.exists_agent_of_ofBoard hw (List.getElem?_eq_getElem hi)
  have hmem := List.mem_of_getElem? (getElem?_begun s ha)
  have hsound := (Sound.of_begun hs.board hs.program hw).agents _ hmem
  exact ⟨a, ha, hsound.isOn (a.heads_begun s.program)⟩

/-- A start takes an agent to its starting place, and from there it goes as the itinerary says. -/
theorem Sound.exists_paced_of_start (hs : s.Sound) (hq : s.queue = [])
    (hframes : 1 ≤ s.config.moveFrames.toNat) (hend : s.clock.count.toNat + n < 2 ^ 64) {w : World}
    (hw : World.ofBoard s.board = .ok w) (ha : w.agents[i]? = some a) :
    ∃ s₁ c₁ log counts t c b r, s.start = .ok (s₁, c₁) ∧ s₁.dispatchLog i n = .ok log ∧
      s₁.tickMany n = .ok (counts, t, c) ∧ t.world.agents[i]? = some b ∧
      Paced s.program s.board.grid s.config.moveFrames.toNat (a.outset s.program)
        s.clock.count.toNat 0 n log b r := by
  obtain ⟨c₁, hstart⟩ := exists_start_iff.mpr ⟨w, hw, rfl⟩
  obtain ⟨log, counts, t, c, b, r, hlog, ht, hb, hpaced⟩ :=
    (Sound.of_begun hs.board hs.program hw).exists_paced hq hframes hend (getElem?_begun s ha)
      (a.heads_begun s.program)
  exact ⟨_, c₁, log, counts, t, c, b, r, hstart, hlog, ht, hb, hpaced⟩

/-- Two simulations with one board and one program are started, and make moves of different lengths.
An agent executes the same nodes in both, in the same places and with the same outcome, however
many ticks this takes; if it comes to rest in one, it comes to rest in the other one too, in the
same place and for the same reason. It executes the node with number `k` in the tick that comes as
many ticks after the start as nodes were executed before it, and as their moves took. -/
theorem Reachable.same_dispatches (h : s.Reachable) (h' : s'.Reachable)
    (hboard : s'.board = s.board) (hprogram : s'.program = s.program) (hq : s.queue = [])
    (hq' : s'.queue = []) (hframes : 1 ≤ s.config.moveFrames.toNat)
    (hframes' : 1 ≤ s'.config.moveFrames.toNat) (hi : i < s.board.spawns.length)
    (hend : s.clock.count.toNat + n < 2 ^ 64) (hend' : s'.clock.count.toNat + n' < 2 ^ 64) :
    ∃ s₁ c₁ log counts t c a s₁' c₁' log' counts' t' c' a',
      (s.start = .ok (s₁, c₁) ∧ s₁.dispatchLog i n = .ok log ∧
        s₁.tickMany n = .ok (counts, t, c) ∧ t.world.agents[i]? = some a) ∧
      (s'.start = .ok (s₁', c₁') ∧ s₁'.dispatchLog i n' = .ok log' ∧
        s₁'.tickMany n' = .ok (counts', t', c') ∧ t'.world.agents[i]? = some a') ∧
      (∀ (k : Nat) (tick : Tick) (x : Dispatch), log[k]? = some (tick, x) →
        tick.count.toNat =
          s.clock.count.toNat + k + s.config.moveFrames.toNat * movesOf (log.take k)) ∧
      (∀ (k : Nat) (tick : Tick) (x : Dispatch), log[k]? = some (tick, x) →
        k + s'.config.moveFrames.toNat * movesOf (log.take k) < n' →
          ∃ tick', log'[k]? = some (tick', x)) ∧
      (a.isIdle = true → log.length + s'.config.moveFrames.toNat * movesOf log ≤ n' →
        log'.map Prod.snd = log.map Prod.snd ∧ a'.isIdle = true ∧ a'.finished = a.finished ∧
          a'.pos = a.pos ∧ a'.facing = a.facing) := by
  have hs := h.sound
  obtain ⟨w, hw⟩ := World.exists_ofBoard hs.board
  have hlt : i < w.agents.length := by
    rw [← List.length_map (f := Agent.id), World.map_id_of_ofBoard hw]
    simpa using hi
  have ha := List.getElem?_eq_getElem hlt
  obtain ⟨s₁, c₁, log, counts, t, c, b, r, hstart, hlog, ht, hb, hpaced⟩ :=
    hs.exists_paced_of_start hq hframes hend hw ha
  obtain ⟨s₁', c₁', log', counts', t', c', b', r', hstart', hlog', ht', hb', hpaced'⟩ :=
    h'.sound.exists_paced_of_start hq' hframes' hend' (hboard ▸ hw) ha
  rw [hboard, hprogram] at hpaced'
  refine ⟨s₁, c₁, log, counts, t, c, b, s₁', c₁', log', counts', t', c', b',
    ⟨hstart, hlog, ht, hb⟩, ⟨hstart', hlog', ht', hb'⟩, hpaced.tick_eq,
    fun k tick x hx hn => hpaced.exists_getElem? hpaced' hx (by omega), fun hidle hn => ?_⟩
  obtain ⟨hnodes, hphase, hrest⟩ :=
    hpaced.rests hpaced' (Agent.isIdle_iff.mp hidle) (by omega)
  exact ⟨hnodes, Agent.isIdle_iff.mpr hphase, hrest⟩

/-- In the corridor the agent comes to rest after three ticks, and after five if a move takes three
of them; it executes the same two nodes. -/
theorem same_dispatches_corridor : ∃ s s' s₁ s₁' : Simulation, s.Reachable ∧ s'.Reachable ∧
    s.config.moveFrames = 1 ∧ s'.config.moveFrames = 3 ∧ (∃ c, s.start = .ok (s₁, c)) ∧
    (∃ c, s'.start = .ok (s₁', c)) ∧ ∃ log log', s₁.dispatchLog 0 3 = .ok log ∧
      s₁'.dispatchLog 0 5 = .ok log' ∧ log'.map Prod.snd = log.map Prod.snd ∧
      log.length = 2 ∧ movesOf log = 1 := by
  have hslow := reachable_corridor.perform
    (show (Request.configure ⟨3, 100, 0⟩).IsAdmissible from trivial) rfl
  obtain ⟨s₁, c₁, log, counts, t, c, a, s₁', c₁', log', counts', t', c', a',
    ⟨hstart, hlog, ht, ha⟩, ⟨hstart', hlog', -⟩, -, -, hrest⟩ :=
    reachable_corridor.same_dispatches (i := 0) hslow rfl rfl rfl rfl (by decide) (by decide)
      (by decide) (show 0 + 3 < 2 ^ 64 by decide) (show 0 + 5 < 2 ^ 64 by decide)
  have hstarted := hstart
  cases hstart
  have hlogged := hlog
  cases hlog
  cases ht
  cases ha
  obtain ⟨hnodes, -⟩ := hrest rfl (by decide)
  exact ⟨_, _, _, s₁', reachable_corridor, hslow, rfl, rfl, ⟨_, hstarted⟩, ⟨c₁', hstart'⟩, _, log',
    hlogged, hlog', hnodes, rfl, rfl⟩

end Simulation

end TileWalk
