import TileWalk.Proofs.Simulation.Settings

/-!
# One cell for each move

A move that has begun takes the ticks that the settings said then, whatever they say later
(`Simulation.Sound.exists_stride`): until the last of them the agent stays where it is and executes
nothing, and on the last one it comes to the next cell and goes on with the sequel.

So an agent does not leave its cell for more than the next one in a tick (`Agent.Lives.pos_eq_or`),
and between two arrivals there is the tick of a dispatch and the whole second move
(`Simulation.Sound.spaced_of_logUnder`).
-/

namespace TileWalk

open Outcome

namespace Agent

variable {p : Program} {g : Grid} {frames : UInt32} {a b : Agent} {m : Motion} {sequel : Sequel}
  {x : Dispatch} {since now : Nat}

/-! ### One tick of a move -/

/-- A node that begins a move lets the agent stay where it is, on its way ahead. -/
theorem Lives.eq_of_isMove (hs : a.Sound p g) (h : Lives p g frames a b)
    (hx : a.dispatch? p = some x) (hmove : x.isMove = true) :
    b.pos = a.pos ∧ b.facing = a.facing ∧ b.phase = .moving x.decision.sequel ∧
      b.motion = some (Motion.start a.pos a.facing.vector frames) := by
  unfold dispatch? at hx
  split_ifs at hx with hexecuting
  have hphase := isExecuting_iff.mp hexecuting
  obtain rfl := Option.some.inj hx
  obtain ⟨⟨action, sequel⟩, hd⟩ : ∃ d, p.decide a.cursor a.facing a.openings = d := ⟨_, rfl⟩
  rw [hd] at hmove ⊢
  cases action with
  | move dir =>
    obtain ⟨rfl, -⟩ := Program.decide_move (congrArg Decision.action hd)
    obtain rfl := h.of_move hphase hs.openings_eq hd
    exact ⟨rfl, rfl, rfl, rfl⟩
  | turn facing => cases hmove
  | none => cases hmove
  | blocked => cases hmove

/-- Before its last tick a move only gets shorter. -/
theorem Lives.travels (h : Lives p g frames a b) (hphase : a.phase = .moving sequel)
    (hm : a.motion = some m) (hmore : 1 < m.remaining.toNat) :
    b = { a with motion := some m.advance } ∧ a.advance g = .ok (none, b) := by
  have hover : m.advance.isOver = false := by
    have hremaining := m.toNat_remaining_advance
    rw [Motion.isOver_eq_false_iff]
    omega
  have hb := h.of_not_isOver hphase hm hover
  refine ⟨hb, ?_⟩
  rw [hb]
  exact advance_of_not_isOver hm hover

/-- On its last tick a move leads to the next cell ahead, and the agent goes on. -/
theorem Lives.arrives (hs : a.Sound p g) (h : Lives p g frames a b)
    (hphase : a.phase = .moving sequel) (hm : a.motion = some m)
    (hlast : m.remaining.toNat = 1) :
    a.pos.add a.facing.vector = .ok b.pos ∧ b.facing = a.facing ∧ b.Follows sequel ∧
      a.advance g = .ok (some ⟨b.pos, m.total, sequel⟩, b) := by
  have hremaining := m.toNat_remaining_advance
  have hover : m.advance.isOver = true := by
    rw [Motion.isOver_iff]
    omega
  obtain ⟨goal, ticks, o, hgoal, hticks, ho, rfl⟩ := h.of_isOver hphase hm hover
  have htotal : ticks = m.total := by
    have hsum : ticks.toNat + m.advance.remaining.toNat = m.total.toNat :=
      Checked.sub32_eq_ok_iff.mp hticks
    apply UInt32.toNat_inj.mp
    omega
  have hsequel := sequelOnArrival_of_moving hphase
  have hway := hs.isUnderWay hm
  refine ⟨?_, follow_facing _ _, follows_follow _ _, ?_⟩
  · rw [follow_pos, ← hway.origin_eq, ← hway.dir_eq]
    exact hgoal
  · rw [advance_eq_ok_iff_of_isOver hm hover]
    refine ⟨goal, ticks, o, hgoal, hticks, ho, ?_, ?_⟩
    · rw [follow_pos, hsequel, htotal]
    · rw [hsequel]

/-- In one tick an agent stays on its cell or comes to the next one ahead. -/
theorem Lives.pos_eq_or (hs : a.Sound p g) (h : Lives p g frames a b) :
    b.pos = a.pos ∨ a.pos.add a.facing.vector = .ok b.pos ∧ b.facing = a.facing := by
  cases h with
  | rest => exact Or.inl rfl
  | act => exact Or.inl (follow_pos _ _)
  | depart => exact Or.inl rfl
  | travel => exact Or.inl rfl
  | arrive hphase hm hover hgoal =>
    have hway := hs.isUnderWay hm
    right
    rw [follow_pos, follow_facing, ← hway.origin_eq, ← hway.dir_eq]
    exact ⟨hgoal, rfl⟩

/-! ### Between two arrivals -/

/-- Since an arrival in tick `since` at least one tick has passed, and if the agent is moving again,
a tick more than its move has taken until now. -/
def IsSpaced (since now : Nat) (a : Agent) : Prop :=
  since < now ∧
    ∀ m, a.motion = some m → m.total.toNat + since + 2 ≤ now + m.remaining.toNat

theorem Lives.isSpaced (h : Lives p g frames a b) (ha : a.IsSpaced since now) :
    b.IsSpaced since (now + 1) := by
  obtain ⟨hlt, hmotion⟩ := ha
  have hkept : ∀ m, a.motion = some m → m.total.toNat + since + 2 ≤ now + 1 + m.remaining.toNat := by
    intro m hm
    have hbefore := hmotion m hm
    omega
  refine ⟨by omega, ?_⟩
  cases h with
  | rest => exact hkept
  | act =>
    rw [follow_motion]
    exact hkept
  | @depart _ dir =>
    intro m hm
    obtain rfl := Option.some.inj hm
    have hwhole : (Motion.start a.pos dir frames).total =
        (Motion.start a.pos dir frames).remaining := rfl
    rw [hwhole]
    omega
  | @travel m sequel hphase hm hover =>
    intro m' hm'
    obtain rfl := Option.some.inj hm'
    have hbefore := hmotion m hm
    have hremaining := m.toNat_remaining_advance
    have hne := Motion.isOver_eq_false_iff.mp hover
    show m.total.toNat + since + 2 ≤ _
    omega
  | arrive =>
    intro m hm
    rw [follow_motion] at hm
    cases hm

/-- An arrival comes a tick later after the one before than its move takes. -/
theorem IsSpaced.frames_le (ha : a.IsSpaced since now) {arrival : Arrival}
    (h : a.advance g = .ok (some arrival, b)) : since + arrival.frames.toNat + 1 ≤ now := by
  obtain ⟨m, -, hm, hover, -, hticks, -⟩ := exists_motion_of_arrival h
  have hbefore := ha.2 m hm
  have hremaining := m.toNat_remaining_advance
  have hzero := Motion.isOver_iff.mp hover
  have hsum : arrival.frames.toNat + m.advance.remaining.toNat = m.total.toNat :=
    Checked.sub32_eq_ok_iff.mp hticks
  omega

/-- Who has just arrived has not begun another move. -/
theorem Lives.isSpaced_of_arrival (hs : a.Sound p g) (h : Lives p g frames a b) {c : Agent}
    {arrival : Arrival} (harrival : a.advance g = .ok (some arrival, c)) :
    b.IsSpaced now (now + 1) := by
  have hrested : a.motion = none → False := by
    intro hnone
    rw [advance_of_none hnone] at harrival
    cases harrival
  refine ⟨by omega, ?_⟩
  intro m hm
  cases h with
  | rest hphase => exact (hrested (hs.of_idle hphase).2).elim
  | act hphase => exact (hrested (hs.of_executing hphase).1).elim
  | depart hphase => exact (hrested (hs.of_executing hphase).1).elim
  | travel hphase hmotion hover =>
    rw [advance_of_not_isOver hmotion hover] at harrival
    cases harrival
  | arrive =>
    rw [follow_motion] at hm
    cases hm

end Agent

/-! ### Many ticks -/

namespace Simulation

variable {s ready u : Simulation} {i : Nat} {a b : Agent} {later : List Config} {m : Motion}
  {sequel : Sequel} {since : Nat}

/-- The arrival of the agent with number `i` in the tick that is processed next, whatever signals
wait, if its move ends then. -/
def arrival? (s : Simulation) (i : Nat) : Except Fault (Option Agent.Arrival) :=
  match s.world.agents[i]? with
  | some a =>
    match a.advance s.board.grid with
    | .ok (arrival?, _) => .ok arrival?
    | .error interruption => .error interruption.fault
  | none => .ok none

theorem arrival?_eq (ha : s.world.agents[i]? = some a) {arrival? : Option Agent.Arrival}
    (h : a.advance s.board.grid = .ok (arrival?, b)) : s.arrival? i = .ok arrival? := by
  unfold Simulation.arrival?
  rw [ha]
  dsimp only
  rw [h]

/-- What a move that is under way does in as many ticks as are left of it at most. -/
theorem Sound.exists_stride (hs : s.Sound) (hq : s.queue = [])
    (hend : s.clock.count.toNat + later.length < 2 ^ 64) (ha : s.world.agents[i]? = some a)
    (hphase : a.phase = .moving sequel) (hm : a.motion = some m)
    (hle : later.length ≤ m.remaining.toNat) : ∃ arrivals t b,
      s.logUnder (fun u => u.dispatch? i) later = .ok ([], t) ∧
      s.logUnder (fun u => u.arrival? i) later = .ok (arrivals, t) ∧
      t.world.agents[i]? = some b ∧ b.facing = a.facing ∧
      (later.length < m.remaining.toNat ∧ arrivals = [] ∧ b.phase = .moving sequel ∧
          b.pos = a.pos ∧ b.remainFrames.toNat = m.remaining.toNat - later.length ∨
        later.length = m.remaining.toNat ∧ a.pos.add a.facing.vector = .ok b.pos ∧
          b.Follows sequel ∧ ∃ tick : Tick, arrivals = [(tick, ⟨b.pos, m.total, sequel⟩)] ∧
            tick.count.toNat + 1 = s.clock.count.toNat + later.length) := by
  have hsound := hs.agents a (List.mem_of_getElem? ha)
  have hway := hsound.isUnderWay hm
  have hpos := hway.remaining_pos
  induction later generalizing s a m with
  | nil =>
    have hremain : a.remainFrames = m.remaining := by
      unfold Agent.remainFrames
      rw [hm]
    exact ⟨[], s, a, rfl, rfl, ha, rfl, Or.inl ⟨hpos, rfl, hphase, rfl, by rw [hremain]; rfl⟩⟩
  | cons config later ih =>
    rw [List.length_cons] at hend hle ⊢
    obtain ⟨count, u, c, b, hu, hkeeps, hb, -, hlives⟩ :=
      hs.exists_step_configured hq config (by omega) ha
    have hclock := hkeeps.clock_eq
    have ha' : (s.configured config).world.agents[i]? = some a := ha
    have hdispatch : (s.configured config).dispatch? i = .ok none := by
      rw [(hs.configured config).dispatch?_eq ha', Agent.dispatch?, Agent.isExecuting, hphase]
      rfl
    by_cases hlast : m.remaining.toNat = 1
    · -- the move ends in this tick, so there is no other one
      obtain rfl : later = [] := List.eq_nil_of_length_eq_zero (by omega)
      obtain ⟨hgoal, hfacing, hfollows, hadvance⟩ := hlives.arrives hsound hphase hm hlast
      refine ⟨_, u, b,
        (logUnder_cons_eq_ok_iff hq).mpr ⟨_, _, _, _, [], hdispatch, hu, rfl, rfl⟩,
        (logUnder_cons_eq_ok_iff hq).mpr ⟨_, _, _, _, [], arrival?_eq ha' hadvance, hu, rfl, rfl⟩,
        hb, hfacing, Or.inr ⟨hlast.symm, hgoal, hfollows, s.clock, rfl, rfl⟩⟩
    · obtain ⟨hsame, hadvance⟩ := hlives.travels hphase hm (by omega)
      have hremaining := m.toNat_remaining_advance
      have hbsound := hkeeps.sound.agents b (List.mem_of_getElem? hb)
      have hbway : m.advance.IsUnderWay b.pos b.facing := by
        rw [hsame]
        apply hway.advance
        rw [Motion.isOver_eq_false_iff]
        omega
      have hbphase : b.phase = .moving sequel := by rw [hsame, hphase]
      have hbmotion : b.motion = some m.advance := by rw [hsame]
      obtain ⟨arrivals, t, d, hdispatches, harrivals, hd, hfacing, hrest⟩ :=
        ih hkeeps.sound hkeeps.queue_eq (by omega) hb hbphase hbmotion (by omega) hbsound hbway
          (by omega)
      rw [hsame] at hfacing hrest
      refine ⟨arrivals, t, d,
        (logUnder_cons_eq_ok_iff hq).mpr ⟨_, _, _, _, _, hdispatch, hu, hdispatches, rfl⟩,
        (logUnder_cons_eq_ok_iff hq).mpr
          ⟨_, _, _, _, _, arrival?_eq ha' hadvance, hu, harrivals, rfl⟩,
        hd, hfacing, ?_⟩
      rcases hrest with ⟨hlt, hnone, hmoving, hstays, hleft⟩ | ⟨heq, hgoal, hfollows, tick, hlog, htick⟩
      · exact Or.inl ⟨by omega, hnone, hmoving, hstays, by omega⟩
      · exact Or.inr ⟨by omega, hgoal, hfollows, tick, hlog, by omega⟩

/-- However the settings change, an arrival comes a tick later after the one before than its move
takes. -/
theorem Sound.spaced_of_logUnder (hs : s.Sound) (hq : s.queue = [])
    (hend : s.clock.count.toNat + later.length < 2 ^ 64) (ha : s.world.agents[i]? = some a)
    (hspaced : a.IsSpaced since s.clock.count.toNat) : ∃ arrivals t,
      s.logUnder (fun u => u.arrival? i) later = .ok (arrivals, t) ∧
        ∀ e ∈ arrivals, since + e.2.frames.toNat + 1 ≤ e.1.count.toNat := by
  induction later generalizing s a with
  | nil => exact ⟨[], s, rfl, fun e he => absurd he List.not_mem_nil⟩
  | cons config later ih =>
    rw [List.length_cons] at hend
    obtain ⟨count, u, c, b, hu, hkeeps, hb, hsound, hlives⟩ :=
      hs.exists_step_configured hq config (by omega) ha
    have hclock := hkeeps.clock_eq
    have hnext : b.IsSpaced since u.clock.count.toNat := by
      rw [hclock]
      exact hlives.isSpaced hspaced
    obtain ⟨arrivals, t, hlog, hlater⟩ := ih hkeeps.sound hkeeps.queue_eq (by omega) hb hnext
    obtain ⟨arrival?, b', hadvance⟩ := hsound.exists_advance hs.board.small
    have harrival : (s.configured config).arrival? i = .ok arrival? := arrival?_eq ha hadvance
    refine ⟨_, t, (logUnder_cons_eq_ok_iff hq).mpr ⟨_, _, _, _, _, harrival, hu, hlog, rfl⟩, ?_⟩
    intro e he
    rw [List.mem_append] at he
    cases he with
    | inl hhere =>
      cases harrived : arrival? with
      | none =>
        rw [harrived] at hhere
        exact absurd hhere List.not_mem_nil
      | some arrival =>
        rw [harrived] at hhere hadvance
        obtain rfl := List.mem_singleton.mp hhere
        exact hspaced.frames_le hadvance
    | inr hthere => exact hlater e hthere

/-! ### From a dispatch on -/

/-- When a tick begins no signal waits any more. -/
theorem TicksAt.queue_eq_nil (h : s.TicksAt ready) : ready.queue = [] := by
  cases h with
  | first hdrain => exact (frame_of_drain hdrain).2.2.2
  | next _ _ hdrain => exact (frame_of_drain hdrain).2.2.2

/-- One cell for each move. An agent begins a move in a tick whose settings give moves `n` ticks. As
long as no signal is carried out and the world is not made anew, but whatever the settings of the
ticks to come are, the agent executes nothing in the next `n` ticks, or in the next one if `n` is
zero. Before the last of them it moves, has the rest of these ticks left, and keeps its place, its
facing and the sequel; on the last one it arrives on the next cell and follows the sequel.

In a single tick it does not come further than the next cell ahead. And if it arrived in a tick,
every arrival that follows comes as many ticks later as the later move takes, and one more. -/
theorem Reachable.one_cell_per_move (h : s.Reachable) (hready : s.TicksAt ready)
    (ha : ready.world.agents[i]? = some a) (later : List Config)
    (hend : ready.clock.count.toNat + 1 + later.length < 2 ^ 64) :
    ∃ count u c, ready.step = .ok (count, u, c) ∧
      (∀ (x : Dispatch) (n : Nat), ready.dispatch? i = .ok (some x) → x.isMove = true →
        n = max 1 ready.config.moveFrames.toNat → later.length ≤ n → ∃ arrivals t b,
          u.logUnder (fun v => v.dispatch? i) later = .ok ([], t) ∧
          u.logUnder (fun v => v.arrival? i) later = .ok (arrivals, t) ∧
          t.world.agents[i]? = some b ∧ b.facing = a.facing ∧
          (later.length < n ∧ arrivals = [] ∧ b.phase = .moving x.decision.sequel ∧
              b.pos = a.pos ∧ b.remainFrames.toNat = n - later.length ∨
            later.length = n ∧ a.pos.add a.facing.vector = .ok b.pos ∧
              b.Follows x.decision.sequel ∧ ∃ (tick : Tick) (frames : UInt32),
                arrivals = [(tick, ⟨b.pos, frames, x.decision.sequel⟩)] ∧ frames.toNat = n ∧
                  tick.count.toNat = ready.clock.count.toNat + n)) ∧
      (∃ b, u.world.agents[i]? = some b ∧
        (b.pos = a.pos ∨ a.pos.add a.facing.vector = .ok b.pos ∧ b.facing = a.facing)) ∧
      ∀ first, ready.arrival? i = .ok (some first) → ∃ arrivals t,
        u.logUnder (fun v => v.arrival? i) later = .ok (arrivals, t) ∧
          ∀ e ∈ arrivals,
            ready.clock.count.toNat + (e.2.frames.toNat + 1) ≤ e.1.count.toNat := by
  have hs := (hready.isAttained h.isAttained).sound
  have hq := hready.queue_eq_nil
  obtain ⟨count, u, c, b, hu, hkeeps, hb, hsound, hlives⟩ :=
    hs.exists_step_configured hq ready.config (by omega) ha
  have hclock := hkeeps.clock_eq
  have hlater : u.clock.count.toNat + later.length < 2 ^ 64 := by omega
  refine ⟨count, u, c, hu, ?_, ⟨b, hb, hlives.pos_eq_or hsound⟩, ?_⟩
  · intro x n hx hmove hn hle
    have hx : a.dispatch? ready.program = some x := by
      rw [hs.dispatch?_eq ha] at hx
      exact Except.ok.inj hx
    obtain ⟨hpos, hfacing, hphase, hmotion⟩ := hlives.eq_of_isMove hsound hx hmove
    have hremaining := Motion.toNat_remaining_start a.pos a.facing.vector ready.config.moveFrames
    rw [← hn] at hremaining
    obtain ⟨arrivals, t, d, hdispatches, harrivals, hd, hsame, hrest⟩ :=
      hkeeps.sound.exists_stride hkeeps.queue_eq hlater hb hphase hmotion (by omega)
    rw [hpos, hfacing, hremaining] at hrest
    refine ⟨arrivals, t, d, hdispatches, harrivals, hd, hsame.trans hfacing, ?_⟩
    rcases hrest with hbefore | ⟨heq, hgoal, hfollows, tick, hlog, htick⟩
    · exact Or.inl hbefore
    · exact Or.inr ⟨heq, hgoal, hfollows, tick, _, hlog, hremaining, by omega⟩
  · intro first hfirst
    obtain ⟨arrival?, b', hadvance⟩ := hsound.exists_advance hs.board.small
    have harrival := arrival?_eq ha hadvance
    rw [harrival] at hfirst
    obtain rfl := Except.ok.inj hfirst
    have hspaced : b.IsSpaced ready.clock.count.toNat u.clock.count.toNat := by
      rw [hclock]
      exact hlives.isSpaced_of_arrival hsound hadvance
    exact hkeeps.sound.spaced_of_logUnder hkeeps.queue_eq hlater hb hspaced

/-- In the corridor the agent begins its only move in the second tick. The move takes one tick, also
if the settings say nine then, and ends the program. -/
theorem one_cell_per_move_corridor : ∃ (s u t : Simulation) (x : Dispatch) (a b : Agent),
    s.Reachable ∧ s.world.agents[0]? = some a ∧ s.dispatch? 0 = .ok (some x) ∧
    (∃ count c, s.step = .ok (count, u, c)) ∧
    (∃ log, u.logUnder (fun v => v.arrival? 0) [⟨9, 100, 0⟩] = .ok (log, t)) ∧
    t.world.agents[0]? = some b ∧ a.pos.add a.facing.vector = .ok b.pos ∧
    b.Follows (.finish .endOfProgram) := by
  have hstarted := reachable_corridor.perform (show Request.start.IsAdmissible from trivial) rfl
  have hs := hstarted.perform (show Request.tick.IsAdmissible from trivial) rfl
  obtain ⟨count, u, c, hu, hmove, -⟩ :=
    hs.one_cell_per_move (i := 0) (.first rfl) rfl [⟨9, 100, 0⟩] (by decide)
  obtain ⟨arrivals, t, b, -, harrivals, hb, -, hwhere⟩ := hmove _ 1 rfl rfl rfl (by decide)
  rcases hwhere with ⟨hlt, -⟩ | ⟨-, hgoal, hfollows, -⟩
  · exact absurd hlt (by decide)
  · exact ⟨_, u, t, _, _, b, hs, rfl, rfl, ⟨count, c, hu⟩, ⟨arrivals, harrivals⟩, hb, hgoal, hfollows⟩

end Simulation

end TileWalk
