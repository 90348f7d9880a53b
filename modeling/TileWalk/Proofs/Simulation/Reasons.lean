import TileWalk.Proofs.Agent.Reasons
import TileWalk.Proofs.Simulation.Strides

/-!
# Reasons are true of the installed program

An agent may carry its reason to stop along for many ticks, and in the meantime a host may begin
anew or install another program. The reason is true all the same, and of the program that is
installed now (`Record.Attained.isTruthful`): whatever exchanges the program makes the agents anew.

Conversely every node that gives a reason stops the agent that executes it. It stops at once
(`Agent.Lives.follows_of_stops`), unless the node begins a move: then it stops when it arrives
(`Simulation.Sound.exists_end_of_stride`). `Simulation.Reachable.reasons_true` says both.
-/

namespace TileWalk

open Outcome

/-! ### One agent -/

theorem Dispatch.isMove_iff {x : Dispatch} :
    x.isMove = true ↔ ∃ dir, x.decision.action = .move dir := by
  unfold isMove
  cases x.decision.action <;> simp

namespace Agent

variable {p : Program} {g : Grid} {frames : UInt32} {a b : Agent} {id : AgentId} {s : Spawn}
  {x : Dispatch} {n : Node} {reason : Ending}

theorem isTruthful_of_spawn (h : spawn id s g = .ok a) : a.IsTruthful p := by
  obtain ⟨o, -, rfl⟩ := spawn_eq_ok_iff.mp h
  exact isTruthful_of_new rfl rfl

theorem isTruthful_begun_of_spawn (h : spawn id s g = .ok a) : (a.begun p).IsTruthful p := by
  obtain ⟨o, -, rfl⟩ := spawn_eq_ok_iff.mp h
  have hfollow : ∀ sequel, (∀ reason, sequel = .finish reason → p.Explains reason) →
      (follow ⟨id, s.pos, s.facing, o, none, .idle, none, none⟩ sequel).IsTruthful p :=
    fun sequel hsequel => isTruthful_follow rfl hsequel
  unfold begun
  cases p.root with
  | some root => exact hfollow (.resume (some root)) fun reason h => nomatch h
  | none =>
    refine hfollow (.finish .endOfProgram) fun reason h => ?_
    exact Or.inl (Sequel.finish.inj h).symm

/-- What an agent executes is what the node at its cursor decides. -/
theorem decision_of_dispatch? (hx : a.dispatch? p = some x)
    (hn : x.cursor.bind p.node? = some n) : x.decision = n.decide p x.facing x.openings := by
  unfold dispatch? at hx
  split_ifs at hx
  obtain rfl := Option.some.inj hx
  show p.decide a.cursor a.facing a.openings = _
  unfold Program.decide
  rw [hn]

theorem isMove_iff_departs (hx : a.dispatch? p = some x) (hn : x.cursor.bind p.node? = some n) :
    x.isMove = true ↔ n.Departs x.openings := by
  rw [Dispatch.isMove_iff, decision_of_dispatch? hx hn]
  exact Node.exists_move_decide_iff

/-- A node that gives a reason stops the agent at once, unless it begins a move. -/
theorem Lives.follows_of_stops (hs : a.Sound p g) (h : Lives p g frames a b)
    (hx : a.dispatch? p = some x) (hn : x.cursor.bind p.node? = some n) (hstops : n.Stops reason)
    (hstay : ¬ n.Departs x.openings) : b.Follows (.finish reason) := by
  have hdecision := decision_of_dispatch? hx hn
  have hsequel := hstops.sequel_decide p x.facing x.openings
  rw [← isMove_iff_departs hx hn, Dispatch.isMove_iff] at hstay
  rw [← hdecision] at hsequel
  unfold dispatch? at hx
  split_ifs at hx with hexecuting
  obtain rfl := Option.some.inj hx
  obtain ⟨⟨action, sequel⟩, hd⟩ : ∃ d, p.decide a.cursor a.facing a.openings = d := ⟨_, rfl⟩
  dsimp only at hsequel hstay
  rw [hd] at hsequel hstay
  obtain ⟨seen, rfl⟩ := h.of_stay (isExecuting_iff.mp hexecuting) hs.openings_eq hd
    fun dir hdir => hstay ⟨dir, hdir⟩
  obtain rfl : sequel = .finish reason := hsequel
  exact follows_follow _ _

end Agent

/-! ### What is kept -/

namespace Record

variable {r : Record}

/-- Whatever a host asks for, the reasons of the agents are true of the program that is installed. -/
theorem Attained.isTruthful (h : r.Attained) :
    ∀ a ∈ r.sim.world.agents, a.IsTruthful r.sim.program := by
  induction h with
  | build hboard hcells hprogram hbuild =>
    obtain ⟨-, w, hw, rfl⟩ := Simulation.exists_build_iff.mp ⟨_, hbuild⟩
    intro a ha
    obtain ⟨n, sp, -, hspawn⟩ := World.exists_spawn_of_mem hw ha
    exact Agent.isTruthful_of_spawn hspawn
  | start hr hs ih =>
    obtain ⟨w, hw, rfl⟩ := Simulation.exists_start_iff.mp ⟨_, hs⟩
    intro a ha
    obtain ⟨fresh, hfresh, rfl⟩ := List.mem_map.mp ha
    obtain ⟨n, sp, -, hspawn⟩ := World.exists_spawn_of_mem hw hfresh
    exact Agent.isTruthful_begun_of_spawn hspawn
  | reset hr hs ih =>
    obtain ⟨w, hw, rfl⟩ := Simulation.exists_reset_iff.mp ⟨_, hs⟩
    intro a ha
    obtain ⟨n, sp, -, hspawn⟩ := World.exists_spawn_of_mem hw ha
    exact Agent.isTruthful_of_spawn hspawn
  | load hr hprogram hs ih =>
    -- the agents of the new program have not begun, so no reason is left of the old one
    obtain ⟨w, hw, rfl⟩ := Simulation.exists_load_iff.mp ⟨_, hs⟩
    intro a ha
    obtain ⟨n, sp, -, hspawn⟩ := World.exists_spawn_of_mem hw ha
    exact Agent.isTruthful_of_spawn hspawn
  | exchange hr queue hqueue ih => exact ih
  | configure hr config ih => exact ih
  | @step r t hr ht ih =>
    obtain ⟨count, u, c, hu, rfl⟩ := Record.step_eq_ok_iff.mp ht
    have hs := hr.sound
    have hprogram := (Simulation.frame_of_step hu).2.2.1
    have hlives := Simulation.forall₂_lives_of_step hs.coherent hu
    intro b hb
    obtain ⟨a, ha, hab⟩ := exists_mem_of_forall₂ hlives hb
    show b.IsTruthful u.program
    rw [hprogram]
    exact hab.isTruthful hs.program (hs.coherent a ha) (ih a ha)
  | settle hr ih => exact ih
  | endRun hr ih => exact ih

end Record

/-! ### Nodes that stop -/

namespace Simulation

variable {s : Simulation} {i : Nat} {a : Agent} {m : Motion} {reason : Ending}
  {later : List Config}

/-- Who moves to the cell on which it is to stop keeps its reason until it arrives, and stops then. -/
theorem Sound.exists_end_of_stride (hs : s.Sound) (hq : s.queue = [])
    (hend : s.clock.count.toNat + later.length < 2 ^ 64) (ha : s.world.agents[i]? = some a)
    (hphase : a.phase = .moving (.finish reason)) (hm : a.motion = some m)
    (hle : later.length ≤ m.remaining.toNat) : ∃ arrivals t b,
      s.logUnder (fun u => u.arrival? i) later = .ok (arrivals, t) ∧
        t.world.agents[i]? = some b ∧
        (later.length < m.remaining.toNat → arrivals = [] ∧ b.phase = .moving (.finish reason)) ∧
        (later.length = m.remaining.toNat → arrivals.length = 1 ∧ b.isIdle = true ∧
          b.finished = some reason) := by
  obtain ⟨arrivals, t, b, -, harrivals, hb, -, hwhere⟩ :=
    hs.exists_stride hq hend ha hphase hm hle
  refine ⟨arrivals, t, b, harrivals, hb, ?_⟩
  rcases hwhere with ⟨hlt, hnone, hmoving, -⟩ | ⟨heq, -, ⟨hidle, hfinished⟩, tick, hlog, -⟩
  · exact ⟨fun _ => ⟨hnone, hmoving⟩, fun heq => by omega⟩
  · refine ⟨fun hlt => by omega, fun _ => ⟨?_, Agent.isIdle_iff.mpr hidle, hfinished⟩⟩
    rw [hlog]
    rfl

/-- Whatever a host asks for, the reason for which an agent has stopped, or is to stop when it
arrives, is true of the program that is installed.

Conversely, an agent that executes a node which gives a reason stops for this reason in the same
tick, unless the node begins a move. If it does, and the move takes `k` ticks, the agent moves with
this reason in mind until the last of them, whatever the settings of the ticks to come are; then it
arrives and stops. -/
theorem Reachable.reasons_true (h : s.Reachable) :
    (∀ a ∈ s.world.agents, ∀ reason,
      a.finished = some reason ∨ a.phase = .moving (.finish reason) →
        reason = .endOfProgram ∨ ∃ n, s.program.node? n.id = some n ∧ n.Stops reason) ∧
    ∀ ready, s.TicksAt ready → ready.clock.count.toNat + 1 < 2 ^ 64 →
      ∀ (i : Nat) (a : Agent) (x : Dispatch) (id : NodeId) (n : Node) (reason : Ending),
        ready.world.agents[i]? = some a → ready.dispatch? i = .ok (some x) →
        x.cursor = some id → ready.program.node? id = some n → n.Stops reason →
        ∃ count u c b, ready.step = .ok (count, u, c) ∧ u.world.agents[i]? = some b ∧
          (¬ n.Departs x.openings → b.isIdle = true ∧ b.finished = some reason) ∧
          (n.Departs x.openings → b.phase = .moving (.finish reason) ∧
            ∀ k later, k = max 1 ready.config.moveFrames.toNat → later.length ≤ k →
              u.clock.count.toNat + later.length < 2 ^ 64 → ∃ arrivals t d,
                u.logUnder (fun v => v.arrival? i) later = .ok (arrivals, t) ∧
                  t.world.agents[i]? = some d ∧
                  (later.length < k → arrivals = [] ∧ d.phase = .moving (.finish reason)) ∧
                  (later.length = k → arrivals.length = 1 ∧ d.isIdle = true ∧
                    d.finished = some reason)) := by
  constructor
  · obtain ⟨r, hr, rfl⟩ := h.isAttained
    exact hr.isTruthful
  intro ready hready hclock i a x id n reason ha hx hcursor hn hstops
  have hs := (hready.isAttained h.isAttained).sound
  obtain ⟨count, u, c, b, hu, hkeeps, hb, hsound, hlives⟩ :=
    hs.exists_step_configured hready.queue_eq_nil ready.config hclock ha
  have hx : a.dispatch? ready.program = some x := by
    rw [hs.dispatch?_eq ha] at hx
    exact Except.ok.inj hx
  have hnode : x.cursor.bind ready.program.node? = some n := by
    rw [hcursor]
    exact hn
  refine ⟨count, u, c, b, hu, hb, fun hstay => ?_, fun hdeparts => ?_⟩
  · obtain ⟨hidle, hfinished⟩ := hlives.follows_of_stops hsound hx hnode hstops hstay
    exact ⟨Agent.isIdle_iff.mpr hidle, hfinished⟩
  · have hmove := (Agent.isMove_iff_departs hx hnode).mpr hdeparts
    obtain ⟨-, -, hphase, hmotion⟩ := hlives.eq_of_isMove hsound hx hmove
    have hsequel : x.decision.sequel = .finish reason := by
      rw [Agent.decision_of_dispatch? hx hnode]
      exact hstops.sequel_decide _ _ _
    rw [hsequel] at hphase
    refine ⟨hphase, fun k later hk hle hend => ?_⟩
    rw [← Motion.toNat_remaining_start a.pos a.facing.vector] at hk
    subst hk
    exact hkeeps.sound.exists_end_of_stride hkeeps.queue_eq hend hb hphase hmotion hle

/-- A program that steps forward with a node that has two links. -/
def forkedCalls : List Builder.Call :=
  Builder.strideCalls ++ [.linkRight ⟨1⟩ ⟨0⟩, .linkBottom ⟨1⟩ ⟨0⟩]

/-- In the corridor the forked step is begun in the second tick. The agent moves with the reason of
this node in mind and stops for it a tick later, on the second cell. -/
theorem reasons_true_corridor : ∃ (s u t : Simulation) (n : Node) (a b : Agent),
    s.Reachable ∧ s.program = (Builder.ofCalls forkedCalls).build ∧
    s.program.node? n.id = some n ∧ n.Stops (.ambiguousLinks n.id) ∧
    (∃ count c, s.step = .ok (count, u, c)) ∧ u.world.agents[0]? = some a ∧
    a.phase = .moving (.finish (.ambiguousLinks n.id)) ∧
    (∃ log, u.logUnder (fun v => v.arrival? 0) [⟨1, 100, 0⟩] = .ok (log, t)) ∧
    t.world.agents[0]? = some b ∧ b.isIdle = true ∧
    b.finished = some (.ambiguousLinks n.id) := by
  have hprogram : (Builder.ofCalls forkedCalls).build.IsObtainable :=
    .built forkedCalls rfl (by decide)
  have hloaded := reachable_corridor.perform
    (show (Request.load (Builder.ofCalls forkedCalls).build).IsAdmissible from hprogram) rfl
  have hstarted := hloaded.perform (show Request.start.IsAdmissible from trivial) rfl
  have hs := hstarted.perform (show Request.tick.IsAdmissible from trivial) rfl
  obtain ⟨-, hstop⟩ := hs.reasons_true
  let n : Node := ⟨⟨1⟩, none, .basic, .move, "", some ⟨0⟩, some ⟨0⟩⟩
  have hstops : n.Stops (.ambiguousLinks n.id) :=
    .ambiguous (Or.inr ⟨rfl, Or.inl rfl⟩) rfl rfl
  obtain ⟨count, u, c, a, hu, ha, -, hdeparts⟩ :=
    hstop _ (.first rfl) (by decide) 0 _ _ ⟨1⟩ n _ rfl rfl rfl rfl hstops
  obtain ⟨hphase, hstride⟩ := hdeparts ⟨rfl, rfl, rfl⟩
  have hclock : u.clock.count.toNat = 2 := (frame_of_step hu).2.2.2.2
  obtain ⟨arrivals, t, b, harrivals, hb, -, hstopped⟩ :=
    hstride 1 [⟨1, 100, 0⟩] rfl (by decide) (by rw [hclock]; decide)
  obtain ⟨-, hidle, hfinished⟩ := hstopped rfl
  exact ⟨_, u, t, n, a, b, hs, rfl, rfl, hstops, ⟨count, c, hu⟩, ha, hphase, ⟨arrivals, harrivals⟩,
    hb, hidle, hfinished⟩

end Simulation

end TileWalk
