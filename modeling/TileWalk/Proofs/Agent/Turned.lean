import TileWalk.Proofs.Agent.Alone
import TileWalk.Proofs.Agent.Journey
import TileWalk.Proofs.Board.Turned

/-!
# Agents on a turned board

An agent that is carried over to the turned board faces further to the left, sees what it saw before
and decides the same, but for its turns and steps, which are turned (`Program.decide_left`). So
whatever an agent does in a tick, the agent that is carried over does too (`Agent.Lives.turned`), and
after any number of ticks it is where the agent is carried (`Agent.Sound.liveFor_turned`).
-/

namespace TileWalk

open Outcome

/-! ### Decisions -/

/-- What an agent that is carried over does instead. -/
def Action.turned : Action → Action
  | .none => .none
  | .turn f => .turn f.left
  | .move v => .move v.turned
  | .blocked => .blocked

/-- What an agent that is carried over decides instead. -/
def Decision.turned (d : Decision) : Decision :=
  ⟨d.action.turned, d.sequel⟩

theorem Action.facing_turned (action : Action) (f : Facing) :
    action.turned.facing f.left = (action.facing f).left := by
  cases action <;> rfl

theorem Command.action?_left (command : Command) (f : Facing) (o : Openings) :
    command.action? f.left o = (command.action? f o).map Action.turned := by
  unfold Command.action?
  cases command with
  | move =>
    rw [f.vector_left]
    cases o.front <;> rfl
  | turnRight => cases f <;> rfl
  | turnLeft => rfl
  | turnBack => rfl
  | pass => rfl
  | _ => rfl

theorem Node.decide_left (n : Node) (p : Program) (f : Facing) (o : Openings) :
    n.decide p f.left o = (n.decide p f o).turned := by
  unfold Node.decide
  cases n.kind with
  | entry => rfl
  | basic =>
    rw [n.command.action?_left]
    cases n.command.action? f o <;> rfl
  | case => cases n.command.side? <;> rfl
  | tail => cases n.callTarget? <;> rfl
  | other tag => rfl

/-- What is decided turns with the facing, and control goes where it went. -/
theorem Program.decide_left (p : Program) (cursor : Option NodeId) (f : Facing) (o : Openings) :
    p.decide cursor f.left o = (p.decide cursor f o).turned := by
  unfold Program.decide
  cases cursor.bind p.node? with
  | some n => exact n.decide_left p f o
  | none => rfl

/-! ### Agents and their motions -/

/-- The motion on the turned board of a board of width `w`. -/
def Motion.turned (w : Nat) (m : Motion) : Motion :=
  { m with origin := m.origin.turned w, dir := m.dir.turned }

namespace Agent

variable {p : Program} {g g' : Grid} {frames : UInt32} {a b : Agent} {w k : Nat}

/-- The agent on the turned board of a board of width `w`. -/
def turned (w : Nat) (a : Agent) : Agent :=
  { a with
    pos := a.pos.turned w
    facing := a.facing.left
    motion := a.motion.map (Motion.turned w) }

theorem follow_turned (w : Nat) (a : Agent) (sequel : Sequel) :
    (a.turned w).follow sequel = (a.follow sequel).turned w := by
  cases sequel <;> rfl

theorem motion_turned {m : Motion} (hm : a.motion = some m) :
    (a.turned w).motion = some (m.turned w) :=
  congrArg (Option.map (Motion.turned w)) hm

/-- Whatever `Lives` lists is what an agent does alone. -/
theorem Lives.live_eq_ok (h : Lives p g frames a b) : a.live p g frames = .ok b := by
  cases h with
  | rest hphase => exact live_of_idle hphase
  | @act o seen action sequel hphase ho hd hstay hseen =>
    apply (live_eq_ok_iff_of_executing hphase).mpr
    refine ⟨_, (execute_eq_ok_iff hphase).mpr ⟨o, ho, rfl, ?_⟩⟩
    rw [hd, apply_of_stay hstay, refresh_eq_ok_iff]
    refine ⟨seen, ?_, ?_⟩
    · rw [follow_pos, follow_facing]
      exact hseen
    · rw [follow_with_openings]
  | @depart o dir sequel hphase ho hd =>
    apply (live_eq_ok_iff_of_executing hphase).mpr
    refine ⟨_, (execute_eq_ok_iff hphase).mpr ⟨o, ho, rfl, ?_⟩⟩
    rw [hd, refresh_eq_ok_iff]
    exact ⟨o, ho, rfl⟩
  | travel hphase hm hover =>
    exact (live_eq_ok_iff_of_moving hphase).mpr ⟨none, advance_of_not_isOver hm hover⟩
  | @arrive m sequel goal ticks o hphase hm hover hgoal hticks ho =>
    apply (live_eq_ok_iff_of_moving hphase).mpr
    refine ⟨_, (advance_eq_ok_iff_of_isOver hm hover).mpr
      ⟨goal, ticks, o, hgoal, hticks, ho, rfl, ?_⟩⟩
    rw [sequelOnArrival_of_moving hphase]

/-- What an agent does in a tick, the agent that is carried over does too. -/
theorem Lives.turned (ht : g.IsTurned g') (hg : g.IsSmall) (hs : a.Sound p g)
    (h : Lives p g frames a b) :
    Lives p g' frames (a.turned g.width) (b.turned g.width) := by
  have hon := Grid.contains_of_isWalkable hs.walkable
  cases h with
  | rest hphase => exact .rest hphase
  | @act o seen action sequel hphase ho hd hstay hseen =>
    have hdecide : p.decide a.cursor a.facing.left o = ⟨action.turned, sequel⟩ := by
      rw [p.decide_left, hd]
      rfl
    have hstay' : ∀ v, action.turned ≠ .move v := by
      cases action with
      | move v => exact absurd rfl (hstay v)
      | turn f => exact fun v h => nomatch h
      | none => exact fun v h => nomatch h
      | blocked => exact fun v h => nomatch h
    have hseen' := ht.around hg hon hseen
    rw [← Action.facing_turned] at hseen'
    rw [← follow_turned]
    show Lives p g' frames _ (follow { a.turned g.width with
      facing := (action.facing a.facing).left, openings := seen } sequel)
    rw [← Action.facing_turned]
    exact .act (a := a.turned g.width) hphase (ht.around hg hon ho) hdecide hstay' hseen'
  | @depart o dir sequel hphase ho hd =>
    have hdecide : p.decide a.cursor a.facing.left o = ⟨.move dir.turned, sequel⟩ := by
      rw [p.decide_left, hd]
      rfl
    exact .depart (a := a.turned g.width) hphase (ht.around hg hon ho) hdecide
  | @travel m sequel hphase hm hover =>
    have hm' : (a.turned g.width).motion = some (m.turned g.width) := motion_turned hm
    exact .travel (a := a.turned g.width) hphase hm' hover
  | @arrive m sequel goal ticks o hphase hm hover hgoal hticks ho =>
    have hm' : (a.turned g.width).motion = some (m.turned g.width) := motion_turned hm
    have hway := hs.isUnderWay hm
    obtain ⟨q, hq, hwalkable⟩ := hs.goal_walkable m hm
    obtain rfl := Except.ok.inj (hgoal.symm.trans hq)
    have hthere := Grid.contains_of_isWalkable hwalkable
    -- the goal is the next cell, so it is carried along with the step
    have hgoal' : (m.turned g.width).destination = .ok (goal.turned g.width) := by
      apply Pos.add_turned hg.1
      · rw [hway.origin_eq]
        exact Grid.columns_of_contains hon
      · exact Grid.columns_of_contains hthere
      · exact hgoal
    rw [← follow_turned]
    exact .arrive (a := a.turned g.width) hphase hm' hover hgoal' hticks (ht.around hg hthere ho)

/-- After any number of ticks an agent that is carried over is where the agent is carried. -/
theorem Sound.liveFor_turned (hs : a.Sound p g) (hp : p.IsClosed) (ht : g.IsTurned g')
    (hg : g.IsSmall) (hl : a.liveFor p g frames k = .ok b) :
    (a.turned g.width).liveFor p g' frames k = .ok (b.turned g.width) := by
  induction k generalizing a with
  | zero =>
    obtain rfl := Except.ok.inj hl
    rfl
  | succ k ih =>
    obtain ⟨c, hc, hrest⟩ := liveFor_succ_eq_ok_iff.mp hl
    have hlives := hs.toCoherent.lives hc
    rw [liveFor_succ_eq_ok_iff]
    exact ⟨_, (hlives.turned ht hg hs).live_eq_ok, ih (hlives.sound hp hs) hrest⟩

end Agent

end TileWalk
