import TileWalk.Proofs.Agent.Step
import TileWalk.Proofs.Board.Neighbours

/-!
# Agents on their own

What an agent does on its own for some ticks (`Agent.liveFor`) depends on the board only through the
cells that can be walked on (`liveFor_congr`), and not at all on the number of the agent
(`liveFor_renamed`).
-/

namespace TileWalk.Agent

open Outcome

variable {p : Program} {g g' : Grid} {frames : UInt32} {a b : Agent}

/-- What an agent does in `k` ticks on its own. -/
def liveFor (p : Program) (g : Grid) (frames : UInt32) : Nat → Agent → Except Fault Agent
  | 0, a => .ok a
  | k + 1, a => do
    let b ← a.live p g frames
    liveFor p g frames k b

theorem liveFor_succ_eq_ok_iff {k : Nat} : a.liveFor p g frames (k + 1) = .ok b ↔
    ∃ c, a.live p g frames = .ok c ∧ c.liveFor p g frames k = .ok b :=
  bind_eq_ok_iff

/-! ### What the board matters -/

theorem live_congr (h : ∀ q, g.isWalkable q = g'.isWalkable q) (a : Agent) :
    a.live p g frames = a.live p g' frames := by
  have hrefresh : ∀ a : Agent, a.refresh g = a.refresh g' := by
    intro a
    unfold refresh
    rw [Openings.around_congr h]
  have hexecute : a.execute p g frames = a.execute p g' frames := by
    unfold execute
    simp only [hrefresh]
  have hadvance : a.advance g = a.advance g' := by
    unfold advance
    simp only [hrefresh]
  unfold live
  rw [hexecute, hadvance]

theorem liveFor_congr (h : ∀ q, g.isWalkable q = g'.isWalkable q) (k : Nat) (a : Agent) :
    a.liveFor p g frames k = a.liveFor p g' frames k := by
  induction k generalizing a with
  | zero => rfl
  | succ k ih =>
    show (a.live p g frames >>= _) = (a.live p g' frames >>= _)
    rw [live_congr h, funext ih]

/-! ### What the number matters -/

/-- The agent with another number. -/
def renamed (id : AgentId) (a : Agent) : Agent :=
  { a with id }

theorem follow_renamed (id : AgentId) (a : Agent) (sequel : Sequel) :
    (a.renamed id).follow sequel = (a.follow sequel).renamed id := by
  cases sequel <;> rfl

theorem apply_renamed (id : AgentId) (a : Agent) (d : Decision) :
    (a.renamed id).apply d frames = (a.apply d frames).renamed id := by
  unfold apply
  cases d.action with
  | move dir => rfl
  | turn facing => exact follow_renamed id { a with facing } d.sequel
  | none => exact follow_renamed id a d.sequel
  | blocked => exact follow_renamed id a d.sequel

theorem refresh_renamed (id : AgentId) (h : a.refresh g = .ok b) :
    (a.renamed id).refresh g = .ok (b.renamed id) := by
  obtain ⟨o, ho, rfl⟩ := refresh_eq_ok_iff.mp h
  exact refresh_eq_ok_iff.mpr ⟨o, ho, rfl⟩

theorem execute_renamed (id : AgentId) {d? : Option Decision} (hphase : a.phase = .executing)
    (h : a.execute p g frames = .ok (d?, b)) :
    (a.renamed id).execute p g frames = .ok (d?, b.renamed id) := by
  obtain ⟨o, ho, hd, hb⟩ := (execute_eq_ok_iff hphase).mp h
  have hphase' : (a.renamed id).phase = .executing := hphase
  refine (execute_eq_ok_iff hphase').mpr ⟨o, ho, hd, ?_⟩
  show (({ a with openings := o }.renamed id).apply _ frames).refresh g = _
  rw [apply_renamed id]
  exact refresh_renamed id hb

theorem advance_renamed (id : AgentId) {arrival? : Option Arrival}
    (h : a.advance g = .ok (arrival?, b)) :
    (a.renamed id).advance g = .ok (arrival?, b.renamed id) := by
  cases hm : a.motion with
  | none =>
    rw [advance_of_none hm] at h
    obtain ⟨rfl, rfl⟩ := Prod.mk.inj (Except.ok.inj h)
    exact advance_of_none hm
  | some m =>
    have hm' : (a.renamed id).motion = some m := hm
    cases hover : m.advance.isOver with
    | false =>
      rw [advance_of_not_isOver hm hover] at h
      obtain ⟨rfl, rfl⟩ := Prod.mk.inj (Except.ok.inj h)
      exact advance_of_not_isOver hm' hover
    | true =>
      obtain ⟨pos, ticks, o, hpos, hticks, ho, harrival, rfl⟩ :=
        (advance_eq_ok_iff_of_isOver hm hover).mp h
      refine (advance_eq_ok_iff_of_isOver hm' hover).mpr
        ⟨pos, ticks, o, hpos, hticks, ho, harrival, ?_⟩
      exact (follow_renamed id _ _).symm

theorem live_renamed (id : AgentId) (h : a.live p g frames = .ok b) :
    (a.renamed id).live p g frames = .ok (b.renamed id) := by
  cases hphase : a.phase with
  | idle =>
    have hphase' : (a.renamed id).phase = .idle := hphase
    rw [live_of_idle hphase] at h
    obtain rfl := Except.ok.inj h
    exact live_of_idle hphase'
  | executing =>
    have hphase' : (a.renamed id).phase = .executing := hphase
    obtain ⟨d?, hd⟩ := (live_eq_ok_iff_of_executing hphase).mp h
    exact (live_eq_ok_iff_of_executing hphase').mpr ⟨d?, execute_renamed id hphase hd⟩
  | moving sequel =>
    have hphase' : (a.renamed id).phase = .moving sequel := hphase
    obtain ⟨arrival?, ha⟩ := (live_eq_ok_iff_of_moving hphase).mp h
    exact (live_eq_ok_iff_of_moving hphase').mpr ⟨arrival?, advance_renamed id ha⟩

theorem liveFor_renamed (id : AgentId) {k : Nat} (h : a.liveFor p g frames k = .ok b) :
    (a.renamed id).liveFor p g frames k = .ok (b.renamed id) := by
  induction k generalizing a with
  | zero =>
    obtain rfl := Except.ok.inj h
    rfl
  | succ k ih =>
    obtain ⟨c, hc, hb⟩ := liveFor_succ_eq_ok_iff.mp h
    exact liveFor_succ_eq_ok_iff.mpr ⟨c.renamed id, live_renamed id hc, ih hb⟩

end TileWalk.Agent
