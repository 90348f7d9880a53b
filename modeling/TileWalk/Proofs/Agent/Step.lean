import TileWalk.Agent.Basic
import TileWalk.Proofs.Board.Neighbours

/-!
# What the operations of an agent do

Each operation of an agent is taken apart once: looking around (`refresh_eq_ok_iff`), executing a
node (`execute_eq_ok_iff`) and moving for one tick (`advance_of_not_isOver`,
`advance_eq_ok_iff_of_isOver`). `Agent.live` puts them together to what one agent does in one tick
if it were alone: it moves if it is moving, executes if it is executing, and else stays as it is.
-/

namespace TileWalk.Agent

open Outcome

variable {a b : Agent} {g : Grid} {p : Program} {frames : UInt32} {m : Motion}

/-! ### Looking around -/

theorem refresh_eq_ok_iff : a.refresh g = .ok b ↔
    ∃ o, Openings.around g a.pos a.facing = .ok o ∧ b = { a with openings := o } := by
  unfold refresh
  rw [bind_eq_ok_iff]
  exact exists_congr fun o => and_congr_right fun _ => pure_eq_ok_iff.trans eq_comm

theorem spawn_eq_ok_iff {id : AgentId} {s : Spawn} : spawn id s g = .ok a ↔
    ∃ o, Openings.around g s.pos s.facing = .ok o ∧
      a = ⟨id, s.pos, s.facing, o, none, .idle, none, none⟩ := by
  unfold spawn
  rw [bind_eq_ok_iff]
  exact exists_congr fun o => and_congr_right fun _ => pure_eq_ok_iff.trans eq_comm

/-! ### Phases -/

theorem isExecuting_iff : a.isExecuting = true ↔ a.phase = .executing := by
  simp [isExecuting]

theorem isIdle_iff : a.isIdle = true ↔ a.phase = .idle := by
  simp [isIdle]

theorem isMoving_iff : a.isMoving = true ↔ ∃ sequel, a.phase = .moving sequel := by
  unfold isMoving
  cases a.phase <;> simp

/-! ### Acting -/

@[simp]
theorem follow_id (a : Agent) (sequel : Sequel) : (a.follow sequel).id = a.id := by
  cases sequel <;> rfl

@[simp]
theorem follow_pos (a : Agent) (sequel : Sequel) : (a.follow sequel).pos = a.pos := by
  cases sequel <;> rfl

@[simp]
theorem follow_facing (a : Agent) (sequel : Sequel) : (a.follow sequel).facing = a.facing := by
  cases sequel <;> rfl

@[simp]
theorem follow_openings (a : Agent) (sequel : Sequel) :
    (a.follow sequel).openings = a.openings := by
  cases sequel <;> rfl

@[simp]
theorem follow_motion (a : Agent) (sequel : Sequel) : (a.follow sequel).motion = a.motion := by
  cases sequel <;> rfl

@[simp]
theorem apply_pos (a : Agent) (d : Decision) (frames : UInt32) :
    (a.apply d frames).pos = a.pos := by
  unfold apply
  cases d.action <;> simp

theorem execute_of_ne (h : a.phase ≠ .executing) : a.execute p g frames = .ok (none, a) := by
  unfold execute
  rw [if_neg (fun he => h (isExecuting_iff.mp he))]

/-- Executing is looking around, deciding, acting, and looking around again. -/
theorem execute_eq_ok_iff {d? : Option Decision} (h : a.phase = .executing) :
    a.execute p g frames = .ok (d?, b) ↔
      ∃ o, Openings.around g a.pos a.facing = .ok o ∧
        d? = some (p.decide a.cursor a.facing o) ∧
        ({ a with openings := o }.apply (p.decide a.cursor a.facing o) frames).refresh g = .ok b := by
  unfold execute
  rw [if_pos (isExecuting_iff.mpr h), bind_eq_ok_iff]
  constructor
  · rintro ⟨c, hc, hrest⟩
    obtain ⟨o, ho, rfl⟩ := refresh_eq_ok_iff.mp hc
    obtain ⟨e, he, hpure⟩ := bind_eq_ok_iff.mp hrest
    obtain ⟨rfl, rfl⟩ := Prod.mk.inj (pure_eq_ok_iff.mp hpure)
    exact ⟨o, ho, rfl, he⟩
  · rintro ⟨o, ho, rfl, hb⟩
    exact ⟨_, refresh_eq_ok_iff.mpr ⟨o, ho, rfl⟩, bind_eq_ok_iff.mpr ⟨b, hb, rfl⟩⟩

/-- Acting leaves the agent where it is, so it can look around once more. -/
theorem exists_execute_of_around {o : Openings} (h : a.phase = .executing)
    (ho : Openings.around g a.pos a.facing = .ok o) :
    ∃ b, a.execute p g frames = .ok (some (p.decide a.cursor a.facing o), b) := by
  have hinner : a.pos.IsInner := Openings.exists_around_iff.mp ⟨o, ho⟩
  let acted := { a with openings := o }.apply (p.decide a.cursor a.facing o) frames
  have hpos : acted.pos = a.pos := apply_pos _ _ _
  obtain ⟨o', ho'⟩ : ∃ o', Openings.around g acted.pos acted.facing = .ok o' :=
    Openings.exists_around_iff.mpr (hpos ▸ hinner)
  exact ⟨{ acted with openings := o' },
    (execute_eq_ok_iff h).mpr ⟨o, ho, rfl, refresh_eq_ok_iff.mpr ⟨o', ho', rfl⟩⟩⟩

/-! ### Moving -/

theorem advance_of_none (h : a.motion = none) : a.advance g = .ok (none, a) := by
  unfold advance
  rw [h]

/-- Before the last tick of a move nothing changes but the ticks that are left. -/
theorem advance_of_not_isOver (h : a.motion = some m) (hm : m.advance.isOver = false) :
    a.advance g = .ok (none, { a with motion := some m.advance }) := by
  unfold advance
  rw [h]
  dsimp only
  rw [hm]
  rfl

/-- On the last tick of a move the agent stands on the goal, looks around and goes on. -/
theorem advance_eq_ok_iff_of_isOver {arrival? : Option Arrival} (h : a.motion = some m)
    (hm : m.advance.isOver = true) : a.advance g = .ok (arrival?, b) ↔
      ∃ pos ticks o, m.destination = .ok pos ∧ m.advance.elapsed = .ok ticks ∧
        Openings.around g pos a.facing = .ok o ∧
        arrival? = some ⟨pos, ticks, a.sequelOnArrival⟩ ∧
        b = { a with motion := none, pos, openings := o, phase := .idle }.follow
          a.sequelOnArrival := by
  unfold advance
  rw [h]
  dsimp only
  rw [if_pos hm]
  -- the goal of a motion does not depend on the ticks that are left
  have hdest : m.advance.destination = m.destination := rfl
  rw [hdest]
  cases hd : m.destination with
  | error fault => simp
  | ok pos =>
    cases he : m.advance.elapsed with
    | error fault => simp
    | ok ticks =>
      dsimp only
      cases hr : refresh { a with motion := none, pos } g with
      | error fault =>
        have hnone : ∀ o, Openings.around g pos a.facing ≠ .ok o := by
          intro o ho
          have hok := (refresh_eq_ok_iff (a := { a with motion := none, pos })).mpr ⟨o, ho, rfl⟩
          rw [hr] at hok
          cases hok
        simp [hnone]
      | ok looked =>
        obtain ⟨o, ho, rfl⟩ := refresh_eq_ok_iff.mp hr
        constructor
        · intro hok
          obtain ⟨rfl, rfl⟩ := Prod.mk.inj (Except.ok.inj hok)
          exact ⟨pos, ticks, o, rfl, rfl, ho, rfl, rfl⟩
        · rintro ⟨pos', ticks', o', hpos, hticks, ho', rfl, rfl⟩
          obtain rfl := Except.ok.inj hpos
          obtain rfl := Except.ok.inj hticks
          obtain rfl := Except.ok.inj (ho.symm.trans ho')
          rfl

/-- Who arrives has had a motion, stands on its goal and goes on. -/
theorem exists_motion_of_arrival {arrival : Arrival} (h : a.advance g = .ok (some arrival, b)) :
    ∃ m o, a.motion = some m ∧ m.advance.isOver = true ∧ m.destination = .ok arrival.pos ∧
      m.advance.elapsed = .ok arrival.frames ∧ arrival.sequel = a.sequelOnArrival ∧
      b = { a with motion := none, pos := arrival.pos, openings := o, phase := .idle }.follow
        arrival.sequel := by
  cases hm : a.motion with
  | none =>
    rw [advance_of_none hm] at h
    cases h
  | some m =>
    cases hover : m.advance.isOver with
    | false =>
      rw [advance_of_not_isOver hm hover] at h
      cases h
    | true =>
      obtain ⟨pos, ticks, o, hpos, hticks, -, harrival, hb⟩ :=
        (advance_eq_ok_iff_of_isOver hm hover).mp h
      obtain rfl := Option.some.inj harrival
      exact ⟨m, o, rfl, hover, hpos, hticks, rfl, hb⟩

theorem sequelOnArrival_of_moving {sequel : Sequel} (h : a.phase = .moving sequel) :
    a.sequelOnArrival = sequel := by
  unfold sequelOnArrival
  rw [h]

theorem advance_id {arrival? : Option Arrival} (h : a.advance g = .ok (arrival?, b)) :
    b.id = a.id := by
  cases hm : a.motion with
  | none =>
    rw [advance_of_none hm] at h
    obtain ⟨-, rfl⟩ := Prod.mk.inj (Except.ok.inj h)
    rfl
  | some m =>
    cases hover : m.advance.isOver with
    | false =>
      rw [advance_of_not_isOver hm hover] at h
      obtain ⟨-, rfl⟩ := Prod.mk.inj (Except.ok.inj h)
      rfl
    | true =>
      obtain ⟨_, _, _, -, -, -, -, rfl⟩ := (advance_eq_ok_iff_of_isOver hm hover).mp h
      exact follow_id _ _

/-! ### One tick -/

/-- What an agent does in one tick on its own. -/
def live (p : Program) (g : Grid) (frames : UInt32) (a : Agent) : Except Fault Agent :=
  match a.phase with
  | .idle => .ok a
  | .executing => do
    let (_, b) ← a.execute p g frames
    return b
  | .moving _ =>
    match a.advance g with
    | .ok (_, b) => .ok b
    | .error interruption => .error interruption.fault

theorem live_of_idle (h : a.phase = .idle) : a.live p g frames = .ok a := by
  unfold live
  rw [h]

theorem live_eq_ok_iff_of_executing (h : a.phase = .executing) : a.live p g frames = .ok b ↔
    ∃ d?, a.execute p g frames = .ok (d?, b) := by
  unfold live
  rw [h]
  dsimp only
  rw [bind_eq_ok_iff]
  constructor
  · rintro ⟨⟨d?, c⟩, hc, hpure⟩
    obtain rfl := pure_eq_ok_iff.mp hpure
    exact ⟨d?, hc⟩
  · rintro ⟨d?, hb⟩
    exact ⟨(d?, b), hb, rfl⟩

theorem live_eq_ok_iff_of_moving {sequel : Sequel} (h : a.phase = .moving sequel) :
    a.live p g frames = .ok b ↔ ∃ arrival?, a.advance g = .ok (arrival?, b) := by
  unfold live
  rw [h]
  dsimp only
  cases ha : a.advance g with
  | error interruption => simp
  | ok result =>
    obtain ⟨arrival?, c⟩ := result
    simp only [Except.ok.injEq, Prod.mk.injEq]
    exact ⟨fun hc => ⟨arrival?, rfl, hc⟩, fun ⟨_, _, hc⟩ => hc⟩

end TileWalk.Agent
