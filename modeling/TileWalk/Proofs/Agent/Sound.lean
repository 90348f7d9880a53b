import TileWalk.Proofs.Agent.Step
import TileWalk.Proofs.Board.Neighbours
import TileWalk.Proofs.Program.Edges

/-!
# Sound agents

An agent is coherent if its phase, its cursor and its motion agree: only an agent that moves has a
motion, and only one that executes has a place in the program. A coherent agent can do five things
in one tick, which `Agent.Lives` lists (`Coherent.lives`).

An agent is sound if, besides, it stands on a cell that can be walked on and is about to come to
another one, has looked around where it stands, and holds no number but those of nodes. Whatever an
agent does in one tick keeps it coherent (`Lives.coherent`) and sound (`Lives.sound`), and on a
small grid a sound agent can always go on (`Sound.exists_live`).
-/

namespace TileWalk

open Outcome

/-! ### Motions -/

namespace Motion

variable {m : Motion} {pos : Pos} {f : Facing}

/-- The motion leads from a cell to the next one ahead, and has not ended. -/
structure IsUnderWay (m : Motion) (pos : Pos) (f : Facing) : Prop where
  origin_eq : m.origin = pos
  dir_eq : m.dir = f.vector
  remaining_pos : 1 ≤ m.remaining.toNat
  remaining_le : m.remaining.toNat ≤ m.total.toNat

/-- A move takes the ticks that were asked for, and at least one. -/
theorem toNat_remaining_start (pos : Pos) (dir : Vec) (frames : UInt32) :
    (start pos dir frames).remaining.toNat = max 1 frames.toNat := by
  show (if frames = 0 then 1 else frames : UInt32).toNat = _
  by_cases h : frames = 0
  · rw [if_pos h, h]
    rfl
  · have hne : frames.toNat ≠ 0 := fun h0 => h (UInt32.toNat_inj.mp h0)
    rw [if_neg h]
    omega

theorem isUnderWay_start (pos : Pos) (f : Facing) (frames : UInt32) :
    (start pos f.vector frames).IsUnderWay pos f := by
  refine ⟨rfl, rfl, ?_, Nat.le_refl _⟩
  rw [toNat_remaining_start]
  exact Nat.le_max_left 1 frames.toNat

theorem isOver_iff : m.isOver = true ↔ m.remaining.toNat = 0 := by
  unfold isOver
  rw [beq_iff_eq, ← UInt32.toNat_inj]
  rfl

theorem isOver_eq_false_iff : m.isOver = false ↔ m.remaining.toNat ≠ 0 := by
  rw [← Bool.not_eq_true]
  exact not_congr isOver_iff

theorem IsUnderWay.advance (h : m.IsUnderWay pos f) (hm : m.advance.isOver = false) :
    m.advance.IsUnderWay pos f := by
  have hrem := m.toNat_remaining_advance
  have hne := isOver_eq_false_iff.mp hm
  have hle := h.remaining_le
  refine ⟨h.origin_eq, h.dir_eq, by omega, ?_⟩
  show m.advance.remaining.toNat ≤ m.total.toNat
  omega

/-- The ticks that have passed can be counted. -/
theorem exists_elapsed (hle : m.remaining.toNat ≤ m.total.toNat) :
    ∃ ticks, m.advance.elapsed = .ok ticks := by
  have hrem := m.toNat_remaining_advance
  refine ⟨m.total - m.advance.remaining, ?_⟩
  unfold elapsed
  rw [Checked.sub32_eq_ok_iff]
  show (m.total - m.advance.remaining).toNat + m.advance.remaining.toNat = m.total.toNat
  rw [UInt32.toNat_sub_of_le _ _ (UInt32.le_iff_toNat_le.mpr (by omega))]
  omega

end Motion

/-! ### Decisions -/

/-- Where an agent faces after an action. -/
def Action.facing (current : Facing) : Action → Facing
  | .turn f => f
  | _ => current

/-- Of the commands only one begins a move: ahead, and only where the front is open. -/
theorem Command.action?_eq_move_iff {c : Command} {f : Facing} {o : Openings} {v : Vec} :
    c.action? f o = some (.move v) ↔ (c = .move ∧ o.front = true) ∧ v = f.vector := by
  cases c with
  | move =>
    by_cases ho : o.front = true
    · simp [action?, ho, eq_comm]
    · simp [action?, ho]
  | _ => simp [action?]

/-- So only one basic brick does. -/
theorem Node.decide_action_eq_move_iff {n : Node} {p : Program} {f : Facing} {o : Openings}
    {v : Vec} : (n.decide p f o).action = .move v ↔
      (n.kind = .basic ∧ n.command = .move ∧ o.front = true) ∧ v = f.vector := by
  unfold decide
  cases hkind : n.kind with
  | basic =>
    have hmove : n.command.action? f o = some (.move v) ↔ _ := Command.action?_eq_move_iff
    cases haction : n.command.action? f o with
    | none =>
      rw [haction] at hmove
      simpa [Decision.finish] using hmove
    | some action =>
      rw [haction] at hmove
      simpa using hmove
  | entry => simp
  | case => cases n.command.side? <;> simp [Decision.finish, Decision.resume]
  | tail => cases n.callTarget? <;> simp [Decision.finish, Decision.resume]
  | other tag => simp [Decision.finish]

namespace Program

variable {p : Program} {cursor : Option NodeId} {f : Facing} {o : Openings} {id : NodeId}

/-- A move leads ahead, and only where the front is open. -/
theorem decide_move {v : Vec} (h : (p.decide cursor f o).action = .move v) :
    v = f.vector ∧ o.front = true := by
  unfold Program.decide at h
  split at h
  · obtain ⟨⟨-, -, hfront⟩, hahead⟩ := Node.decide_action_eq_move_iff.mp h
    exact ⟨hahead, hfront⟩
  · cases h

/-- Control goes to nodes only. -/
theorem IsClosed.decide_lt (hp : p.IsClosed)
    (h : (p.decide cursor f o).sequel = .resume (some id)) : id.index < p.size := by
  obtain ⟨i, -, hedge⟩ := leads_of_decide h
  exact hp.lt_of_leads hedge

end Program

namespace Agent

variable {p : Program} {g : Grid} {frames : UInt32} {a b : Agent}

/-! ### What can happen in one tick -/

/-- The phase, the cursor and the motion of an agent agree. -/
structure Coherent (a : Agent) : Prop where
  of_idle : a.phase = .idle → a.cursor = none ∧ a.motion = none
  of_executing : a.phase = .executing → a.motion = none ∧ a.finished = none
  of_moving : ∀ sequel, a.phase = .moving sequel →
    a.cursor = none ∧ a.finished = none ∧ ∃ m, a.motion = some m ∧ m.IsUnderWay a.pos a.facing

/-- Only an agent that is moving has a motion, so its motion is under way. -/
theorem Coherent.isUnderWay (h : a.Coherent) {m : Motion} (hm : a.motion = some m) :
    m.IsUnderWay a.pos a.facing := by
  cases hphase : a.phase with
  | idle =>
    rw [(h.of_idle hphase).2] at hm
    cases hm
  | executing =>
    rw [(h.of_executing hphase).1] at hm
    cases hm
  | moving sequel =>
    obtain ⟨-, -, m', hm', hway⟩ := h.of_moving sequel hphase
    obtain rfl := Option.some.inj (hm.symm.trans hm')
    exact hway

/-- What one tick makes of a coherent agent. -/
inductive Lives (p : Program) (g : Grid) (frames : UInt32) (a : Agent) : Agent → Prop
  /-- An idle agent stays as it is. -/
  | rest (hphase : a.phase = .idle) : Lives p g frames a a
  /-- An agent executes a node that does not begin a move. -/
  | act {o seen : Openings} {action : Action} {sequel : Sequel} (hphase : a.phase = .executing)
      (ho : Openings.around g a.pos a.facing = .ok o)
      (hd : p.decide a.cursor a.facing o = ⟨action, sequel⟩) (hstay : ∀ v, action ≠ .move v)
      (hseen : Openings.around g a.pos (action.facing a.facing) = .ok seen) :
      Lives p g frames a
        ({ a with facing := action.facing a.facing, openings := seen }.follow sequel)
  /-- An agent executes a node that begins a move. -/
  | depart {o : Openings} {dir : Vec} {sequel : Sequel} (hphase : a.phase = .executing)
      (ho : Openings.around g a.pos a.facing = .ok o)
      (hd : p.decide a.cursor a.facing o = ⟨.move dir, sequel⟩) :
      Lives p g frames a
        { a with
          openings := o
          motion := some (Motion.start a.pos dir frames)
          cursor := none
          phase := .moving sequel }
  /-- A move goes on. -/
  | travel {m : Motion} {sequel : Sequel} (hphase : a.phase = .moving sequel)
      (hm : a.motion = some m) (hover : m.advance.isOver = false) :
      Lives p g frames a { a with motion := some m.advance }
  /-- A move ends. -/
  | arrive {m : Motion} {sequel : Sequel} {goal : Pos} {ticks : UInt32} {o : Openings}
      (hphase : a.phase = .moving sequel) (hm : a.motion = some m)
      (hover : m.advance.isOver = true) (hgoal : m.destination = .ok goal)
      (hticks : m.advance.elapsed = .ok ticks) (ho : Openings.around g goal a.facing = .ok o) :
      Lives p g frames a
        ({ a with motion := none, pos := goal, openings := o, phase := .idle }.follow sequel)

theorem apply_of_stay {d : Decision} (h : ∀ v, d.action ≠ .move v) (a : Agent) :
    a.apply d frames = { a with facing := d.action.facing a.facing }.follow d.sequel := by
  unfold apply
  cases hact : d.action with
  | move v => exact absurd hact (h v)
  | none => rfl
  | turn facing => rfl
  | blocked => rfl

theorem follow_with_openings (a : Agent) (o : Openings) (sequel : Sequel) :
    { a.follow sequel with openings := o } = { a with openings := o }.follow sequel := by
  cases sequel <;> rfl

theorem lives_of_execute (h : a.phase = .executing) {d? : Option Decision}
    (he : a.execute p g frames = .ok (d?, b)) : Lives p g frames a b := by
  obtain ⟨o, ho, -, hb⟩ := (execute_eq_ok_iff h).mp he
  obtain ⟨⟨action, sequel⟩, hd⟩ : ∃ d, p.decide a.cursor a.facing o = d := ⟨_, rfl⟩
  rw [hd] at hb
  obtain ⟨seen, hseen, rfl⟩ := refresh_eq_ok_iff.mp hb
  by_cases hmove : ∃ v, action = .move v
  · obtain ⟨v, rfl⟩ := hmove
    obtain rfl := Except.ok.inj (ho.symm.trans hseen)
    exact .depart h ho hd
  · have hstay : ∀ v, (⟨action, sequel⟩ : Decision).action ≠ .move v := fun v hv => hmove ⟨v, hv⟩
    rw [apply_of_stay hstay, follow_pos, follow_facing] at hseen
    rw [apply_of_stay hstay, follow_with_openings]
    exact .act h ho hd hstay hseen

theorem lives_of_advance {sequel : Sequel} (hphase : a.phase = .moving sequel) {m : Motion}
    (hm : a.motion = some m) {arrival? : Option Arrival}
    (ha : a.advance g = .ok (arrival?, b)) : Lives p g frames a b := by
  cases hover : m.advance.isOver with
  | false =>
    rw [advance_of_not_isOver hm hover] at ha
    obtain ⟨-, rfl⟩ := Prod.mk.inj (Except.ok.inj ha)
    exact .travel hphase hm hover
  | true =>
    obtain ⟨goal, ticks, o, hgoal, hticks, ho, -, rfl⟩ :=
      (advance_eq_ok_iff_of_isOver hm hover).mp ha
    rw [sequelOnArrival_of_moving hphase]
    exact .arrive hphase hm hover hgoal hticks ho

/-- A coherent agent can do no more in one tick than `Lives` lists. -/
theorem Coherent.lives (h : a.Coherent) (hl : a.live p g frames = .ok b) :
    Lives p g frames a b := by
  cases hphase : a.phase with
  | idle =>
    rw [live_of_idle hphase] at hl
    obtain rfl := Except.ok.inj hl
    exact .rest hphase
  | executing =>
    obtain ⟨d?, he⟩ := (live_eq_ok_iff_of_executing hphase).mp hl
    exact lives_of_execute hphase he
  | moving sequel =>
    obtain ⟨arrival?, ha⟩ := (live_eq_ok_iff_of_moving hphase).mp hl
    obtain ⟨-, -, m, hm, -⟩ := h.of_moving sequel hphase
    exact lives_of_advance hphase hm ha

theorem Lives.id_eq (h : Lives p g frames a b) : b.id = a.id := by
  cases h with
  | rest => rfl
  | act => exact follow_id _ _
  | depart => rfl
  | travel => rfl
  | arrive => exact follow_id _ _

/-! ### What is kept -/

theorem coherent_follow (hm : a.motion = none) (hf : a.finished = none) (sequel : Sequel) :
    (a.follow sequel).Coherent := by
  cases sequel with
  | resume node =>
    refine ⟨fun h => (nomatch h), fun _ => ⟨hm, hf⟩, fun sequel h => (nomatch h)⟩
  | finish reason =>
    refine ⟨fun _ => ⟨rfl, hm⟩, fun h => (nomatch h), fun sequel h => (nomatch h)⟩

theorem Lives.coherent (h : Lives p g frames a b) (ha : a.Coherent) : b.Coherent := by
  cases h with
  | rest => exact ha
  | act hphase =>
    obtain ⟨hm, hf⟩ := ha.of_executing hphase
    apply coherent_follow
    · exact hm
    · exact hf
  | depart hphase ho hd =>
    obtain ⟨-, hf⟩ := ha.of_executing hphase
    obtain ⟨rfl, -⟩ := Program.decide_move (congrArg Decision.action hd)
    refine ⟨fun h => (nomatch h), fun h => (nomatch h), fun _ _ => ⟨rfl, hf, _, rfl, ?_⟩⟩
    exact Motion.isUnderWay_start a.pos a.facing frames
  | travel hphase hm hover =>
    obtain ⟨hc, hf, m', hm', hway⟩ := ha.of_moving _ hphase
    obtain rfl := Option.some.inj (hm.symm.trans hm')
    refine ⟨fun h => ?_, fun h => ?_, fun _ _ => ⟨hc, hf, _, rfl, hway.advance hover⟩⟩
    · cases hphase.symm.trans h
    · cases hphase.symm.trans h
  | arrive hphase =>
    obtain ⟨-, hf, -⟩ := ha.of_moving _ hphase
    apply coherent_follow
    · rfl
    · exact hf

/-- What holds of every agent of a simulation that runs a program on a grid. -/
structure Sound (p : Program) (g : Grid) (a : Agent) : Prop extends Coherent a where
  walkable : g.isWalkable a.pos = true
  /-- What the agent has seen is what there is. -/
  openings_eq : Openings.around g a.pos a.facing = .ok a.openings
  goal_walkable : ∀ m, a.motion = some m → ∃ q, m.destination = .ok q ∧ g.isWalkable q = true
  cursor_lt : ∀ id, a.cursor = some id → id.index < p.size
  sequel_lt : ∀ id, a.phase = .moving (.resume (some id)) → id.index < p.size

theorem sound_follow (hm : a.motion = none) (hf : a.finished = none) {sequel : Sequel}
    (hw : g.isWalkable a.pos = true) (ho : Openings.around g a.pos a.facing = .ok a.openings)
    (hs : ∀ id, sequel = .resume (some id) → id.index < p.size) :
    (a.follow sequel).Sound p g := by
  refine ⟨coherent_follow hm hf sequel, ?_, ?_, ?_, ?_, ?_⟩
  · rw [follow_pos]
    exact hw
  · rw [follow_pos, follow_facing, follow_openings]
    exact ho
  · intro m h
    rw [follow_motion, hm] at h
    cases h
  · intro id h
    cases sequel with
    | resume node => exact hs id (congrArg Sequel.resume h)
    | finish reason => cases h
  · intro id h
    cases sequel with
    | resume node => cases h
    | finish reason => cases h

theorem Lives.sound (hp : p.IsClosed) (h : Lives p g frames a b) (ha : a.Sound p g) :
    b.Sound p g := by
  have hcoherent := h.coherent ha.toCoherent
  cases h with
  | rest => exact ha
  | act hphase ho hd hstay hseen =>
    obtain ⟨hm, hf⟩ := ha.of_executing hphase
    apply sound_follow
    · exact hm
    · exact hf
    · exact ha.walkable
    · exact hseen
    · intro id hid
      exact hp.decide_lt ((congrArg Decision.sequel hd).trans hid)
  | depart hphase ho hd =>
    obtain ⟨rfl, hfront⟩ := Program.decide_move (congrArg Decision.action hd)
    refine ⟨hcoherent, ha.walkable, ho, ?_, fun id h => (nomatch h), fun id h => ?_⟩
    · intro m hm
      obtain rfl := Option.some.inj hm
      exact Openings.exists_front_of_around ho hfront
    · cases h
      exact hp.decide_lt (congrArg Decision.sequel hd)
  | travel hphase hm hover =>
    refine ⟨hcoherent, ha.walkable, ha.openings_eq, ?_, ha.cursor_lt, ha.sequel_lt⟩
    intro m hm'
    obtain rfl := Option.some.inj hm'
    have hgoal := ha.goal_walkable _ hm
    exact hgoal
  | arrive hphase hm hover hgoal hticks ho =>
    obtain ⟨-, hf, -⟩ := ha.of_moving _ hphase
    obtain ⟨q, hq, hwalk⟩ := ha.goal_walkable _ hm
    obtain rfl := Except.ok.inj (hgoal.symm.trans hq)
    apply sound_follow
    · rfl
    · exact hf
    · exact hwalk
    · exact ho
    · intro id hid
      exact ha.sequel_lt id (hid ▸ hphase)

/-! ### Going on -/

/-- On a small grid a sound agent can always move on. -/
theorem Sound.exists_advance (h : a.Sound p g) (hg : g.IsSmall) :
    ∃ arrival? b, a.advance g = .ok (arrival?, b) := by
  cases hm : a.motion with
  | none => exact ⟨none, a, advance_of_none hm⟩
  | some m =>
    cases hover : m.advance.isOver with
    | false => exact ⟨none, _, advance_of_not_isOver hm hover⟩
    | true =>
      have hway := h.isUnderWay hm
      obtain ⟨q, hq, hwalk⟩ := h.goal_walkable m hm
      obtain ⟨ticks, hticks⟩ := Motion.exists_elapsed hway.remaining_le
      obtain ⟨o, ho⟩ := Openings.exists_around hg (Grid.contains_of_isWalkable hwalk) a.facing
      exact ⟨_, _, (advance_eq_ok_iff_of_isOver hm hover).mpr
        ⟨q, ticks, o, hq, hticks, ho, rfl, rfl⟩⟩

/-- On a small grid an agent can execute wherever it stands. -/
theorem exists_execute (hg : g.IsSmall) (hon : g.contains a.pos = true) (p : Program)
    (frames : UInt32) : ∃ d? b, a.execute p g frames = .ok (d?, b) := by
  by_cases hphase : a.phase = .executing
  · obtain ⟨o, ho⟩ := Openings.exists_around hg hon a.facing
    exact ⟨_, exists_execute_of_around hphase ho⟩
  · exact ⟨none, a, execute_of_ne hphase⟩

/-- On a small grid a sound agent can always go on. -/
theorem Sound.exists_live (h : a.Sound p g) (hg : g.IsSmall) (frames : UInt32) :
    ∃ b, a.live p g frames = .ok b := by
  cases hphase : a.phase with
  | idle => exact ⟨a, live_of_idle hphase⟩
  | executing =>
    have hon : g.contains a.pos = true := Grid.contains_of_isWalkable h.walkable
    obtain ⟨d?, b, hb⟩ := exists_execute hg hon p frames
    exact ⟨b, (live_eq_ok_iff_of_executing hphase).mpr ⟨d?, hb⟩⟩
  | moving sequel =>
    obtain ⟨arrival?, b, hb⟩ := h.exists_advance hg
    exact ⟨b, (live_eq_ok_iff_of_moving hphase).mpr ⟨arrival?, hb⟩⟩

/-- A sound agent goes on and stays sound. -/
theorem Sound.exists_lives (h : a.Sound p g) (hp : p.IsClosed) (hg : g.IsSmall)
    (frames : UInt32) :
    ∃ b, a.live p g frames = .ok b ∧ Lives p g frames a b ∧ b.Sound p g := by
  obtain ⟨b, hb⟩ := h.exists_live hg frames
  have hlives := h.toCoherent.lives hb
  exact ⟨b, hb, hlives, hlives.sound hp h⟩

end Agent

end TileWalk
