import TileWalk.Proofs.Agent.Sound
import TileWalk.Proofs.Program.Journey

/-!
# Agents on a journey

An agent that executes a tree without calls does in single ticks what the journey through the tree
says at once: it is busy for as many ticks, comes to the same cells, and stops in the same place
for the same reason (`Agent.Sound.fulfils_journey`). What happens in several ticks is put together
from what happens in a few (`Agent.Roams.append`): a node that does not begin a move takes one
tick (`Agent.Sound.exists_stay`), and a step forward takes one more than the move
(`Agent.Sound.exists_stride`).
-/

namespace TileWalk.Agent

open Outcome

variable {p : Program} {g : Grid} {frames : UInt32} {a b c : Agent} {m : Motion} {k l : Nat}
  {visits visits' : List Pos} {j : Journey}

/-! ### Arrivals -/

/-- The cell to which the agent comes in the next tick, if its move ends then. -/
def arrival? (g : Grid) (a : Agent) : Option Pos :=
  match a.advance g with
  | .ok (some arrival, _) => some arrival.pos
  | _ => none

theorem arrival?_of_motion_none (hm : a.motion = none) : a.arrival? g = none := by
  unfold arrival?
  rw [advance_of_none hm]

theorem arrival?_of_not_isOver (hm : a.motion = some m) (hover : m.advance.isOver = false) :
    a.arrival? g = none := by
  unfold arrival?
  rw [advance_of_not_isOver hm hover]

theorem arrival?_of_isOver (hm : a.motion = some m) (hover : m.advance.isOver = true) {goal : Pos}
    {ticks : UInt32} {o : Openings} (hgoal : m.destination = .ok goal)
    (hticks : m.advance.elapsed = .ok ticks) (ho : Openings.around g goal a.facing = .ok o) :
    a.arrival? g = some goal := by
  have hadvance := (advance_eq_ok_iff_of_isOver hm hover).mpr
    ⟨goal, ticks, o, hgoal, hticks, ho, rfl, rfl⟩
  unfold arrival?
  rw [hadvance]

theorem filterMap_arrival?_cons (g : Grid) (a : Agent) (agents : List Agent) :
    (a :: agents).filterMap (arrival? g) =
      (a.arrival? g).toList ++ agents.filterMap (arrival? g) := by
  cases harrival : a.arrival? g <;> simp [harrival]

/-! ### What a tick makes of an agent -/

variable {o : Openings} {action : Action} {sequel : Sequel} {dir : Vec}

/-- Who is idle stays as it is. -/
theorem Lives.of_idle (h : Lives p g frames a b) (hphase : a.phase = .idle) : b = a := by
  cases h with
  | rest => rfl
  | act hexec => cases hphase.symm.trans hexec
  | depart hexec => cases hphase.symm.trans hexec
  | travel hmoving => cases hphase.symm.trans hmoving
  | arrive hmoving => cases hphase.symm.trans hmoving

/-- Who executes a node that does not begin a move goes on with its sequel. -/
theorem Lives.of_stay (h : Lives p g frames a b) (hphase : a.phase = .executing)
    (ho : Openings.around g a.pos a.facing = .ok o)
    (hd : p.decide a.cursor a.facing o = ⟨action, sequel⟩) (hstay : ∀ v, action ≠ .move v) :
    ∃ seen, b = { a with facing := action.facing a.facing, openings := seen }.follow sequel := by
  cases h with
  | rest hidle => cases hphase.symm.trans hidle
  | act _ ho' hd' =>
    obtain rfl := Except.ok.inj (ho'.symm.trans ho)
    obtain ⟨rfl, rfl⟩ := Decision.mk.inj (hd'.symm.trans hd)
    exact ⟨_, rfl⟩
  | depart _ ho' hd' =>
    obtain rfl := Except.ok.inj (ho'.symm.trans ho)
    obtain ⟨rfl, -⟩ := Decision.mk.inj (hd'.symm.trans hd)
    exact absurd rfl (hstay _)
  | travel hmoving => cases hphase.symm.trans hmoving
  | arrive hmoving => cases hphase.symm.trans hmoving

/-- Who executes a node that begins a move is on the way. -/
theorem Lives.of_move (h : Lives p g frames a b) (hphase : a.phase = .executing)
    (ho : Openings.around g a.pos a.facing = .ok o)
    (hd : p.decide a.cursor a.facing o = ⟨.move dir, sequel⟩) :
    b = { a with
      openings := o
      motion := some (Motion.start a.pos dir frames)
      cursor := none
      phase := .moving sequel } := by
  cases h with
  | rest hidle => cases hphase.symm.trans hidle
  | act _ ho' hd' hstay =>
    obtain rfl := Except.ok.inj (ho'.symm.trans ho)
    obtain ⟨rfl, -⟩ := Decision.mk.inj (hd'.symm.trans hd)
    exact absurd rfl (hstay _)
  | depart _ ho' hd' =>
    obtain rfl := Except.ok.inj (ho'.symm.trans ho)
    obtain ⟨hdir, rfl⟩ := Decision.mk.inj (hd'.symm.trans hd)
    obtain rfl := Action.move.inj hdir
    rfl
  | travel hmoving => cases hphase.symm.trans hmoving
  | arrive hmoving => cases hphase.symm.trans hmoving

/-- A move that does not end in a tick goes on. -/
theorem Lives.of_not_isOver (h : Lives p g frames a b)
    (hphase : a.phase = .moving sequel) (hm : a.motion = some m)
    (hover : m.advance.isOver = false) :
    b = { a with motion := some m.advance } := by
  cases h with
  | rest hidle => cases hphase.symm.trans hidle
  | act hexec => cases hphase.symm.trans hexec
  | depart hexec => cases hphase.symm.trans hexec
  | travel _ hm' =>
    obtain rfl := Option.some.inj (hm.symm.trans hm')
    rfl
  | arrive _ hm' hover' =>
    obtain rfl := Option.some.inj (hm.symm.trans hm')
    rw [hover] at hover'
    cases hover'

/-- A move that ends in a tick leads to its goal. -/
theorem Lives.of_isOver (h : Lives p g frames a b)
    (hphase : a.phase = .moving sequel) (hm : a.motion = some m) (hover : m.advance.isOver = true) :
    ∃ goal ticks o, m.destination = .ok goal ∧ m.advance.elapsed = .ok ticks ∧
      Openings.around g goal a.facing = .ok o ∧
      b = { a with motion := none, pos := goal, openings := o, phase := .idle }.follow sequel := by
  cases h with
  | rest hidle => cases hphase.symm.trans hidle
  | act hexec => cases hphase.symm.trans hexec
  | depart hexec => cases hphase.symm.trans hexec
  | travel _ hm' hover' =>
    obtain rfl := Option.some.inj (hm.symm.trans hm')
    rw [hover] at hover'
    cases hover'
  | arrive hmoving hm' _ hgoal hticks ho =>
    obtain rfl := Option.some.inj (hm.symm.trans hm')
    obtain rfl := Phase.moving.inj (hphase.symm.trans hmoving)
    exact ⟨_, _, _, hgoal, hticks, ho, rfl⟩

/-! ### Several ticks -/

/-- The agent is busy for some ticks, comes to some cells on the way, and has then become another
one. -/
inductive Roams (p : Program) (g : Grid) (frames : UInt32) : Agent → Nat → List Pos → Agent → Prop
  | rest (a : Agent) : Roams p g frames a 0 [] a
  | tick {a b c : Agent} {k : Nat} {visits : List Pos} (hbusy : a.phase ≠ .idle)
      (hlive : a.live p g frames = .ok b) (hrest : Roams p g frames b k visits c) :
      Roams p g frames a (k + 1) ((a.arrival? g).toList ++ visits) c

theorem Roams.append (h : Roams p g frames a k visits b) (h' : Roams p g frames b l visits' c) :
    Roams p g frames a (k + l) (visits ++ visits') c := by
  induction h with
  | rest => simpa using h'
  | @tick a b _ k visits hbusy hlive _ ih =>
    have hrest := ih h'
    rw [Nat.add_right_comm, List.append_assoc]
    exact .tick hbusy hlive hrest

/-- The agent goes on with a sequel. -/
def Follows (a : Agent) : Sequel → Prop
  | .resume node => a.phase = .executing ∧ a.cursor = node
  | .finish reason => a.phase = .idle ∧ a.finished = some reason

theorem follows_follow (a : Agent) (sequel : Sequel) : (a.follow sequel).Follows sequel := by
  cases sequel <;> exact ⟨rfl, rfl⟩

/-- What a journey says comes of the agent. -/
def Fulfils (p : Program) (g : Grid) (frames : UInt32) (a : Agent) (j : Journey) : Prop :=
  ∃ b, Roams p g frames a j.ticks j.visits b ∧ b.phase = .idle ∧ b.pos = j.pos ∧
    b.facing = j.facing ∧ b.finished = some j.ending

theorem fulfils_halt {reason : Ending} (h : a.Follows (.finish reason)) :
    a.Fulfils p g frames (.halt a.pos a.facing reason) :=
  ⟨a, .rest a, h.1, rfl, rfl, h.2⟩

theorem Roams.fulfils_after (h : Roams p g frames a k visits b) (hb : b.Fulfils p g frames j) :
    a.Fulfils p g frames (j.after k visits) := by
  obtain ⟨c, hroams, hidle, hpos, hfacing, hfinished⟩ := hb
  exact ⟨c, h.append hroams, hidle, hpos, hfacing, hfinished⟩

/-! ### What is left of a journey -/

theorem Fulfils.phase_eq_idle_iff (h : a.Fulfils p g frames j) : a.phase = .idle ↔ j.ticks = 0 := by
  obtain ⟨pos, facing, ending, visits, ticks⟩ := j
  obtain ⟨b, hroams, hidle, -⟩ := h
  cases hroams with
  | rest => simpa using hidle
  | tick hbusy => simpa using hbusy

/-- At the end of a journey the agent is where it leads. -/
theorem Fulfils.of_ticks_eq_zero (h : a.Fulfils p g frames j) (hticks : j.ticks = 0) :
    a.pos = j.pos ∧ a.facing = j.facing ∧ a.finished = some j.ending ∧ j.visits = [] := by
  obtain ⟨pos, facing, ending, visits, ticks⟩ := j
  obtain ⟨b, hroams, -, hpos, hfacing, hfinished⟩ := h
  obtain rfl : ticks = 0 := hticks
  cases hroams
  exact ⟨hpos, hfacing, hfinished, rfl⟩

/-- A tick leaves less of a journey: what is left leads to the same place and takes one tick less.
-/
theorem Fulfils.next (h : a.Fulfils p g frames j) (ha : a.Coherent)
    (hlive : a.live p g frames = .ok b) :
    ∃ rest, b.Fulfils p g frames { j with visits := rest, ticks := j.ticks - 1 } ∧
      j.visits = (a.arrival? g).toList ++ rest := by
  obtain ⟨pos, facing, ending, visits, ticks⟩ := j
  obtain ⟨c, hroams, hidle, hgoal⟩ := h
  cases hroams with
  | rest =>
    rw [live_of_idle hidle] at hlive
    obtain rfl := Except.ok.inj hlive
    refine ⟨[], ⟨a, .rest a, hidle, hgoal⟩, ?_⟩
    rw [arrival?_of_motion_none (ha.of_idle hidle).2]
    rfl
  | @tick _ b' _ k rest hbusy hlive' hrest =>
    obtain rfl := Except.ok.inj (hlive'.symm.trans hlive)
    exact ⟨rest, ⟨c, hrest, hidle, hgoal⟩, rfl⟩

namespace Sound

/-! ### Single bricks -/

variable (frames) in
/-- A node that does not begin a move takes one tick. -/
theorem exists_stay (h : a.Sound p g) (hp : p.IsClosed) (hg : g.IsSmall)
    (hphase : a.phase = .executing)
    (hd : p.decide a.cursor a.facing a.openings = ⟨action, sequel⟩)
    (hstay : ∀ v, action ≠ .move v) : ∃ b, Roams p g frames a 1 [] b ∧ b.Sound p g ∧
      b.pos = a.pos ∧ b.facing = action.facing a.facing ∧ b.Follows sequel := by
  obtain ⟨b, hb, hlives, hsound⟩ := h.exists_lives hp hg frames
  have hbusy : a.phase ≠ .idle := by simp [hphase]
  have hroams := Roams.tick hbusy hb (.rest b)
  rw [arrival?_of_motion_none (h.of_executing hphase).1] at hroams
  obtain ⟨seen, rfl⟩ := hlives.of_stay hphase h.openings_eq hd hstay
  exact ⟨_, hroams, hsound, follow_pos _ _, follow_facing _ _, follows_follow _ _⟩

/-- A move that is under way leads to the next cell ahead. -/
theorem destination_eq (h : a.Sound p g) (hm : a.motion = some m) {goal : Pos}
    (hgoal : m.destination = .ok goal) : goal = a.pos.ahead a.facing := by
  have hway := h.isUnderWay hm
  unfold Motion.destination at hgoal
  rw [hway.origin_eq, hway.dir_eq] at hgoal
  exact Pos.add_vector_eq_ok hgoal

variable (frames) in
/-- A move that is under way takes the ticks that remain. -/
theorem exists_travel (h : a.Sound p g) (hp : p.IsClosed) (hg : g.IsSmall)
    (hphase : a.phase = .moving sequel) (hm : a.motion = some m) {r : Nat}
    (hremaining : m.remaining.toNat = r + 1) :
    ∃ b, Roams p g frames a (r + 1) [a.pos.ahead a.facing] b ∧ b.Sound p g ∧
      b.pos = a.pos.ahead a.facing ∧ b.facing = a.facing ∧ b.Follows sequel := by
  induction r generalizing a m with
  | zero =>
    obtain ⟨b, hb, hlives, hsound⟩ := h.exists_lives hp hg frames
    have hbusy : a.phase ≠ .idle := by simp [hphase]
    have hover : m.advance.isOver = true := by
      rw [Motion.isOver_iff, m.toNat_remaining_advance]
      omega
    obtain ⟨goal, ticks, o, hgoal, hticks, ho, rfl⟩ := hlives.of_isOver hphase hm hover
    have hroams := Roams.tick hbusy hb (.rest _)
    rw [arrival?_of_isOver hm hover hgoal hticks ho] at hroams
    obtain rfl := h.destination_eq hm hgoal
    exact ⟨_, hroams, hsound, follow_pos _ _, follow_facing _ _, follows_follow _ _⟩
  | succ r ih =>
    obtain ⟨b, hb, hlives, hsound⟩ := h.exists_lives hp hg frames
    have hbusy : a.phase ≠ .idle := by simp [hphase]
    have hnext : m.advance.remaining.toNat = r + 1 := by
      rw [m.toNat_remaining_advance]
      omega
    have hover : m.advance.isOver = false := by
      rw [Motion.isOver_eq_false_iff]
      omega
    obtain rfl := hlives.of_not_isOver hphase hm hover
    obtain ⟨c, hroams, hc⟩ := ih hsound hphase rfl hnext
    have hall := Roams.tick hbusy hb hroams
    rw [arrival?_of_not_isOver hm hover] at hall
    exact ⟨c, hall, hc⟩

/-- A step forward takes one tick more than the move. -/
theorem exists_stride (h : a.Sound p g) (hp : p.IsClosed) (hg : g.IsSmall)
    (hframes : 1 ≤ frames.toNat) (hphase : a.phase = .executing)
    (hd : p.decide a.cursor a.facing a.openings = ⟨.move a.facing.vector, sequel⟩) :
    ∃ b, Roams p g frames a (frames.toNat + 1) [a.pos.ahead a.facing] b ∧ b.Sound p g ∧
      b.pos = a.pos.ahead a.facing ∧ b.facing = a.facing ∧ b.Follows sequel := by
  obtain ⟨b, hb, hlives, hsound⟩ := h.exists_lives hp hg frames
  have hbusy : a.phase ≠ .idle := by simp [hphase]
  obtain rfl := hlives.of_move hphase h.openings_eq hd
  have hremaining : (Motion.start a.pos a.facing.vector frames).remaining.toNat =
      frames.toNat - 1 + 1 := by
    rw [Motion.toNat_remaining_start]
    omega
  obtain ⟨c, hroams, hc⟩ := hsound.exists_travel frames hp hg rfl rfl hremaining
  have hall := Roams.tick hbusy hb hroams
  rw [arrival?_of_motion_none (h.of_executing hphase).1, Nat.sub_add_cancel hframes] at hall
  exact ⟨c, hall, hc⟩

/-! ### Whole journeys -/

/-- A brick that does not branch passes control to the only brick that hangs on it. -/
theorem fulfils_onward {n : Nat} (brick : Brick)
    (hright : ∀ b : Agent, b.Sound p g → b.phase = .executing →
      b.cursor = brick.right.idAt (n + 1) →
      b.Fulfils p g frames (brick.right.journey g frames.toNat (n + 1) b.pos b.facing))
    (hbottom : ∀ b : Agent, b.Sound p g → b.phase = .executing →
      b.cursor = brick.bottom.idAt (n + 1 + brick.right.bricks.length) →
      b.Fulfils p g frames (brick.bottom.journey g frames.toNat
        (n + 1 + brick.right.bricks.length) b.pos b.facing))
    (h : a.Sound p g) (hfollows : a.Follows (brick.nodeAt n).sequel) :
    a.Fulfils p g frames (Link.onward n brick.right brick.bottom
      (brick.right.journey g frames.toNat (n + 1))
      (brick.bottom.journey g frames.toNat (n + 1 + brick.right.bricks.length)) a.pos a.facing) := by
  have hr : (brick.nodeAt n).right = brick.right.idAt (n + 1) := rfl
  have hb : (brick.nodeAt n).bottom = brick.bottom.idAt (n + 1 + brick.right.bricks.length) := rfl
  unfold Link.onward
  unfold Node.sequel Node.successor at hfollows
  rw [hr, hb] at hfollows
  unfold Link.idAt at hfollows
  cases hrbrick : brick.right.isBrick with
  | true =>
    cases hbbrick : brick.bottom.isBrick with
    | true =>
      rw [hrbrick, hbbrick] at hfollows
      exact fulfils_halt hfollows
    | false =>
      rw [hrbrick, hbbrick] at hfollows
      obtain ⟨hphase, hcursor⟩ := hfollows
      refine hright a h hphase ?_
      rw [hcursor, Link.idAt, hrbrick]
      rfl
  | false =>
    cases hbbrick : brick.bottom.isBrick with
    | true =>
      rw [hrbrick, hbbrick] at hfollows
      obtain ⟨hphase, hcursor⟩ := hfollows
      refine hbottom a h hphase ?_
      rw [hcursor, Link.idAt, hbbrick]
      rfl
    | false =>
      rw [hrbrick, hbbrick] at hfollows
      exact fulfils_halt hfollows

/-- A node that does not begin a move comes before the rest of a journey. -/
theorem fulfils_stay (h : a.Sound p g) (hp : p.IsClosed) (hg : g.IsSmall)
    (hphase : a.phase = .executing)
    (hd : p.decide a.cursor a.facing a.openings = ⟨action, sequel⟩)
    (hstay : ∀ v, action ≠ .move v) (rest : Pos → Facing → Journey)
    (hrest : ∀ b : Agent, b.Sound p g → b.Follows sequel →
      b.Fulfils p g frames (rest b.pos b.facing)) :
    a.Fulfils p g frames ((rest a.pos (action.facing a.facing)).after 1 []) := by
  obtain ⟨b, hroams, hsound, hpos, hfacing, hfollows⟩ :=
    h.exists_stay frames hp hg hphase hd hstay
  have hb := hrest b hsound hfollows
  rw [hpos, hfacing] at hb
  exact hroams.fulfils_after hb

/-- A node that makes the agent stop takes one tick. -/
theorem fulfils_stop (h : a.Sound p g) (hp : p.IsClosed) (hg : g.IsSmall)
    (hphase : a.phase = .executing) {reason : Ending}
    (hd : p.decide a.cursor a.facing a.openings = .finish reason) :
    a.Fulfils p g frames (.stop a.pos a.facing reason) := by
  have hstay : ∀ v, Action.none ≠ .move v := fun _ hv => nomatch hv
  refine h.fulfils_stay hp hg hphase hd hstay (fun pos f => .halt pos f reason) ?_
  exact fun b _ hfollows => fulfils_halt hfollows

/-- A basic command takes one tick, but a step forward takes the ticks of the move as well. -/
theorem fulfils_ofBasic (h : a.Sound p g) (hp : p.IsClosed) (hg : g.IsSmall)
    (hframes : 1 ≤ frames.toNat) (hphase : a.phase = .executing) {command : Command}
    {unknown : Ending} {next : Pos → Facing → Journey}
    (hd : p.decide a.cursor a.facing a.openings =
      match command.action? a.facing a.openings with
      | some action => ⟨action, sequel⟩
      | none => .finish unknown)
    (hnext : ∀ b : Agent, b.Sound p g → b.Follows sequel →
      b.Fulfils p g frames (next b.pos b.facing)) :
    a.Fulfils p g frames (.ofBasic g frames.toNat command next unknown a.pos a.facing) := by
  have hturn : ∀ f v, Action.turn f ≠ .move v := fun _ _ hv => nomatch hv
  cases command with
  | pass => exact h.fulfils_stay hp hg hphase hd (fun _ hv => nomatch hv) next hnext
  | turnLeft => exact h.fulfils_stay hp hg hphase hd (hturn _) next hnext
  | turnBack => exact h.fulfils_stay hp hg hphase hd (hturn _) next hnext
  | turnRight => exact h.fulfils_stay hp hg hphase hd (hturn _) next hnext
  | move =>
    have hfront : a.openings.front = g.isOpen a.pos a.facing .front :=
      Openings.get_of_around h.openings_eq .front
    unfold Journey.ofBasic
    unfold Command.action? at hd
    dsimp only at hd ⊢
    rw [hfront] at hd
    split_ifs at hd ⊢ with hclear
    · obtain ⟨b, hroams, hsound, hpos, hfacing, hfollows⟩ :=
        h.exists_stride hp hg hframes hphase hd
      have hb := hnext b hsound hfollows
      rw [hpos, hfacing] at hb
      exact hroams.fulfils_after hb
    · exact h.fulfils_stay hp hg hphase hd (fun _ hv => nomatch hv) next hnext
  | root => exact h.fulfils_stop hp hg hphase hd
  | funcStart => exact h.fulfils_stop hp hg hphase hd
  | test side => exact h.fulfils_stop hp hg hphase hd
  | other tag => exact h.fulfils_stop hp hg hphase hd

/-- A test takes one tick, and is followed by what hangs on the side that it chooses. -/
theorem fulfils_test (h : a.Sound p g) (hp : p.IsClosed) (hg : g.IsSmall)
    (hphase : a.phase = .executing) {side : Side} {right bottom : Option NodeId}
    {toRight toBottom : Pos → Facing → Journey}
    (hd : p.decide a.cursor a.facing a.openings =
      .resume (if a.openings.get side then right else bottom))
    (hright : ∀ b : Agent, b.Sound p g → b.phase = .executing → b.cursor = right →
      b.Fulfils p g frames (toRight b.pos b.facing))
    (hbottom : ∀ b : Agent, b.Sound p g → b.phase = .executing → b.cursor = bottom →
      b.Fulfils p g frames (toBottom b.pos b.facing)) :
    a.Fulfils p g frames ((if g.isOpen a.pos a.facing side then toRight a.pos a.facing
      else toBottom a.pos a.facing).after 1 []) := by
  have hstay : ∀ v, Action.none ≠ .move v := fun _ hv => nomatch hv
  rw [Openings.get_of_around h.openings_eq] at hd
  split_ifs at hd ⊢ with hopen
  · exact h.fulfils_stay hp hg hphase hd hstay toRight fun b hb hfollows =>
      hright b hb hfollows.1 hfollows.2
  · exact h.fulfils_stay hp hg hphase hd hstay toBottom fun b hb hfollows =>
      hbottom b hb hfollows.1 hfollows.2

/-- What an agent does that is to execute a tree without calls is what the journey through the tree
says. -/
theorem fulfils_journey (hp : p.IsClosed) (hg : g.IsSmall) (hframes : 1 ≤ frames.toNat) {l : Link}
    (hfree : l.IsCallFree) {n : Nat} (hat : p.HasAt n l) {a : Agent} (h : a.Sound p g)
    (hphase : a.phase = .executing) (hcursor : a.cursor = l.idAt n) :
    a.Fulfils p g frames (l.journey g frames.toNat n a.pos a.facing) := by
  -- where nothing hangs, the program ends with the next tick
  have hnothing : ∀ a : Agent, a.Sound p g → a.phase = .executing → a.cursor = none →
      a.Fulfils p g frames (.stop a.pos a.facing .endOfProgram) := by
    intro a h hphase hcursor
    refine h.fulfils_stop hp hg hphase ?_
    rw [hcursor]
    rfl
  induction l generalizing n a with
  | absent => exact hnothing a h hphase hcursor
  | marker text => exact hnothing a h hphase hcursor
  | brick name head right bottom ihr ihb =>
    obtain ⟨hatr, hatb⟩ := hat.of_brick
    obtain ⟨hnotail, hfreer, hfreeb⟩ := hfree.of_brick
    have hright := fun b hb hphase hcursor => ihr hfreer hatr (a := b) hb hphase hcursor
    have hbottom := fun b hb hphase hcursor => ihb hfreeb hatb (a := b) hb hphase hcursor
    have honward := fun b hb =>
      fulfils_onward ⟨name, head, right, bottom⟩ hright hbottom (a := b) hb
    have hd := Program.HasAt.decide_eq (b := ⟨name, head, right, bottom⟩) hat a.facing a.openings
    have hkind : (Brick.nodeAt n ⟨name, head, right, bottom⟩).kind = Kind.ofTag head.kind := rfl
    have hcommand : (Brick.nodeAt n ⟨name, head, right, bottom⟩).command =
      Command.ofTag head.command := rfl
    unfold Node.decide at hd
    rw [hkind, hcommand, Brick.unknown_nodeAt] at hd
    replace hd := (congrArg (p.decide · a.facing a.openings) hcursor).trans hd
    rw [Link.journey]
    cases hk : Kind.ofTag head.kind with
    | entry =>
      rw [hk] at hd
      exact h.fulfils_stay hp hg hphase hd (fun _ hv => nomatch hv) _ honward
    | basic =>
      rw [hk] at hd
      exact h.fulfils_ofBasic hp hg hframes hphase hd honward
    | case =>
      rw [hk] at hd
      dsimp only at hd ⊢
      cases hside : (Command.ofTag head.command).side? with
      | none =>
        rw [hside] at hd
        exact h.fulfils_stop hp hg hphase hd
      | some side =>
        rw [hside] at hd
        exact h.fulfils_test hp hg hphase hd hright hbottom
    | tail => exact absurd hk hnotail
    | other tag =>
      rw [hk] at hd
      exact h.fulfils_stop hp hg hphase hd

end Sound

end TileWalk.Agent
