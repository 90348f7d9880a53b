import TileWalk.Proofs.Agent.Alone
import TileWalk.Proofs.Agent.Sound
import TileWalk.Proofs.Program.Occurrences

/-!
# Walking through trees

A walker executes a list of brick trees as they are drawn: it stands at a brick, looks at what hangs
to the right of it and below it, and calls a function by searching the trees for the first brick
that declares it. There are no nodes and no numbers of nodes here.

An agent that executes the program drawn by the trees does the same, tick by tick
(`Walker.Agrees.exists_tick`, `Walker.Agrees.exists_run`): it is at the node whose number is the
place of the walker's brick in pre-order, and it stops for the same reason.
-/

namespace TileWalk

open Outcome

namespace Walker

/-! ### Deciding at a brick -/

/-- Why a walker stops. -/
inductive Halt
  | endOfProgram
  | ambiguousLinks (brick : Occurrence)
  | unknownCommand (brick : Occurrence) (kind command : String)
  | invalidCallArgument (brick : Occurrence) (argument : String)
  deriving DecidableEq, Repr

/-- Where a walker goes on, if it does. -/
inductive Course
  | resume (brick : Option Occurrence)
  | finish (halt : Halt)
  deriving DecidableEq, Repr

/-- What a walker does, and where it goes on. -/
structure Choice where
  action : Action
  course : Course
  deriving DecidableEq, Repr

/-- A brick that does not branch passes control to the only brick that hangs on it. -/
def courseAt (o : Occurrence) (b : Brick) : Course :=
  match o.next? b .right, o.next? b .bottom with
  | some next, none => .resume (some next)
  | none, some next => .resume (some next)
  | none, none => .finish .endOfProgram
  | some _, some _ => .finish (.ambiguousLinks o)

/-- The number of the function that a brick calls. It depends on the text of the argument only. -/
def callTarget? (b : Brick) : Option Nat :=
  (b.nodeAt 0).callTarget?

theorem callTarget?_lt {b : Brick} {f : Nat} (h : callTarget? b = some f) :
    f < Node.functionLimit := by
  unfold callTarget? Node.callTarget? Text.Decimal.below? at h
  dsimp only at h
  split at h
  · next n hn =>
    split_ifs at h hn with _ hbelow
    obtain rfl := Option.some.inj h
    obtain rfl := Option.some.inj hn
    exact hbelow.2
  · cases h

/-- What a brick makes a walker do. -/
def decideAt (trees : List Brick) (o : Occurrence) (b : Brick) (f : Facing) (seen : Openings) :
    Choice :=
  let unknown : Choice := ⟨.none, .finish (.unknownCommand o b.head.kind b.head.command)⟩
  match Kind.ofTag b.head.kind with
  | .entry => ⟨.none, courseAt o b⟩
  | .basic =>
    match (Command.ofTag b.head.command).action? f seen with
    | some action => ⟨action, courseAt o b⟩
    | none => unknown
  | .case =>
    match (Command.ofTag b.head.command).side? with
    | some side => ⟨.none, .resume (o.next? b (if seen.get side then .right else .bottom))⟩
    | none => unknown
  | .tail =>
    match callTarget? b with
    | some function => ⟨.none, .resume (Occurrence.function? trees function)⟩
    | none => ⟨.none, .finish (.invalidCallArgument o b.argumentText)⟩
  | .other _ => unknown

/-- What a walker does at a brick, or nowhere. -/
def decide (trees : List Brick) (brick : Option Occurrence) (f : Facing) (seen : Openings) :
    Choice :=
  match brick.bind fun o => (o.brick? trees).map (Prod.mk o) with
  | some (o, b) => decideAt trees o b f seen
  | none => ⟨.none, .finish .endOfProgram⟩

end Walker

/-! ### Walking -/

/-- What a walker is busy with. -/
inductive Walker.Activity
  | stopped (halt : Walker.Halt)
  | executing (brick : Option Occurrence)
  | moving (remaining : Nat) (course : Walker.Course)
  deriving DecidableEq, Repr

/-- Someone who executes brick trees as they are drawn. -/
@[ext]
structure Walker where
  pos : Pos
  facing : Facing
  openings : Openings
  activity : Walker.Activity
  deriving DecidableEq, Repr

namespace Walker

/-- The brick that the walker executes next. -/
def cursor (w : Walker) : Option Occurrence :=
  match w.activity with
  | .executing brick => brick
  | _ => none

/-- Why the walker has stopped. -/
def halt? (w : Walker) : Option Halt :=
  match w.activity with
  | .stopped halt => some halt
  | _ => none

/-- How many ticks its move still takes. -/
def remaining (w : Walker) : Nat :=
  match w.activity with
  | .moving remaining _ => remaining
  | _ => 0

/-- The walker at a starting place as a run begins. -/
def start (trees : List Brick) (g : Grid) (s : Spawn) : Except Fault Walker := do
  let openings ← Openings.around g s.pos s.facing
  let activity : Activity :=
    match Occurrence.root? trees with
    | some root => .executing (some root)
    | none => .stopped .endOfProgram
  return ⟨s.pos, s.facing, openings, activity⟩

/-- The walker takes a course. -/
def follow (w : Walker) : Course → Walker
  | .resume brick => { w with activity := .executing brick }
  | .finish halt => { w with activity := .stopped halt }

/-- What a walker does in one tick. A move takes `frames` ticks, and at least one. -/
def tick (trees : List Brick) (g : Grid) (frames : UInt32) (w : Walker) : Except Fault Walker :=
  match w.activity with
  | .stopped _ => .ok w
  | .executing brick => do
    let seen ← Openings.around g w.pos w.facing
    let d := decide trees brick w.facing seen
    match d.action with
    | .move _ =>
      return { w with openings := seen, activity := .moving (max 1 frames.toNat) d.course }
    | action =>
      let facing := action.facing w.facing
      let openings ← Openings.around g w.pos facing
      return { w with facing, openings }.follow d.course
  | .moving remaining course =>
    if 1 < remaining then
      .ok { w with activity := .moving (remaining - 1) course }
    else do
      let pos ← w.pos.add w.facing.vector
      let openings ← Openings.around g pos w.facing
      return { w with pos, openings }.follow course

/-- What a walker does in `k` ticks. -/
def run (trees : List Brick) (g : Grid) (frames : UInt32) : Nat → Walker → Except Fault Walker
  | 0, w => .ok w
  | k + 1, w => do
    let w ← w.tick trees g frames
    run trees g frames k w

end Walker

/-! ### Agreement -/

/-- An ending names the node with the number of the brick. -/
inductive Walker.Halt.Agrees (trees : List Brick) : Walker.Halt → Ending → Prop
  | endOfProgram : Agrees trees .endOfProgram .endOfProgram
  | ambiguousLinks {o : Occurrence} {id : NodeId} (h : o.IsAt trees id) :
      Agrees trees (.ambiguousLinks o) (.ambiguousLinks id)
  | unknownCommand {o : Occurrence} {id : NodeId} (h : o.IsAt trees id) (kind command : String) :
      Agrees trees (.unknownCommand o kind command) (.unknownCommand id kind command)
  | invalidCallArgument {o : Occurrence} {id : NodeId} (h : o.IsAt trees id) (argument : String) :
      Agrees trees (.invalidCallArgument o argument) (.invalidCallArgument id argument)

/-- A sequel leads to the node with the number of the brick. -/
inductive Walker.Course.Agrees (trees : List Brick) : Walker.Course → Sequel → Prop
  | resume {brick : Option Occurrence} {node : Option NodeId}
      (h : Option.Rel (Occurrence.IsAt trees) brick node) :
      Agrees trees (.resume brick) (.resume node)
  | finish {halt : Walker.Halt} {ending : Ending} (h : halt.Agrees trees ending) :
      Agrees trees (.finish halt) (.finish ending)

/-- An agent is busy with what a walker is busy with. -/
inductive Walker.Activity.Agrees (trees : List Brick) : Walker.Activity → Phase → Prop
  | stopped (halt : Walker.Halt) : Agrees trees (.stopped halt) .idle
  | executing (brick : Option Occurrence) : Agrees trees (.executing brick) .executing
  | moving {course : Walker.Course} {sequel : Sequel} (remaining : Nat)
      (h : course.Agrees trees sequel) : Agrees trees (.moving remaining course) (.moving sequel)

/-- An agent is where a walker is, and does what the walker does. -/
structure Walker.Agrees (trees : List Brick) (w : Walker) (a : Agent) : Prop where
  pos_eq : a.pos = w.pos
  facing_eq : a.facing = w.facing
  openings_eq : a.openings = w.openings
  phase : w.activity.Agrees trees a.phase
  remaining_eq : a.remainFrames.toNat = w.remaining
  cursor : Option.Rel (Occurrence.IsAt trees) w.cursor a.cursor
  finished : Option.Rel (Walker.Halt.Agrees trees) w.halt? a.finished

namespace Walker

variable {trees : List Brick} {p : Program} {g : Grid} {frames : UInt32} {w : Walker} {a b : Agent}

/-! ### Deciding alike -/

theorem courseAt_agrees {o : Occurrence} {b : Brick} {n : Node} (hid : o.IsAt trees n.id)
    (hright : Option.Rel (Occurrence.IsAt trees) (o.next? b .right) n.right)
    (hbottom : Option.Rel (Occurrence.IsAt trees) (o.next? b .bottom) n.bottom) :
    (courseAt o b).Agrees trees n.sequel := by
  unfold courseAt Node.sequel Node.successor
  generalize o.next? b .right = right at hright
  generalize o.next? b .bottom = bottom at hbottom
  generalize n.right = right' at hright
  generalize n.bottom = bottom' at hbottom
  cases hright with
  | some hr =>
    cases hbottom with
    | some hb => exact .finish (.ambiguousLinks hid)
    | none => exact .resume (.some hr)
  | none =>
    cases hbottom with
    | some hb => exact .resume (.some hb)
    | none => exact .finish .endOfProgram

/-- A brick and its node make the same decision. -/
theorem decideAt_agrees (hp : Program.ofBricks trees = .ok p) {o : Occurrence} {id : NodeId}
    {b : Brick} (hid : o.IsAt trees id)
    (hright : Option.Rel (Occurrence.IsAt trees) (o.next? b .right) (b.nodeAt id.index).right)
    (hbottom : Option.Rel (Occurrence.IsAt trees) (o.next? b .bottom) (b.nodeAt id.index).bottom)
    (f : Facing) (seen : Openings) :
    (decideAt trees o b f seen).action = ((b.nodeAt id.index).decide p f seen).action ∧
      (decideAt trees o b f seen).course.Agrees trees
        ((b.nodeAt id.index).decide p f seen).sequel := by
  obtain ⟨n, hn⟩ : ∃ n, b.nodeAt id.index = n := ⟨_, rfl⟩
  have hnid : n.id = id := by rw [← hn]; exact Ident.ofIndex_index id
  have hkind : n.kind = Kind.ofTag b.head.kind := by rw [← hn]; rfl
  have hcommand : n.command = Command.ofTag b.head.command := by rw [← hn]; rfl
  have hargument : n.argument = b.argumentText := by rw [← hn]; rfl
  have htarget : n.callTarget? = callTarget? b := by rw [← hn]; rfl
  rw [hn] at hright hbottom ⊢
  have hat : o.IsAt trees n.id := hnid.symm ▸ hid
  have hcourse := courseAt_agrees hat hright hbottom
  have hunknown : (Course.finish (.unknownCommand o b.head.kind b.head.command)).Agrees trees
      (.finish n.unknown) := by
    unfold Node.unknown
    rw [hkind, hcommand, Kind.tag_ofTag, Command.tag_ofTag]
    exact .finish (.unknownCommand hat _ _)
  unfold decideAt Node.decide
  rw [hkind, hcommand, hargument, htarget]
  cases Kind.ofTag b.head.kind with
  | entry => exact ⟨rfl, hcourse⟩
  | basic =>
    cases (Command.ofTag b.head.command).action? f seen with
    | some action => exact ⟨rfl, hcourse⟩
    | none => exact ⟨rfl, hunknown⟩
  | case =>
    cases (Command.ofTag b.head.command).side? with
    | some side =>
      refine ⟨rfl, .resume ?_⟩
      unfold Node.branch
      cases seen.get side with
      | true => exact hright
      | false => exact hbottom
    | none => exact ⟨rfl, hunknown⟩
  | tail =>
    cases hcall : callTarget? b with
    | some function =>
      exact ⟨rfl, .resume (Occurrence.rel_function? hp (callTarget?_lt hcall))⟩
    | none => exact ⟨rfl, .finish (.invalidCallArgument hat _)⟩
  | other tag => exact ⟨rfl, hunknown⟩

/-- A walker and an agent that are at the same brick make the same decision. -/
theorem decide_agrees (hp : Program.ofBricks trees = .ok p) {brick : Option Occurrence}
    {cursor : Option NodeId} (h : Option.Rel (Occurrence.IsAt trees) brick cursor) (f : Facing)
    (seen : Openings) :
    (decide trees brick f seen).action = (p.decide cursor f seen).action ∧
      (decide trees brick f seen).course.Agrees trees (p.decide cursor f seen).sequel := by
  cases h with
  | none => exact ⟨rfl, .finish .endOfProgram⟩
  | @some o id hid =>
    obtain ⟨b, hbrick, hnode, hright, hbottom⟩ := hid.exists_node hp
    have hwalker : decide trees (some o) f seen = decideAt trees o b f seen := by
      unfold decide
      rw [Option.bind_some, hbrick]
      rfl
    have hagent : p.decide (some id) f seen = (b.nodeAt id.index).decide p f seen := by
      unfold Program.decide
      rw [Option.bind_some, hnode]
    rw [hwalker, hagent]
    exact decideAt_agrees hp hid hright hbottom f seen

/-! ### One tick -/

theorem tick_of_stay {brick : Option Occurrence} {seen openings : Openings} {d : Choice}
    (hw : w.activity = .executing brick) (hseen : Openings.around g w.pos w.facing = .ok seen)
    (hd : decide trees brick w.facing seen = d) (hstay : ∀ v, d.action ≠ .move v)
    (ho : Openings.around g w.pos (d.action.facing w.facing) = .ok openings) :
    w.tick trees g frames =
      .ok ({ w with facing := d.action.facing w.facing, openings }.follow d.course) := by
  unfold tick
  rw [hw]
  dsimp only
  rw [hseen]
  show (match (decide trees brick w.facing seen).action with
    | .move _ => _
    | action => _) = _
  rw [hd]
  cases hact : d.action with
  | move v => exact absurd hact (hstay v)
  | none =>
    rw [hact] at ho
    exact bind_eq_ok_iff.mpr ⟨openings, ho, rfl⟩
  | turn facing =>
    rw [hact] at ho
    exact bind_eq_ok_iff.mpr ⟨openings, ho, rfl⟩
  | blocked =>
    rw [hact] at ho
    exact bind_eq_ok_iff.mpr ⟨openings, ho, rfl⟩

theorem tick_of_move {brick : Option Occurrence} {seen : Openings} {d : Choice} {v : Vec}
    (hw : w.activity = .executing brick) (hseen : Openings.around g w.pos w.facing = .ok seen)
    (hd : decide trees brick w.facing seen = d) (hmove : d.action = .move v) :
    w.tick trees g frames =
      .ok { w with openings := seen, activity := .moving (max 1 frames.toNat) d.course } := by
  unfold tick
  rw [hw]
  dsimp only
  rw [hseen]
  show (match (decide trees brick w.facing seen).action with
    | .move _ => _
    | action => _) = _
  rw [hd, hmove]
  rfl

theorem tick_of_lt {remaining : Nat} {course : Course} (hw : w.activity = .moving remaining course)
    (hlt : 1 < remaining) :
    w.tick trees g frames = .ok { w with activity := .moving (remaining - 1) course } := by
  unfold tick
  rw [hw]
  exact if_pos hlt

theorem tick_of_le {remaining : Nat} {course : Course} {goal : Pos} {openings : Openings}
    (hw : w.activity = .moving remaining course) (hle : remaining ≤ 1)
    (hgoal : w.pos.add w.facing.vector = .ok goal)
    (ho : Openings.around g goal w.facing = .ok openings) :
    w.tick trees g frames = .ok ({ w with pos := goal, openings }.follow course) := by
  unfold tick
  rw [hw]
  dsimp only
  rw [if_neg (Nat.not_lt.mpr hle)]
  exact bind_eq_ok_iff.mpr ⟨goal, hgoal, bind_eq_ok_iff.mpr ⟨openings, ho, rfl⟩⟩

/-- Going on alike from the same place keeps the agreement. -/
theorem agrees_follow (hpos : a.pos = w.pos) (hfacing : a.facing = w.facing)
    (hopenings : a.openings = w.openings) (hmotion : a.motion = none)
    (hfinished : a.finished = none) {course : Course} {sequel : Sequel}
    (h : course.Agrees trees sequel) : (w.follow course).Agrees trees (a.follow sequel) := by
  have hremaining : (a.follow sequel).remainFrames.toNat = 0 := by
    rw [Agent.remainFrames, Agent.follow_motion, hmotion]
    rfl
  cases h with
  | @resume brick node hnode =>
    refine ⟨hpos, hfacing, hopenings, .executing brick, hremaining, hnode, ?_⟩
    show Option.Rel _ none a.finished
    rw [hfinished]
    exact .none
  | @finish halt ending hhalt =>
    exact ⟨hpos, hfacing, hopenings, .stopped halt, hremaining, .none, .some hhalt⟩

/-- A walker has stopped where the agent is idle. -/
theorem Agrees.exists_halt (h : w.Agrees trees a) (hphase : a.phase = .idle) :
    ∃ halt, w.activity = .stopped halt := by
  have hbusy := h.phase
  rw [hphase] at hbusy
  generalize w.activity = activity at hbusy
  cases hbusy with
  | stopped halt => exact ⟨halt, rfl⟩

/-- A walker executes where the agent does, sees the same, and makes the same choice. -/
theorem Agrees.exists_choice (hp : Program.ofBricks trees = .ok p) (h : w.Agrees trees a)
    (hphase : a.phase = .executing) {seen : Openings} {action : Action} {sequel : Sequel}
    (hseen : Openings.around g a.pos a.facing = .ok seen)
    (hd : p.decide a.cursor a.facing seen = ⟨action, sequel⟩) :
    ∃ brick, w.activity = .executing brick ∧ Openings.around g w.pos w.facing = .ok seen ∧
      (decide trees brick w.facing seen).action = action ∧
      (decide trees brick w.facing seen).course.Agrees trees sequel := by
  have hbusy := h.phase
  have hcursor := h.cursor
  rw [hphase] at hbusy
  generalize hw : w.activity = activity at hbusy
  cases hbusy with
  | executing brick =>
    rw [Walker.cursor, hw] at hcursor
    rw [h.pos_eq, h.facing_eq] at hseen
    rw [h.facing_eq] at hd
    have hboth := decide_agrees hp hcursor w.facing seen
    rw [hd] at hboth
    exact ⟨brick, rfl, hseen, hboth⟩

/-- A walker moves where the agent does, as long, and to go on alike. -/
theorem Agrees.exists_course (h : w.Agrees trees a) {sequel : Sequel} {m : Motion}
    (hphase : a.phase = .moving sequel) (hm : a.motion = some m) :
    ∃ course, w.activity = .moving m.remaining.toNat course ∧ course.Agrees trees sequel := by
  have hbusy := h.phase
  have hremaining := h.remaining_eq
  rw [hphase] at hbusy
  rw [Agent.remainFrames, hm] at hremaining
  generalize hw : w.activity = activity at hbusy
  cases hbusy with
  | @moving course sequel remaining hcourse =>
    rw [Walker.remaining, hw] at hremaining
    have hleft : m.remaining.toNat = remaining := hremaining
    rw [hleft]
    exact ⟨course, rfl, hcourse⟩

/-- Nothing is finished while the walker has not stopped. -/
theorem rel_finished_none (hfinished : a.finished = none) :
    Option.Rel (Halt.Agrees trees) none a.finished := by
  rw [hfinished]
  exact .none

/-- What an agent does in a tick, the walker that it agrees with does too. -/
theorem Agrees.exists_tick (hp : Program.ofBricks trees = .ok p) (h : w.Agrees trees a)
    (ha : a.Coherent) (hl : Agent.Lives p g frames a b) :
    ∃ w', w.tick trees g frames = .ok w' ∧ w'.Agrees trees b := by
  have hpos := h.pos_eq
  have hfacing := h.facing_eq
  cases hl with
  | rest hphase =>
    obtain ⟨halt, hw⟩ := h.exists_halt hphase
    refine ⟨w, ?_, h⟩
    unfold tick
    rw [hw]
  | @act o seen action sequel hphase ho hd hstay hseen =>
    obtain ⟨hmotion, hfinished⟩ := ha.of_executing hphase
    obtain ⟨brick, hw, ho, haction, hcourse⟩ := h.exists_choice hp hphase ho hd
    -- both turn in the same way, and look around again
    rw [hpos, hfacing, ← haction] at hseen
    refine ⟨_, tick_of_stay hw ho rfl (fun v hv => hstay v (haction.symm.trans hv)) hseen, ?_⟩
    rw [haction]
    apply agrees_follow
    · exact hpos
    · show action.facing a.facing = action.facing w.facing
      rw [hfacing]
    · rfl
    · exact hmotion
    · exact hfinished
    · exact hcourse
  | @depart o dir sequel hphase ho hd =>
    obtain ⟨-, hfinished⟩ := ha.of_executing hphase
    obtain ⟨brick, hw, ho, haction, hcourse⟩ := h.exists_choice hp hphase ho hd
    refine ⟨_, tick_of_move hw ho rfl haction, hpos, hfacing, rfl, .moving _ hcourse, ?_, .none,
      rel_finished_none hfinished⟩
    exact Motion.toNat_remaining_start a.pos dir frames
  | @travel m sequel hphase hm hover =>
    obtain ⟨hnone, hfinished, -⟩ := ha.of_moving sequel hphase
    obtain ⟨course, hw, hcourse⟩ := h.exists_course hphase hm
    -- the motion is not over after this tick, so more than one tick was left
    have hnext := m.toNat_remaining_advance
    have hne := Motion.isOver_eq_false_iff.mp hover
    refine ⟨_, tick_of_lt hw (by omega), hpos, hfacing, h.openings_eq, ?_, ?_, ?_,
      rel_finished_none hfinished⟩
    · show Activity.Agrees trees _ a.phase
      rw [hphase]
      exact .moving _ hcourse
    · show m.advance.remaining.toNat = m.remaining.toNat - 1
      omega
    · show Option.Rel _ none a.cursor
      rw [hnone]
      exact .none
  | @arrive m sequel goal ticks o hphase hm hover hgoal hticks ho =>
    obtain ⟨-, hfinished, m', hm', hway⟩ := ha.of_moving _ hphase
    obtain rfl := Option.some.inj (hm.symm.trans hm')
    obtain ⟨course, hw, hcourse⟩ := h.exists_course hphase hm
    have hnext := m.toNat_remaining_advance
    have hzero := Motion.isOver_iff.mp hover
    -- the motion leads to the cell ahead of the walker
    unfold Motion.destination at hgoal
    rw [hway.origin_eq, hway.dir_eq, hpos, hfacing] at hgoal
    rw [hfacing] at ho
    refine ⟨_, tick_of_le hw (by omega) hgoal ho, ?_⟩
    apply agrees_follow
    · rfl
    · exact hfacing
    · rfl
    · rfl
    · exact hfinished
    · exact hcourse

/-! ### Whole runs -/

/-- What an agent does in several ticks, the walker that it agrees with does too. -/
theorem Agrees.exists_run (hp : Program.ofBricks trees = .ok p) (h : w.Agrees trees a)
    (ha : a.Coherent) {k : Nat} (hl : a.liveFor p g frames k = .ok b) :
    ∃ w', w.run trees g frames k = .ok w' ∧ w'.Agrees trees b := by
  induction k generalizing w a with
  | zero =>
    obtain rfl := Except.ok.inj hl
    exact ⟨w, rfl, h⟩
  | succ k ih =>
    obtain ⟨c, hc, hrest⟩ := Agent.liveFor_succ_eq_ok_iff.mp hl
    have hlives := ha.lives hc
    obtain ⟨w₁, hw₁, hagrees⟩ := h.exists_tick hp ha hlives
    obtain ⟨w₂, hw₂, hresult⟩ := ih hagrees (hlives.coherent ha) hrest
    exact ⟨w₂, bind_eq_ok_iff.mpr ⟨w₁, hw₁, hw₂⟩, hresult⟩

end Walker

end TileWalk
