import TileWalk.Proofs.Agent.Sound

/-!
# Reasons to stop

A reason to stop names a node of the program and says what is wrong with it. `Node.Stops` says of a
node, without deciding anything, which reason it gives. Deciding agrees with it: control ends at a
node that stops, with the reason that the node gives (`Node.Stops.sequel_decide`), and nowhere else,
but where the program ends (`Program.IsClosed.explains_of_decide`).

An agent keeps its reason after it has stopped, and carries it along while it moves to the cell on
which it is to stop. Whatever the agent does, its reason stays true of the program
(`Agent.Lives.isTruthful`).
-/

namespace TileWalk

/-! ### Nodes -/

/-- The commands that a basic brick carries out. -/
def Command.IsBasic (c : Command) : Prop :=
  c = .move ∨ c = .turnRight ∨ c = .turnLeft ∨ c = .turnBack ∨ c = .pass

/-- The reason to stop that a node gives. -/
inductive Node.Stops (n : Node) : Ending → Prop
  /-- What the node does can be done, but it does not branch and has two links. -/
  | ambiguous (hacts : n.kind = .entry ∨ n.kind = .basic ∧ n.command.IsBasic)
      (hright : n.right.isSome = true) (hbottom : n.bottom.isSome = true) :
      n.Stops (.ambiguousLinks n.id)
  /-- The kind of the node is not known, or does not know the command. -/
  | unknown (hunknown : (∃ tag, n.kind = .other tag) ∨ n.kind = .basic ∧ ¬ n.command.IsBasic ∨
      n.kind = .case ∧ ∀ side, n.command ≠ .test side) :
      n.Stops (.unknownCommand n.id n.kind.tag n.command.tag)
  /-- The node calls nothing that can be a function. -/
  | call (hkind : n.kind = .tail) (hcall : n.callTarget? = none) :
      n.Stops (.invalidCallArgument n.id n.argument)

/-- The node makes an agent move that sees such openings. -/
def Node.Departs (n : Node) (o : Openings) : Prop :=
  n.kind = .basic ∧ n.command = .move ∧ o.front = true

/-- The reason is true of the program: the program ends, or the node that the reason names gives
it. -/
def Program.Explains (p : Program) (reason : Ending) : Prop :=
  reason = .endOfProgram ∨ ∃ n, p.node? n.id = some n ∧ n.Stops reason

namespace Command

variable {c : Command} {f : Facing} {o : Openings}

theorem isBasic_iff : c.IsBasic ↔ ∃ action, c.action? f o = some action := by
  cases c <;> simp [IsBasic, action?]

theorem not_isBasic_iff : ¬ c.IsBasic ↔ c.action? f o = none := by
  rw [isBasic_iff (f := f) (o := o), ← Option.isSome_iff_exists, Bool.not_eq_true,
    Option.isSome_eq_false_iff, Option.isNone_iff_eq_none]

theorem side?_eq_none_iff : c.side? = none ↔ ∀ side, c ≠ .test side := by
  cases c <;> simp [side?]

end Command

namespace Node

variable {n : Node} {p : Program} {f : Facing} {o : Openings} {reason : Ending}

theorem sequel_eq_finish_iff : n.sequel = .finish reason ↔
    reason = .endOfProgram ∧ n.right = none ∧ n.bottom = none ∨
      reason = .ambiguousLinks n.id ∧ n.right.isSome = true ∧ n.bottom.isSome = true := by
  unfold sequel successor
  cases n.right <;> cases n.bottom <;> simp [eq_comm]

/-- A node ends control with the reason that it gives, or because the program ends. -/
theorem stops_of_decide (h : (n.decide p f o).sequel = .finish reason) :
    reason = .endOfProgram ∨ n.Stops reason := by
  have hlinks : (n.kind = .entry ∨ n.kind = .basic ∧ n.command.IsBasic) →
      n.sequel = .finish reason → reason = .endOfProgram ∨ n.Stops reason := by
    intro hacts hsequel
    rcases sequel_eq_finish_iff.mp hsequel with ⟨rfl, -, -⟩ | ⟨rfl, hright, hbottom⟩
    · exact Or.inl rfl
    · exact Or.inr (.ambiguous hacts hright hbottom)
  unfold decide at h
  split at h
  · next hkind => exact hlinks (Or.inl hkind) h
  · next hkind =>
    split at h
    · next action haction =>
      have hbasic : n.command.IsBasic := Command.isBasic_iff.mpr ⟨action, haction⟩
      exact hlinks (Or.inr ⟨hkind, hbasic⟩) h
    · next hnone =>
      obtain rfl := Sequel.finish.inj h
      have hnot : ¬ n.command.IsBasic := Command.not_isBasic_iff.mpr hnone
      exact Or.inr (.unknown (Or.inr (Or.inl ⟨hkind, hnot⟩)))
  · next hkind =>
    split at h
    · cases h
    · next hnone =>
      obtain rfl := Sequel.finish.inj h
      exact Or.inr (.unknown (Or.inr (Or.inr ⟨hkind, Command.side?_eq_none_iff.mp hnone⟩)))
  · next hkind =>
    split at h
    · cases h
    · next hnone =>
      obtain rfl := Sequel.finish.inj h
      exact Or.inr (.call hkind hnone)
  · next tag hkind =>
    obtain rfl := Sequel.finish.inj h
    exact Or.inr (.unknown (Or.inl ⟨tag, hkind⟩))

/-- A node that stops ends control, whatever the agent sees. -/
theorem Stops.sequel_decide (h : n.Stops reason) (p : Program) (f : Facing) (o : Openings) :
    (n.decide p f o).sequel = .finish reason := by
  unfold decide
  cases h with
  | ambiguous hacts hright hbottom =>
    have hsequel := sequel_eq_finish_iff.mpr (Or.inr ⟨rfl, hright, hbottom⟩)
    rcases hacts with hkind | ⟨hkind, hbasic⟩
    · rw [hkind]
      exact hsequel
    · obtain ⟨action, haction⟩ := Command.isBasic_iff (f := f) (o := o).mp hbasic
      rw [hkind]
      dsimp only
      rw [haction]
      exact hsequel
  | unknown hunknown =>
    rcases hunknown with ⟨tag, hkind⟩ | ⟨hkind, hnot⟩ | ⟨hkind, hnot⟩
    · simp [hkind, Node.unknown, Decision.finish]
    · have hnone := Command.not_isBasic_iff (f := f) (o := o).mp hnot
      simp [hkind, hnone, Node.unknown, Decision.finish]
    · have hnone := Command.side?_eq_none_iff.mpr hnot
      simp [hkind, hnone, Node.unknown, Decision.finish]
  | call hkind hcall => simp [hkind, hcall, Decision.finish]

/-- A node begins a move if it is a basic brick that moves and the front is open, and only then. -/
theorem exists_move_decide_iff :
    (∃ dir, (n.decide p f o).action = .move dir) ↔ n.Departs o := by
  constructor
  · rintro ⟨dir, hdir⟩
    exact (decide_action_eq_move_iff.mp hdir).1
  · intro hdeparts
    exact ⟨f.vector, decide_action_eq_move_iff.mpr ⟨hdeparts, rfl⟩⟩

end Node

/-! ### Programs -/

namespace Program

variable {p : Program} {cursor : Option NodeId} {f : Facing} {o : Openings} {reason : Ending}

/-- Every reason that a program gives is true of it. -/
theorem IsClosed.explains_of_decide (hp : p.IsClosed)
    (h : (p.decide cursor f o).sequel = .finish reason) : p.Explains reason := by
  unfold Program.decide at h
  split at h
  · next n hbind =>
    obtain ⟨id, -, hn⟩ := Option.bind_eq_some_iff.mp hbind
    have hmem : n ∈ p.nodes.toList := by
      apply List.mem_of_getElem?
      rw [Array.getElem?_toList]
      exact hn
    rcases Node.stops_of_decide h with hend | hstops
    · exact Or.inl hend
    · exact Or.inr ⟨n, (hp.index_of_mem hmem).2, hstops⟩
  · exact Or.inl (Sequel.finish.inj h).symm

end Program

/-! ### Agents -/

namespace Agent

variable {p : Program} {g : Grid} {frames : UInt32} {a b : Agent} {sequel : Sequel}

/-- The reason for which the agent has stopped, or will stop when it arrives, is true of the
program. -/
def IsTruthful (p : Program) (a : Agent) : Prop :=
  ∀ reason, a.finished = some reason ∨ a.phase = .moving (.finish reason) → p.Explains reason

theorem isTruthful_of_new (hphase : a.phase = .idle) (hfinished : a.finished = none) :
    a.IsTruthful p := by
  intro reason h
  simp [hphase, hfinished] at h

theorem isTruthful_follow (hf : a.finished = none)
    (hsequel : ∀ reason, sequel = .finish reason → p.Explains reason) :
    (a.follow sequel).IsTruthful p := by
  intro reason h
  cases sequel with
  | resume node => simp [follow, hf] at h
  | finish reason' =>
    obtain rfl : reason' = reason := by simpa [follow] using h
    exact hsequel reason' rfl

/-- What an agent does in a tick keeps its reason true. -/
theorem Lives.isTruthful (hp : p.IsClosed) (h : Lives p g frames a b) (hc : a.Coherent)
    (ha : a.IsTruthful p) : b.IsTruthful p := by
  cases h with
  | rest => exact ha
  | act hphase ho hd =>
    apply isTruthful_follow
    · exact (hc.of_executing hphase).2
    · rintro reason rfl
      exact hp.explains_of_decide (congrArg Decision.sequel hd)
  | depart hphase ho hd =>
    rintro reason (hfinished | hmoving)
    · exact ha reason (Or.inl hfinished)
    · obtain rfl := Phase.moving.inj hmoving
      exact hp.explains_of_decide (congrArg Decision.sequel hd)
  | travel hphase =>
    rintro reason (hfinished | hmoving)
    · exact ha reason (Or.inl hfinished)
    · exact ha reason (Or.inr hmoving)
  | arrive hphase =>
    apply isTruthful_follow
    · exact (hc.of_moving _ hphase).2.1
    · rintro reason rfl
      exact ha reason (Or.inr hphase)

end Agent

end TileWalk
