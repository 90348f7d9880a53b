import TileWalk.Proofs.Agent.Journey

/-!
# An agent on its own

A simulation calls the operations of its agents in a fixed order, but whoever has an agent can call
them in any order (`Agent.uses`). An agent is meant to have a motion if and only if it is moving, to
execute nothing while it has a motion, and to go on when it arrives as was decided when the move
began (`Agent.Use.IsProper`).

No operation but a reset takes a motion away before it ends. So the agent does as it is meant to as
long as it is not sent on while it has a motion, and only that long (`Agent.uses_proper_iff`).
-/

namespace TileWalk

open Outcome

/-! ### Calls -/

/-- What is to follow the move under way, once a decision has been acted on. -/
def Decision.pendingOr (d : Decision) (pending : Option Sequel) : Option Sequel :=
  match d.action with
  | .move _ => some d.sequel
  | _ => pending

namespace Agent

/-- An operation of an agent, with what it is given. -/
inductive Call
  | seed (root : Option NodeId)
  | execute (program : Program) (frames : UInt32)
  | apply (decision : Decision) (frames : UInt32)
  | advance
  | refresh
  | reset (start : Spawn)

/-- What an agent has done when it was called. -/
structure Effect where
  /-- The decision that it acted on. -/
  acted : Option Decision
  /-- The end of its move. -/
  arrival : Option Arrival

/-- A call, the agent before and after it, and what was to follow the move under way. -/
structure Use where
  before : Agent
  pending : Option Sequel
  call : Call
  effect : Effect
  after : Agent

/-- Calls an operation of an agent. -/
def perform (g : Grid) (a : Agent) : Call → Except Fault (Effect × Agent)
  | .seed root => .ok (⟨none, none⟩, a.seed root)
  | .execute program frames =>
    (a.execute program g frames).map fun (acted, b) => (⟨acted, none⟩, b)
  | .apply decision frames => .ok (⟨some decision, none⟩, a.apply decision frames)
  | .advance =>
    match a.advance g with
    | .ok (arrival, b) => .ok (⟨none, arrival⟩, b)
    | .error interruption => .error interruption.fault
  | .refresh => (a.refresh g).map fun b => (⟨none, none⟩, b)
  | .reset start => (a.reset start g).map fun b => (⟨none, none⟩, b)

/-- What is to follow the move that is under way after a call. -/
def pendingAfter (pending : Option Sequel) (call : Call) (effect : Effect) : Option Sequel :=
  match call, effect.arrival, effect.acted with
  | .reset _, _, _ => none
  | _, some _, _ => none
  | _, none, some d => d.pendingOr pending
  | _, none, none => pending

/-- Calls one operation after the other. -/
def uses (g : Grid) (a : Agent) (pending : Option Sequel) : List Call → Except Fault (List Use)
  | [] => .ok []
  | call :: calls => do
    let (effect, b) ← a.perform g call
    let later ← uses g b (pendingAfter pending call effect) calls
    return ⟨a, pending, call, effect, b⟩ :: later

/-- The call sends the agent on, whether or not it has a motion. -/
def Call.SendsOn : Call → Prop
  | .seed _ => True
  | .apply d _ => ∀ dir, d.action ≠ .move dir
  | _ => False

/-- The call leads to a cell that can be walked on: a reset to such a cell, and a move ahead. -/
def Permits (g : Grid) (a : Agent) : Call → Prop
  | .apply d _ => ∀ dir, d.action = .move dir →
    dir = a.facing.vector ∧ ∃ q, a.pos.add dir = .ok q ∧ g.isWalkable q = true
  | .reset start => g.isWalkable start.pos = true
  | _ => True

/-- Every call leads to a cell that can be walked on, when it is its turn. -/
def PermitsAll (g : Grid) (a : Agent) : List Call → Prop
  | [] => True
  | call :: calls => a.Permits g call ∧
    ∀ effect b, a.perform g call = .ok (effect, b) → b.PermitsAll g calls

/-- The agent does as it is meant to. -/
structure Use.IsProper (u : Use) : Prop where
  /-- It has a motion if and only if it is moving. -/
  motion_iff : u.after.motion.isSome = true ↔ u.after.isMoving = true
  /-- It executes only without a motion. -/
  motion_eq_none : ∀ program frames, u.call = .execute program frames →
    u.effect.acted.isSome = true → u.before.motion = none
  /-- It goes on when it arrives as was decided when the move began. -/
  follows : ∀ arrival, u.effect.arrival = some arrival →
    u.pending = some arrival.sequel ∧ u.after.Follows arrival.sequel

variable {g : Grid} {p : Program} {a b : Agent} {pending : Option Sequel} {call : Call}
  {calls : List Call} {effect : Effect} {d : Decision} {frames : UInt32} {us : List Use} {u : Use}

theorem uses_cons_eq_ok_iff : a.uses g pending (call :: calls) = .ok us ↔
    ∃ effect b later, a.perform g call = .ok (effect, b) ∧
      b.uses g (pendingAfter pending call effect) calls = .ok later ∧
      us = ⟨a, pending, call, effect, b⟩ :: later := by
  rw [uses, bind_eq_ok_iff]
  constructor
  · rintro ⟨⟨effect, b⟩, hb, hrest⟩
    obtain ⟨later, hlater, hpure⟩ := bind_eq_ok_iff.mp hrest
    exact ⟨effect, b, later, hb, hlater, (pure_eq_ok_iff.mp hpure).symm⟩
  · rintro ⟨effect, b, later, hb, hlater, rfl⟩
    exact ⟨_, hb, bind_eq_ok_iff.mpr ⟨later, hlater, rfl⟩⟩

theorem perform_of_mem_uses (h : a.uses g pending calls = .ok us) (hu : u ∈ us) :
    u.before.perform g u.call = .ok (u.effect, u.after) := by
  induction calls generalizing a pending us with
  | nil =>
    obtain rfl := Except.ok.inj h
    cases hu
  | cons call calls ih =>
    obtain ⟨effect, b, later, hb, hlater, rfl⟩ := uses_cons_eq_ok_iff.mp h
    rcases List.mem_cons.mp hu with rfl | hrest
    · exact hb
    · exact ih hlater hrest

theorem perform_advance_eq_ok_iff : a.perform g .advance = .ok (effect, b) ↔
    ∃ arrival?, a.advance g = .ok (arrival?, b) ∧ effect = ⟨none, arrival?⟩ := by
  unfold perform
  cases a.advance g with
  | error interruption => simp
  | ok result =>
    obtain ⟨arrival?, c⟩ := result
    simp only [Except.ok.injEq, Prod.mk.injEq]
    constructor
    · rintro ⟨rfl, rfl⟩
      exact ⟨arrival?, ⟨rfl, rfl⟩, rfl⟩
    · rintro ⟨_, ⟨rfl, rfl⟩, rfl⟩
      exact ⟨rfl, rfl⟩

/-- An agent arrives on no other call. -/
theorem advance_of_arrival (hb : a.perform g call = .ok (effect, b)) {arrival : Arrival}
    (harrival : effect.arrival = some arrival) : a.advance g = .ok (some arrival, b) := by
  have hquiet : ∀ {β : Type} {x : Except Fault β} {f : β → Effect × Agent},
      x.map f = .ok (effect, b) → (∀ y, (f y).1.arrival = none) → False := by
    intro β x f hx hnone
    obtain ⟨y, -, hy⟩ := map_eq_ok_iff.mp hx
    have hy' := hnone y
    rw [hy, harrival] at hy'
    cases hy'
  cases call with
  | advance =>
    obtain ⟨arrival?, hc, rfl⟩ := perform_advance_eq_ok_iff.mp hb
    obtain rfl : arrival? = some arrival := harrival
    exact hc
  | seed root =>
    obtain ⟨rfl, -⟩ := Prod.mk.inj (Except.ok.inj hb)
    cases harrival
  | apply d frames =>
    obtain ⟨rfl, -⟩ := Prod.mk.inj (Except.ok.inj hb)
    cases harrival
  | execute program frames => exact (hquiet hb fun _ => rfl).elim
  | refresh => exact (hquiet hb fun _ => rfl).elim
  | reset start => exact (hquiet hb fun _ => rfl).elim

/-! ### What is kept -/

/-- The agent has a motion if and only if it is moving, and it remembers what follows the move. -/
structure Agrees (a : Agent) (pending : Option Sequel) : Prop where
  motion_iff : a.motion.isSome = true ↔ a.isMoving = true
  pending_eq : ∀ sequel, a.phase = .moving sequel → pending = some sequel

theorem agrees_follow (hm : a.motion = none) (sequel : Sequel) (pending : Option Sequel) :
    (a.follow sequel).Agrees pending := by
  constructor
  · rw [follow_motion, hm]
    cases sequel <;> simp [follow, isMoving]
  · intro sequel' hphase
    cases sequel <;> cases hphase

theorem agrees_spawn {id : AgentId} {start : Spawn} (h : spawn id start g = .ok a)
    (pending : Option Sequel) : a.Agrees pending := by
  obtain ⟨o, -, rfl⟩ := spawn_eq_ok_iff.mp h
  exact ⟨by simp [isMoving], fun sequel hphase => nomatch hphase⟩

/-- Acting on a decision does no harm if it begins a move, or if there is no motion. -/
theorem agrees_apply (a : Agent) (hm : (∀ dir, d.action ≠ .move dir) → a.motion = none)
    (pending : Option Sequel) : (a.apply d frames).Agrees (d.pendingOr pending) := by
  by_cases hmove : ∃ dir, d.action = .move dir
  · obtain ⟨dir, hdir⟩ := hmove
    unfold apply Decision.pendingOr
    rw [hdir]
    refine ⟨by simp [isMoving], fun sequel hphase => ?_⟩
    rw [Phase.moving.inj hphase]
  · have hstay : ∀ dir, d.action ≠ .move dir := fun dir hdir => hmove ⟨dir, hdir⟩
    rw [apply_of_stay hstay]
    apply agrees_follow
    exact hm hstay

namespace Agrees

/-- Looking around changes nothing of this. -/
theorem look (h : a.Agrees pending) (o : Openings) : { a with openings := o }.Agrees pending :=
  ⟨h.motion_iff, h.pending_eq⟩

theorem motion_eq_none (h : a.Agrees pending) (hphase : a.phase = .executing) :
    a.motion = none := by
  have hmotion := h.motion_iff
  simpa [isMoving, hphase] using hmotion

theorem execute (h : a.Agrees pending) {acted : Option Decision}
    (hb : a.execute p g frames = .ok (acted, b)) :
    b.Agrees (pendingAfter pending (.execute p frames) ⟨acted, none⟩) := by
  by_cases hphase : a.phase = .executing
  · have hm := h.motion_eq_none hphase
    obtain ⟨o, -, rfl, hlooked⟩ := (execute_eq_ok_iff hphase).mp hb
    obtain ⟨seen, -, rfl⟩ := refresh_eq_ok_iff.mp hlooked
    have hacted : Agrees ({ a with openings := o }.apply (p.decide a.cursor a.facing o) frames) _ :=
      agrees_apply { a with openings := o } (fun _ => hm) pending
    exact hacted.look seen
  · rw [execute_of_ne hphase] at hb
    obtain ⟨rfl, rfl⟩ := Prod.mk.inj (Except.ok.inj hb)
    exact h

theorem advance (h : a.Agrees pending) {arrival? : Option Arrival}
    (hb : a.advance g = .ok (arrival?, b)) :
    b.Agrees (pendingAfter pending .advance ⟨none, arrival?⟩) := by
  cases hm : a.motion with
  | none =>
    rw [advance_of_none hm] at hb
    obtain ⟨rfl, rfl⟩ := Prod.mk.inj (Except.ok.inj hb)
    exact h
  | some m =>
    cases hover : m.advance.isOver with
    | false =>
      rw [advance_of_not_isOver hm hover] at hb
      obtain ⟨rfl, rfl⟩ := Prod.mk.inj (Except.ok.inj hb)
      have hmoving : a.isMoving = true := h.motion_iff.mp (hm ▸ rfl)
      exact ⟨⟨fun _ => hmoving, fun _ => rfl⟩, h.pending_eq⟩
    | true =>
      obtain ⟨_, _, _, -, -, -, -, rfl⟩ := (advance_eq_ok_iff_of_isOver hm hover).mp hb
      apply agrees_follow
      rfl

/-- Whatever is called, the agent goes on to agree, unless it is sent on while it has a motion. -/
theorem perform (h : a.Agrees pending) (hb : a.perform g call = .ok (effect, b))
    (hrest : call.SendsOn → a.motion = none) : b.Agrees (pendingAfter pending call effect) := by
  cases call with
  | seed root =>
    obtain ⟨rfl, rfl⟩ := Prod.mk.inj (Except.ok.inj hb)
    refine ⟨?_, fun sequel hphase => nomatch hphase⟩
    simp [seed, isMoving, hrest trivial]
  | execute program frames =>
    obtain ⟨⟨acted, c⟩, hc, heq⟩ := map_eq_ok_iff.mp hb
    obtain ⟨rfl, rfl⟩ := Prod.mk.inj heq
    exact h.execute hc
  | apply d frames =>
    obtain ⟨rfl, rfl⟩ := Prod.mk.inj (Except.ok.inj hb)
    exact agrees_apply a hrest pending
  | advance =>
    obtain ⟨arrival?, hc, rfl⟩ := perform_advance_eq_ok_iff.mp hb
    exact h.advance hc
  | refresh =>
    obtain ⟨c, hc, heq⟩ := map_eq_ok_iff.mp hb
    obtain ⟨rfl, rfl⟩ := Prod.mk.inj heq
    obtain ⟨o, -, rfl⟩ := refresh_eq_ok_iff.mp hc
    exact h.look o
  | reset start =>
    obtain ⟨c, hc, heq⟩ := map_eq_ok_iff.mp hb
    obtain ⟨rfl, rfl⟩ := Prod.mk.inj heq
    exact agrees_spawn hc none

/-- Who agrees executes only without a motion. -/
theorem motion_eq_none_of_acted (h : a.Agrees pending)
    (hb : a.perform g (.execute p frames) = .ok (effect, b))
    (hacted : effect.acted.isSome = true) : a.motion = none := by
  obtain ⟨⟨acted, c⟩, hc, heq⟩ := map_eq_ok_iff.mp hb
  obtain ⟨rfl, rfl⟩ := Prod.mk.inj heq
  by_cases hphase : a.phase = .executing
  · exact h.motion_eq_none hphase
  · rw [execute_of_ne hphase] at hc
    obtain ⟨rfl, -⟩ := Prod.mk.inj (Except.ok.inj hc)
    cases hacted

/-- Who agrees goes on with what is pending when it arrives. -/
theorem follows_of_arrival (h : a.Agrees pending) (hb : a.perform g call = .ok (effect, b))
    {arrival : Arrival} (harrival : effect.arrival = some arrival) :
    pending = some arrival.sequel ∧ b.Follows arrival.sequel := by
  have hc := advance_of_arrival hb harrival
  obtain ⟨m, o, hm, -, -, -, hsequel, rfl⟩ := exists_motion_of_arrival hc
  obtain ⟨sequel, hphase⟩ := isMoving_iff.mp (h.motion_iff.mp (hm ▸ rfl))
  rw [sequelOnArrival_of_moving hphase] at hsequel
  rw [hsequel]
  exact ⟨h.pending_eq sequel hphase, follows_follow _ _⟩

/-- As long as the agent is not sent on while it has a motion, it does as it is meant to. -/
theorem isProper (h : a.Agrees pending) (hus : a.uses g pending calls = .ok us)
    (hrest : ∀ u ∈ us, u.call.SendsOn → u.before.motion = none) : ∀ u ∈ us, u.IsProper := by
  induction calls generalizing a pending us with
  | nil =>
    obtain rfl := Except.ok.inj hus
    intro u hu
    cases hu
  | cons call calls ih =>
    obtain ⟨effect, b, later, hb, hlater, rfl⟩ := uses_cons_eq_ok_iff.mp hus
    rw [List.forall_mem_cons] at hrest ⊢
    have hagrees := h.perform hb hrest.1
    refine ⟨⟨hagrees.motion_iff, ?_, fun arrival => h.follows_of_arrival hb⟩,
      ih hagrees hlater hrest.2⟩
    rintro program frames rfl
    exact h.motion_eq_none_of_acted hb

end Agrees

/-- Who is sent on while it has a motion does not do as it is meant to. -/
theorem Use.IsProper.motion_eq_none_of_sendsOn (h : u.IsProper)
    (hu : u.before.perform g u.call = .ok (u.effect, u.after)) (hon : u.call.SendsOn) :
    u.before.motion = none := by
  obtain ⟨before, pending, call, effect, after⟩ := u
  have hmotion := h.motion_iff
  dsimp only at hu hon hmotion ⊢
  cases call with
  | seed root =>
    obtain ⟨-, rfl⟩ := Prod.mk.inj (Except.ok.inj hu)
    simpa [seed, isMoving] using hmotion
  | apply d frames =>
    obtain ⟨-, rfl⟩ := Prod.mk.inj (Except.ok.inj hu)
    rw [apply_of_stay hon, follow_motion] at hmotion
    cases hs : d.sequel <;> simpa [follow, isMoving, hs] using hmotion
  | execute program frames => cases hon
  | advance => cases hon
  | refresh => cases hon
  | reset start => cases hon

/-! ### Calls that succeed -/

/-- The agent stands where one can stand, and its motion leads to such a cell. -/
structure Placed (g : Grid) (a : Agent) : Prop where
  walkable : g.isWalkable a.pos = true
  goal_walkable : ∀ m, a.motion = some m → m.remaining.toNat ≤ m.total.toNat ∧
    ∃ q, m.destination = .ok q ∧ g.isWalkable q = true

theorem placed_spawn {id : AgentId} {start : Spawn} (hw : g.isWalkable start.pos = true)
    (h : spawn id start g = .ok a) : a.Placed g := by
  obtain ⟨o, -, rfl⟩ := spawn_eq_ok_iff.mp h
  exact ⟨hw, fun m hm => nomatch hm⟩

namespace Placed

theorem exists_around (h : a.Placed g) (hg : g.IsSmall) (f : Facing) :
    ∃ o, Openings.around g a.pos f = .ok o :=
  Openings.exists_around hg (Grid.contains_of_isWalkable h.walkable) f

theorem follow (h : a.Placed g) (sequel : Sequel) : (a.follow sequel).Placed g := by
  constructor
  · rw [follow_pos]
    exact h.walkable
  · rw [follow_motion]
    exact h.goal_walkable

theorem apply (h : a.Placed g) (frames : UInt32) (hmove : ∀ dir, d.action = .move dir →
    ∃ q, a.pos.add dir = .ok q ∧ g.isWalkable q = true) : (a.apply d frames).Placed g := by
  by_cases hdir : ∃ dir, d.action = .move dir
  · obtain ⟨dir, hdir⟩ := hdir
    unfold Agent.apply
    rw [hdir]
    refine ⟨h.walkable, fun m hm => ?_⟩
    obtain rfl := Option.some.inj hm
    exact ⟨Nat.le_refl _, hmove dir hdir⟩
  · have hstay : ∀ dir, d.action ≠ .move dir := fun dir heq => hdir ⟨dir, heq⟩
    rw [apply_of_stay hstay]
    exact follow (a := { a with facing := d.action.facing a.facing })
      ⟨h.walkable, h.goal_walkable⟩ d.sequel

theorem exists_refresh (h : a.Placed g) (hg : g.IsSmall) :
    ∃ b, a.refresh g = .ok b ∧ b.Placed g := by
  obtain ⟨o, ho⟩ := h.exists_around hg a.facing
  exact ⟨_, refresh_eq_ok_iff.mpr ⟨o, ho, rfl⟩, h.walkable, h.goal_walkable⟩

/-- A move that is decided on leads to where one can stand. -/
theorem execute (h : a.Placed g) {acted : Option Decision}
    (hb : a.execute p g frames = .ok (acted, b)) : b.Placed g := by
  by_cases hphase : a.phase = .executing
  · obtain ⟨o, ho, -, hlooked⟩ := (execute_eq_ok_iff hphase).mp hb
    obtain ⟨seen, -, rfl⟩ := refresh_eq_ok_iff.mp hlooked
    have hmove : ∀ dir, (p.decide a.cursor a.facing o).action = .move dir →
        ∃ q, a.pos.add dir = .ok q ∧ g.isWalkable q = true := by
      intro dir hdir
      obtain ⟨rfl, hfront⟩ := Program.decide_move hdir
      exact Openings.exists_front_of_around ho hfront
    have haround : Placed g { a with openings := o } := ⟨h.walkable, h.goal_walkable⟩
    have hacted := haround.apply frames hmove
    exact ⟨hacted.walkable, hacted.goal_walkable⟩
  · rw [execute_of_ne hphase] at hb
    obtain ⟨-, rfl⟩ := Prod.mk.inj (Except.ok.inj hb)
    exact h

theorem exists_advance (h : a.Placed g) (hg : g.IsSmall) :
    ∃ arrival? b, a.advance g = .ok (arrival?, b) ∧ b.Placed g := by
  cases hm : a.motion with
  | none => exact ⟨none, a, advance_of_none hm, h⟩
  | some m =>
    obtain ⟨hle, q, hq, hwalk⟩ := h.goal_walkable m hm
    have hremaining := m.toNat_remaining_advance
    have htotal : m.advance.total = m.total := rfl
    cases hover : m.advance.isOver with
    | false =>
      refine ⟨none, _, advance_of_not_isOver hm hover, h.walkable, fun m' hm' => ?_⟩
      obtain rfl := Option.some.inj hm'
      exact ⟨by rw [htotal]; omega, q, hq, hwalk⟩
    | true =>
      obtain ⟨o, ho⟩ := Openings.exists_around hg (Grid.contains_of_isWalkable hwalk) a.facing
      obtain ⟨ticks, hticks⟩ := Motion.exists_elapsed hle
      have hb := (advance_eq_ok_iff_of_isOver hm hover).mpr ⟨q, ticks, o, hq, hticks, ho, rfl, rfl⟩
      have harrived : Placed g { a with motion := none, pos := q, openings := o, phase := .idle } :=
        ⟨hwalk, fun m' hm' => nomatch hm'⟩
      exact ⟨_, _, hb, harrived.follow _⟩

/-- On a small grid every call that leads to a cell that can be walked on succeeds. -/
theorem exists_perform (h : a.Placed g) (hg : g.IsSmall) (hcall : a.Permits g call) :
    ∃ effect b, a.perform g call = .ok (effect, b) ∧ b.Placed g := by
  cases call with
  | seed root => exact ⟨⟨none, none⟩, a.seed root, rfl, h.walkable, h.goal_walkable⟩
  | execute program frames =>
    have hon := Grid.contains_of_isWalkable h.walkable
    obtain ⟨acted, b, hb⟩ := exists_execute hg hon program frames
    exact ⟨_, b, map_eq_ok_iff.mpr ⟨_, hb, rfl⟩, h.execute hb⟩
  | apply d frames => exact ⟨_, _, rfl, h.apply frames fun dir hdir => (hcall dir hdir).2⟩
  | advance =>
    obtain ⟨arrival?, b, hb, hplaced⟩ := h.exists_advance hg
    exact ⟨_, b, perform_advance_eq_ok_iff.mpr ⟨arrival?, hb, rfl⟩, hplaced⟩
  | refresh =>
    obtain ⟨b, hb, hplaced⟩ := h.exists_refresh hg
    exact ⟨_, b, map_eq_ok_iff.mpr ⟨_, hb, rfl⟩, hplaced⟩
  | reset start =>
    obtain ⟨o, ho⟩ := Openings.exists_around hg (Grid.contains_of_isWalkable hcall) start.facing
    have hb : a.reset start g = .ok _ := spawn_eq_ok_iff.mpr ⟨o, ho, rfl⟩
    exact ⟨_, _, map_eq_ok_iff.mpr ⟨_, hb, rfl⟩, placed_spawn hcall hb⟩

theorem exists_uses (h : a.Placed g) (hg : g.IsSmall) (hcalls : a.PermitsAll g calls)
    (pending : Option Sequel) : ∃ us, a.uses g pending calls = .ok us := by
  induction calls generalizing a pending with
  | nil => exact ⟨[], rfl⟩
  | cons call calls ih =>
    obtain ⟨effect, b, hb, hplaced⟩ := h.exists_perform hg hcalls.1
    obtain ⟨later, hlater⟩ := ih hplaced (hcalls.2 effect b hb) (pendingAfter pending call effect)
    exact ⟨_, uses_cons_eq_ok_iff.mpr ⟨effect, b, later, hb, hlater, rfl⟩⟩

end Placed

/-! ### Calls in any order -/

/-- An agent that is called in any order does as it is meant to if and only if it is never sent on
while it has a motion: by beginning a program, or by acting without moving. On a small grid no call
ends in a fault, as long as the agent is led to cells that can be walked on. -/
theorem uses_proper_iff {id : AgentId} {start : Spawn} (hspawn : spawn id start g = .ok a)
    (calls : List Call) :
    (∀ us, a.uses g none calls = .ok us →
      ((∀ u ∈ us, u.IsProper) ↔ ∀ u ∈ us, u.call.SendsOn → u.before.motion = none)) ∧
    (g.IsSmall → g.isWalkable start.pos = true → a.PermitsAll g calls →
      ∃ us, a.uses g none calls = .ok us) := by
  refine ⟨fun us hus => ⟨fun hproper u hu hon => ?_, fun hrest => ?_⟩, fun hg hw hcalls => ?_⟩
  · have hcall := perform_of_mem_uses hus hu
    exact (hproper u hu).motion_eq_none_of_sendsOn hcall hon
  · have hagrees := agrees_spawn hspawn none
    exact hagrees.isProper hus hrest
  · have hplaced := placed_spawn hw hspawn
    exact hplaced.exists_uses hg hcalls none

/-- Two cells, one ahead of the other. -/
def twoCells : Grid :=
  ⟨2, 1, #[⟨5⟩, ⟨1⟩], rfl⟩

/-- An idle agent on the first of two cells, facing the second. -/
def onTwoCells : Agent :=
  ⟨⟨0⟩, ⟨0, 0⟩, .southEast, ⟨true, false, false, false⟩, none, .idle, none, none⟩

theorem spawn_twoCells : spawn ⟨0⟩ ⟨⟨0, 0⟩, .southEast⟩ twoCells = .ok onTwoCells := rfl

/-- An agent that begins a program before a move and after it does as it is meant to. -/
theorem uses_proper_twoCells : ∃ us, onTwoCells.uses twoCells none [.seed none,
    .apply ⟨.move ⟨1, 0⟩, .finish .endOfProgram⟩ 1, .advance, .seed none] = .ok us ∧
    us.length = 4 ∧ ∀ u ∈ us, u.IsProper := by
  obtain ⟨hiff, -⟩ := uses_proper_iff spawn_twoCells [.seed none,
    .apply ⟨.move ⟨1, 0⟩, .finish .endOfProgram⟩ 1, .advance, .seed none]
  refine ⟨_, rfl, rfl, (hiff _ rfl).mpr ?_⟩
  simp only [List.forall_mem_cons]
  exact ⟨fun _ => rfl, fun _ => rfl, fun hon => hon.elim, fun _ => rfl,
    fun u hu => absurd hu List.not_mem_nil⟩

/-- An agent that begins a program in the middle of a move does nothing as it is meant to: it
executes with a motion, and forgets why it was to stop. -/
theorem exists_uses_not_proper : ∃ (g : Grid) (id : AgentId) (start : Spawn) (a : Agent)
    (calls : List Call) (us : List Use), g.IsSmall ∧ g.isWalkable start.pos = true ∧
    spawn id start g = .ok a ∧ a.PermitsAll g calls ∧ a.uses g none calls = .ok us ∧
    (∃ u ∈ us, ¬ (u.after.motion.isSome = true ↔ u.after.isMoving = true)) ∧
    (∃ u ∈ us, ∃ program frames, u.call = .execute program frames ∧
      u.effect.acted.isSome = true ∧ u.before.motion ≠ none) ∧
    ∃ u ∈ us, ∃ arrival, u.effect.arrival = some arrival ∧ u.pending ≠ some arrival.sequel := by
  refine ⟨twoCells, ⟨0⟩, ⟨⟨0, 0⟩, .southEast⟩, onTwoCells,
    [.apply ⟨.move ⟨1, 0⟩, .finish .endOfProgram⟩ 1, .seed none, .execute Program.empty 1, .advance],
    _, ⟨by decide, by decide⟩, rfl, spawn_twoCells,
    ⟨?_, fun _ _ _ => ⟨trivial, fun _ _ _ => ⟨trivial, fun _ _ _ => ⟨trivial, fun _ _ _ => trivial⟩⟩⟩⟩,
    rfl, ?_, ?_, ?_⟩
  · rintro dir ⟨⟩
    exact ⟨rfl, ⟨1, 0⟩, rfl, rfl⟩
  · exact ⟨_, List.mem_cons_of_mem _ List.mem_cons_self, by decide⟩
  · refine ⟨_, List.mem_cons_of_mem _ (List.mem_cons_of_mem _ List.mem_cons_self), _, _, rfl, rfl, ?_⟩
    decide
  · exact ⟨_, List.mem_of_getLast? rfl, _, rfl, by decide⟩

end Agent

end TileWalk
