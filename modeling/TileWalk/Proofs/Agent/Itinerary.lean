import TileWalk.Proofs.Agent.Journey

/-!
# Itineraries

What an agent executes can be said without time: it stands somewhere, executes the node that
follows, and stands somewhere else (`Station.itinerary`). An agent in a simulation heads for such a
station, and has some ticks of a move left before it comes there (`Agent.Heads`). A tick brings it
nearer (`Agent.Lives.heads_travel`), or it stands there and executes (`Agent.Lives.heads_dispatch`);
after the last station it rests (`Agent.Lives.heads_rest`).
-/

namespace TileWalk

variable {p : Program} {g : Grid}

/-! ### Without time -/

/-- The sides on which the next cell can be walked on. -/
def Grid.openings (g : Grid) (pos : Pos) (f : Facing) : Openings :=
  ⟨g.isOpen pos f .front, g.isOpen pos f .left, g.isOpen pos f .back, g.isOpen pos f .right⟩

theorem Openings.eq_openings_of_around {pos : Pos} {f : Facing} {o : Openings}
    (h : around g pos f = .ok o) : o = g.openings pos f :=
  Openings.ext (get_of_around h .front) (get_of_around h .left) (get_of_around h .back)
    (get_of_around h .right)

/-- A node that is executed: where control is, where the agent stands and what it sees, and what it
is made to do. -/
structure Dispatch where
  cursor : Option NodeId
  pos : Pos
  facing : Facing
  openings : Openings
  decision : Decision
  deriving DecidableEq, Repr

/-- Where an agent stands before it executes a node or stops. -/
structure Station where
  pos : Pos
  facing : Facing
  sequel : Sequel
  deriving DecidableEq, Repr

namespace Dispatch

/-- A move begins. -/
def isMove (x : Dispatch) : Bool :=
  match x.decision.action with
  | .move _ => true
  | _ => false

/-- Where the agent stands next. -/
def station (x : Dispatch) : Station where
  pos := if x.isMove then x.pos.ahead x.facing else x.pos
  facing := x.decision.action.facing x.facing
  sequel := x.decision.sequel

end Dispatch

namespace Station

variable {st : Station} {j k n : Nat}

/-- What is executed at a station. -/
def dispatch? (p : Program) (g : Grid) (st : Station) : Option Dispatch :=
  match st.sequel with
  | .resume cursor =>
    let seen := g.openings st.pos st.facing
    some ⟨cursor, st.pos, st.facing, seen, p.decide cursor st.facing seen⟩
  | .finish _ => none

/-- The station after `k` nodes, or the last one. -/
def after (p : Program) (g : Grid) (st : Station) : (k : Nat) → Station
  | 0 => st
  | k + 1 =>
    match st.dispatch? p g with
    | some x => x.station.after p g k
    | none => st

/-- The first `k` nodes that are executed from a station on, or all of them. -/
def itinerary (p : Program) (g : Grid) (st : Station) : (k : Nat) → List Dispatch
  | 0 => []
  | k + 1 =>
    match st.dispatch? p g with
    | some x => x :: x.station.itinerary p g k
    | none => []

theorem after_of_none (h : st.dispatch? p g = none) (k : Nat) : st.after p g k = st := by
  cases k with
  | zero => rfl
  | succ k => rw [after, h]

theorem itinerary_of_none (h : st.dispatch? p g = none) (k : Nat) : st.itinerary p g k = [] := by
  cases k with
  | zero => rfl
  | succ k => rw [itinerary, h]

theorem after_succ_of_some {x : Dispatch} (h : st.dispatch? p g = some x) (k : Nat) :
    st.after p g (k + 1) = x.station.after p g k := by
  rw [after, h]

theorem itinerary_succ_of_some {x : Dispatch} (h : st.dispatch? p g = some x) (k : Nat) :
    st.itinerary p g (k + 1) = x :: x.station.itinerary p g k := by
  rw [itinerary, h]

/-- The node with number `k` is executed at the station after `k` nodes. -/
theorem getElem?_itinerary (h : k < n) :
    (st.itinerary p g n)[k]? = (st.after p g k).dispatch? p g := by
  induction k generalizing st n with
  | zero =>
    obtain ⟨n, rfl⟩ := Nat.exists_eq_add_one_of_ne_zero (Nat.ne_of_gt h)
    cases hx : st.dispatch? p g with
    | none => rw [itinerary_of_none hx, after, hx]; rfl
    | some x => rw [itinerary_succ_of_some hx, after, hx]; rfl
  | succ k ih =>
    obtain ⟨n, rfl⟩ := Nat.exists_eq_add_one_of_ne_zero (Nat.ne_of_gt (Nat.zero_lt_of_lt h))
    cases hx : st.dispatch? p g with
    | none => rw [itinerary_of_none hx, after_of_none hx, hx]; rfl
    | some x =>
      rw [itinerary_succ_of_some hx, after_succ_of_some hx, List.getElem?_cons_succ]
      exact ih (Nat.lt_of_succ_lt_succ h)

/-- A shorter itinerary is the beginning of a longer one. -/
theorem take_itinerary (h : k ≤ n) : (st.itinerary p g n).take k = st.itinerary p g k := by
  induction k generalizing st n with
  | zero => rfl
  | succ k ih =>
    obtain ⟨n, rfl⟩ := Nat.exists_eq_add_one_of_ne_zero (Nat.ne_of_gt (Nat.zero_lt_of_lt h))
    cases hx : st.dispatch? p g with
    | none => rw [itinerary_of_none hx, itinerary_of_none hx]; rfl
    | some x =>
      rw [itinerary_succ_of_some hx, itinerary_succ_of_some hx, List.take_succ_cons,
        ih (Nat.le_of_succ_le_succ h)]

theorem after_add (st : Station) (j k : Nat) :
    st.after p g (j + k) = (st.after p g j).after p g k := by
  induction j generalizing st with
  | zero => rw [Nat.zero_add]; rfl
  | succ j ih =>
    rw [Nat.add_right_comm]
    cases hx : st.dispatch? p g with
    | none => rw [after_of_none hx, after_of_none hx, after_of_none hx]
    | some x => rw [after_succ_of_some hx, after_succ_of_some hx, ih]

/-- After the last station there is no other one. -/
theorem dispatch?_after_of_le (h : (st.after p g j).dispatch? p g = none) (hle : j ≤ k) :
    (st.after p g k).dispatch? p g = none := by
  obtain ⟨l, rfl⟩ := Nat.exists_eq_add_of_le hle
  rw [after_add, after_of_none h, h]

/-- How many of the first `k` nodes begin a move. -/
def moves (p : Program) (g : Grid) (st : Station) (k : Nat) : Nat :=
  (st.itinerary p g k).countP Dispatch.isMove

theorem moves_le_moves (h : j ≤ k) : st.moves p g j ≤ st.moves p g k := by
  unfold moves
  rw [← take_itinerary h]
  exact (List.take_sublist j _).countP_le

end Station

/-! ### In time -/

namespace Agent

variable {frames : UInt32} {a b : Agent} {st : Station} {r : Nat} {x : Dispatch}

/-- What the agent executes in the next tick. -/
def dispatch? (p : Program) (a : Agent) : Option Dispatch :=
  if a.isExecuting then
    some ⟨a.cursor, a.pos, a.facing, a.openings, p.decide a.cursor a.facing a.openings⟩
  else none

/-- The agent comes to a station in `r` ticks, or stands there. -/
def Heads (a : Agent) (st : Station) : (r : Nat) → Prop
  | 0 => a.pos = st.pos ∧ a.facing = st.facing ∧ a.Follows st.sequel
  | r + 1 => a.pos.ahead a.facing = st.pos ∧ a.facing = st.facing ∧ a.phase = .moving st.sequel ∧
      ∃ m, a.motion = some m ∧ m.remaining.toNat = r + 1

theorem heads_zero_follow (a : Agent) (sequel : Sequel) :
    (a.follow sequel).Heads ⟨a.pos, a.facing, sequel⟩ 0 :=
  ⟨follow_pos a sequel, follow_facing a sequel, follows_follow a sequel⟩

/-- An agent that stands at a station executes what is executed there. -/
theorem Sound.dispatch?_eq (hs : a.Sound p g) (h : a.Heads st 0) :
    a.dispatch? p = st.dispatch? p g := by
  obtain ⟨hpos, hfacing, hfollows⟩ := h
  have hseen := Openings.eq_openings_of_around hs.openings_eq
  unfold dispatch? Station.dispatch?
  cases hsequel : st.sequel with
  | resume cursor =>
    rw [hsequel] at hfollows
    obtain ⟨hphase, hcursor⟩ := hfollows
    rw [if_pos (isExecuting_iff.mpr hphase), hseen, hcursor, hpos, hfacing]
  | finish reason =>
    rw [hsequel] at hfollows
    rw [isExecuting, hfollows.1]
    rfl

theorem dispatch?_of_heads_succ (h : a.Heads st (r + 1)) : a.dispatch? p = none := by
  obtain ⟨-, -, hphase, -⟩ := h
  rw [dispatch?, isExecuting, hphase]
  rfl

/-- An idle agent stands at its last station. -/
theorem Heads.of_idle (h : a.Heads st r) (hidle : a.phase = .idle) :
    r = 0 ∧ ∃ reason, st.sequel = .finish reason := by
  cases r with
  | succ r => cases hidle.symm.trans h.2.2.1
  | zero =>
    obtain ⟨-, -, hfollows⟩ := h
    cases hsequel : st.sequel with
    | finish reason => exact ⟨rfl, reason, rfl⟩
    | resume cursor =>
      rw [hsequel] at hfollows
      cases hidle.symm.trans hfollows.1

/-- A tick of a move brings the agent nearer to its station. -/
theorem Lives.heads_travel (hs : a.Sound p g) (h : Lives p g frames a b)
    (ha : a.Heads st (r + 1)) : b.Heads st r := by
  obtain ⟨hpos, hfacing, hphase, m, hm, hremaining⟩ := ha
  have hrem := m.toNat_remaining_advance
  cases r with
  | zero =>
    have hover : m.advance.isOver = true := by
      rw [Motion.isOver_iff]
      omega
    obtain ⟨goal, ticks, o, hgoal, -, -, rfl⟩ := h.of_isOver hphase hm hover
    rw [hs.destination_eq hm hgoal]
    refine ⟨?_, ?_, follows_follow _ _⟩
    · rw [follow_pos]
      exact hpos
    · rw [follow_facing]
      exact hfacing
  | succ r =>
    have hover : m.advance.isOver = false := by
      rw [Motion.isOver_eq_false_iff]
      omega
    obtain rfl := h.of_not_isOver hphase hm hover
    exact ⟨hpos, hfacing, hphase, _, rfl, by omega⟩

/-- After the last station the agent rests. -/
theorem Lives.heads_rest (h : Lives p g frames a b) (ha : a.Heads st 0)
    (hlast : st.dispatch? p g = none) : b.Heads st 0 := by
  obtain ⟨hpos, hfacing, hfollows⟩ := ha
  unfold Station.dispatch? at hlast
  cases hsequel : st.sequel with
  | resume cursor =>
    rw [hsequel] at hlast
    cases hlast
  | finish reason =>
    have hidle : a.phase = .idle := by
      rw [hsequel] at hfollows
      exact hfollows.1
    cases h with
    | rest => exact ⟨hpos, hfacing, hfollows⟩
    | act hexecuting => cases hidle.symm.trans hexecuting
    | depart hexecuting => cases hidle.symm.trans hexecuting
    | travel hmoving => cases hidle.symm.trans hmoving
    | arrive hmoving => cases hidle.symm.trans hmoving

/-- An agent that executes a node heads for where it stands next; a move takes its ticks, and at
least one. -/
theorem Lives.heads_station (hs : a.Sound p g) (h : Lives p g frames a b)
    (hx : a.dispatch? p = some x) :
    b.Heads x.station (if x.isMove then max 1 frames.toNat else 0) := by
  unfold dispatch? at hx
  split_ifs at hx with hexecuting
  have hphase := isExecuting_iff.mp hexecuting
  obtain rfl := Option.some.inj hx
  obtain ⟨⟨action, sequel⟩, hd⟩ : ∃ d, p.decide a.cursor a.facing a.openings = d := ⟨_, rfl⟩
  rw [hd]
  have hstays : (∀ v, action ≠ .move v) →
      b.Heads ⟨a.pos, action.facing a.facing, sequel⟩ 0 := by
    intro hstay
    obtain ⟨seen, rfl⟩ := h.of_stay hphase hs.openings_eq hd hstay
    exact heads_zero_follow { a with facing := action.facing a.facing, openings := seen } sequel
  cases action with
  | move dir =>
    obtain ⟨rfl, -⟩ := Program.decide_move (congrArg Decision.action hd)
    have hone : max 1 frames.toNat ≠ 0 := by omega
    obtain ⟨r, hr⟩ := Nat.exists_eq_add_one_of_ne_zero hone
    obtain rfl := h.of_move hphase hs.openings_eq hd
    show Heads _ ⟨a.pos.ahead a.facing, a.facing, sequel⟩ (max 1 frames.toNat)
    rw [hr]
    refine ⟨rfl, rfl, rfl, _, rfl, ?_⟩
    rw [Motion.toNat_remaining_start, hr]
  | turn facing => exact hstays fun _ hmove => nomatch hmove
  | none => exact hstays fun _ hmove => nomatch hmove
  | blocked => exact hstays fun _ hmove => nomatch hmove

/-- A move takes as many ticks as the settings say, if they do not say none. -/
theorem Lives.heads_dispatch (hs : a.Sound p g) (hframes : 1 ≤ frames.toNat)
    (h : Lives p g frames a b) (hx : a.dispatch? p = some x) :
    b.Heads x.station (if x.isMove then frames.toNat else 0) := by
  have hheads := h.heads_station hs hx
  rwa [Nat.max_eq_right hframes] at hheads

end Agent

end TileWalk
