import TileWalk.Agent.Decide
import TileWalk.Proofs.Board.Neighbours
import TileWalk.Proofs.Program.Occurrences

/-!
# Journeys through a tree

A tree without calls can be evaluated as it is drawn, by recursion over its bricks: where an agent
comes to from a position and a facing, why it stops, which cells it comes to on the way, and how
many ticks it takes (`Link.journey`). There are no nodes, no phases and no moves under way here. A
program begins at the first brick that says so (`Brick.beginning?`), which is the brick of its
root (`Brick.root_eq_beginning?`).
-/

namespace TileWalk

open Outcome

/-! ### Neighbours -/

/-- The facing that looks to a side. -/
def Facing.toward (f : Facing) : Side → Facing
  | .front => f
  | .left => f.left
  | .back => f.back
  | .right => f.right

/-- The next position ahead. -/
def Pos.ahead (p : Pos) (f : Facing) : Pos :=
  ⟨p.x + f.vector.x, p.y + f.vector.y⟩

/-- The next cell on a side can be walked on. -/
def Grid.isOpen (g : Grid) (p : Pos) (f : Facing) (side : Side) : Bool :=
  g.isWalkable (p.ahead (f.toward side))

/-- A sum of coordinates that does not overflow is the sum of the words. -/
theorem Pos.add_vector_eq_ok {p q : Pos} {f : Facing} (h : p.add f.vector = .ok q) :
    q = p.ahead f := by
  have hword : ∀ {a b c : Int32}, Checked.add32 a b = .ok c → c = a + b := by
    intro a b c hc
    unfold Checked.add32 at hc
    split_ifs at hc
    exact (Except.ok.inj hc).symm
  obtain ⟨x, hx, hrest⟩ := bind_eq_ok_iff.mp h
  obtain ⟨y, hy, hpure⟩ := bind_eq_ok_iff.mp hrest
  rw [← pure_eq_ok_iff.mp hpure, hword hx, hword hy]
  rfl

theorem Openings.get_of_around {g : Grid} {p : Pos} {f : Facing} {o : Openings}
    (h : around g p f = .ok o) (side : Side) : o.get side = g.isOpen p f side := by
  obtain ⟨front, left, back, right, hf, hl, hb, hr, rfl⟩ := around_eq_ok_iff.mp h
  obtain rfl := Pos.add_vector_eq_ok hf
  obtain rfl := Pos.add_vector_eq_ok hl
  obtain rfl := Pos.add_vector_eq_ok hb
  obtain rfl := Pos.add_vector_eq_ok hr
  cases side <;> rfl

/-! ### Journeys -/

/-- What comes of an agent. -/
@[ext]
structure Journey where
  /-- Where the agent stops, and which way it faces there. -/
  pos : Pos
  facing : Facing
  /-- Why it stops. -/
  ending : Ending
  /-- The cells to which it comes on the way, in order. -/
  visits : List Pos
  /-- How many ticks it takes. -/
  ticks : Nat
  deriving DecidableEq, Repr

namespace Journey

/-- Nothing is left to be done. -/
def halt (pos : Pos) (facing : Facing) (ending : Ending) : Journey :=
  ⟨pos, facing, ending, [], 0⟩

/-- The journey after something that takes some ticks and leads over some cells. -/
def after (ticks : Nat) (visits : List Pos) (j : Journey) : Journey :=
  { j with visits := visits ++ j.visits, ticks := ticks + j.ticks }

/-- The next tick is the last one. -/
def stop (pos : Pos) (facing : Facing) (ending : Ending) : Journey :=
  (halt pos facing ending).after 1 []

/-- What comes of an agent that executes a basic command, given what comes after it. A step forward
takes `frames` ticks besides the tick in which it begins, and anything else takes one tick. -/
def ofBasic (g : Grid) (frames : Nat) (command : Command) (next : Pos → Facing → Journey)
    (unknown : Ending) (pos : Pos) (f : Facing) : Journey :=
  match command with
  | .pass => (next pos f).after 1 []
  | .turnLeft => (next pos f.left).after 1 []
  | .turnBack => (next pos f.back).after 1 []
  | .turnRight => (next pos f.right).after 1 []
  | .move =>
    if g.isOpen pos f .front then (next (pos.ahead f) f).after (frames + 1) [pos.ahead f]
    else (next pos f).after 1 []
  | _ => stop pos f unknown

end Journey

namespace Link

/-- What comes of an agent after a brick in place `n` that does not branch: control is passed to the
only brick that hangs on it. -/
def onward (n : Nat) (right bottom : Link) (toRight toBottom : Pos → Facing → Journey) (pos : Pos)
    (f : Facing) : Journey :=
  match right.isBrick, bottom.isBrick with
  | true, false => toRight pos f
  | false, true => toBottom pos f
  | false, false => .halt pos f .endOfProgram
  | true, true => .halt pos f (.ambiguousLinks (Ident.ofIndex n))

/-- What comes of an agent that executes the brick that hangs here, in place `n` of the pre-order,
at a position and with a facing; where nothing hangs, the program ends with the next tick. Calls
lead out of the tree and are not followed. -/
def journey (g : Grid) (frames : Nat) : Link → Nat → Pos → Facing → Journey
  | .absent, _, pos, f => .stop pos f .endOfProgram
  | .marker _, _, pos, f => .stop pos f .endOfProgram
  | .brick _ head right bottom, n, pos, f =>
    let toRight := right.journey g frames (n + 1)
    let toBottom := bottom.journey g frames (n + 1 + right.bricks.length)
    let next := onward n right bottom toRight toBottom
    let unknown := Ending.unknownCommand (Ident.ofIndex n) head.kind head.command
    match Kind.ofTag head.kind with
    | .entry => (next pos f).after 1 []
    | .basic => .ofBasic g frames (Command.ofTag head.command) next unknown pos f
    | .case =>
      match (Command.ofTag head.command).side? with
      | some side => (if g.isOpen pos f side then toRight pos f else toBottom pos f).after 1 []
      | none => .stop pos f unknown
    | .tail => .halt pos f .endOfProgram
    | .other _ => .stop pos f unknown

/-- No brick that hangs here is a call. -/
def IsCallFree (l : Link) : Prop :=
  ∀ b ∈ l.bricks, b.head.kind ≠ "TailBrick"

instance (l : Link) : Decidable l.IsCallFree :=
  inferInstanceAs (Decidable (∀ b ∈ l.bricks, b.head.kind ≠ "TailBrick"))

theorem IsCallFree.of_brick {name : Option Json.Value} {head : Head} {right bottom : Link}
    (h : (Link.brick name head right bottom).IsCallFree) :
    Kind.ofTag head.kind ≠ .tail ∧ right.IsCallFree ∧ bottom.IsCallFree := by
  refine ⟨fun hkind => ?_, fun b hb => ?_, fun b hb => ?_⟩
  · have htag := Kind.tag_ofTag head.kind
    rw [hkind] at htag
    exact h _ List.mem_cons_self htag.symm
  · exact h b (List.mem_cons_of_mem _ (List.mem_append_left _ hb))
  · exact h b (List.mem_cons_of_mem _ (List.mem_append_right _ hb))

end Link

/-! ### Trees in a program -/

/-- Behind a brick stands everything that hangs on it. -/
theorem Link.getElem?_bricks_add {l : Link} {n i : Nat} {b c : Brick} (hb : l.bricks[n]? = some b)
    (hc : b.bricks[i]? = some c) : l.bricks[n + i]? = some c := by
  induction l generalizing n with
  | absent => cases hb
  | marker text => cases hb
  | brick name head right bottom ihr ihb =>
    cases n with
    | zero =>
      obtain rfl := Option.some.inj hb
      rw [Nat.zero_add]
      exact hc
    | succ j =>
      rw [bricks, List.getElem?_cons_succ] at hb
      by_cases hj : j < right.bricks.length
      · rw [List.getElem?_append_left hj] at hb
        have hindex : j + 1 + i = j + i + 1 := by omega
        rw [hindex]
        exact bricks_right (ihr hb)
      · rw [List.getElem?_append_right (Nat.not_lt.mp hj)] at hb
        have hindex : j + 1 + i = right.bricks.length + (j - right.bricks.length + i) + 1 := by omega
        rw [hindex]
        exact bricks_bottom (ihb hb)

theorem Brick.getElem?_flatMap_bricks_add {trees : List Brick} {n i : Nat} {b c : Brick}
    (hb : (trees.flatMap bricks)[n]? = some b) (hc : b.bricks[i]? = some c) :
    (trees.flatMap bricks)[n + i]? = some c := by
  induction trees generalizing n with
  | nil => cases hb
  | cons tree trees ih =>
    rw [List.flatMap_cons] at hb ⊢
    by_cases hn : n < tree.bricks.length
    · rw [List.getElem?_append_left hn] at hb
      have hfound : tree.bricks[n + i]? = some c := Link.getElem?_bricks_add hb hc
      obtain ⟨hlt, -⟩ := List.getElem?_eq_some_iff.mp hfound
      rw [List.getElem?_append_left hlt]
      exact hfound
    · rw [List.getElem?_append_right (Nat.not_lt.mp hn)] at hb
      have hindex : n + i - tree.bricks.length = n - tree.bricks.length + i := by omega
      rw [List.getElem?_append_right (by omega), hindex]
      exact ih hb

namespace Program

variable {p : Program} {n : Nat}

/-- The program has the nodes of the bricks that hang here, the first of them in place `n`. -/
def HasAt (p : Program) (n : Nat) (l : Link) : Prop :=
  ∀ i b, l.bricks[i]? = some b → p.node? (Ident.ofIndex (n + i)) = some (b.nodeAt (n + i))

theorem HasAt.of_brick {name : Option Json.Value} {head : Head} {right bottom : Link}
    (h : p.HasAt n (.brick name head right bottom)) :
    p.HasAt (n + 1) right ∧ p.HasAt (n + 1 + right.bricks.length) bottom := by
  refine ⟨fun i b hb => ?_, fun i b hb => ?_⟩
  · have hindex : n + 1 + i = n + (i + 1) := by omega
    rw [hindex]
    exact h _ b (Link.bricks_right hb)
  · have hindex : n + 1 + right.bricks.length + i = n + (right.bricks.length + i + 1) := by omega
    rw [hindex]
    exact h _ b (Link.bricks_bottom hb)

/-- What is decided at a brick is what its node decides. -/
theorem HasAt.decide_eq {b : Brick} (h : p.HasAt n b.toLink) (f : Facing) (o : Openings) :
    p.decide (b.toLink.idAt n) f o = (b.nodeAt n).decide p f o := by
  have hnode : (b.toLink.idAt n).bind p.node? = some (b.nodeAt n) := h 0 b rfl
  rw [decide, hnode]

end Program

namespace Brick

/-- An author finds the tags of the brick in the report of an unknown command. -/
theorem unknown_nodeAt (b : Brick) (n : Nat) :
    (b.nodeAt n).unknown = .unknownCommand (Ident.ofIndex n) b.head.kind b.head.command := by
  show Ending.unknownCommand _ (Kind.ofTag b.head.kind).tag (Command.ofTag b.head.command).tag = _
  rw [Kind.tag_ofTag, Command.tag_ofTag]
  rfl

/-- The brick at which a program begins, and its place: the first one that says so. -/
def beginning? (trees : List Brick) : Option (Brick × Nat) :=
  (trees.flatMap bricks).zipIdx.find? fun x => x.1.head.command = "CommandNOP"

variable {trees : List Brick} {p : Program} {root : Brick} {n : Nat}

/-- The root of a program is the brick at which it begins. -/
theorem root_eq_beginning? (hp : Program.ofBricks trees = .ok p) :
    p.root = (beginning? trees).map fun x => Ident.ofIndex x.2 := by
  obtain ⟨hlist, htables, -⟩ := Program.ofBricks_eq_ok hp
  rw [htables, Program.root_ofNodes, hlist, nodesFrom, List.mapIdx_eq_zipIdx_map, List.find?_map]
  have hsame : ((fun node : Node => decide (node.command = .root)) ∘ fun x : Brick × Nat =>
      x.1.nodeAt (0 + x.2)) = fun x => decide (x.1.head.command = "CommandNOP") := by
    funext x
    exact decide_eq_decide.mpr Command.ofTag_eq_root_iff
  unfold beginning?
  rw [hsame, Option.map_map]
  simp [Function.comp_def, nodeAt]

/-- The program has the nodes of everything that hangs on a brick of its trees. -/
theorem hasAt_of_getElem? (hp : Program.ofBricks trees = .ok p)
    (h : (trees.flatMap bricks)[n]? = some root) : p.HasAt n root.toLink := by
  obtain ⟨hlist, -, hsize⟩ := Program.ofBricks_eq_ok hp
  intro i b hb
  have hbrick := getElem?_flatMap_bricks_add h hb
  obtain ⟨hlt, -⟩ := List.getElem?_eq_some_iff.mp hbrick
  have hlen := Program.size_of_ofBricks hp
  show p.nodes[(Ident.ofIndex (n + i) : NodeId).index]? = _
  rw [Ident.index_ofIndex (by omega), ← Array.getElem?_toList, hlist, getElem?_nodesFrom, hbrick,
    Option.map_some, Nat.zero_add]

theorem hasAt_of_beginning? (hp : Program.ofBricks trees = .ok p)
    (h : beginning? trees = some (root, n)) : p.HasAt n root.toLink :=
  hasAt_of_getElem? hp (List.mem_zipIdx_iff_getElem?.mp (List.mem_of_find?_eq_some h))

end Brick

end TileWalk
