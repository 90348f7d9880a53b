import TileWalk.Program.Brick
import TileWalk.Proofs.Outcome
import Mathlib.Tactic.SplitIfs

/-!
# The layout of brick trees

A list of trees that is accepted becomes one node for each brick, in pre-order (`placeAll_eq_ok`):
the brick comes first, then everything that hangs to its right, then everything that hangs below
it. What the node at a place says is read off the brick alone (`Brick.nodeAt`): its right link
leads to the very next place, and its bottom link leads past everything on the right.
-/

namespace TileWalk

open Outcome

/-! ### Bricks in pre-order -/

namespace Link

/-- The bricks that hang here, in pre-order. -/
def bricks : Link → List Brick
  | .absent => []
  | .marker _ => []
  | .brick name head right bottom => ⟨name, head, right, bottom⟩ :: (right.bricks ++ bottom.bricks)

/-- A brick hangs here. -/
def isBrick : Link → Bool
  | .brick _ _ _ _ => true
  | _ => false

/-- The link to a brick that hangs here and stands at place `n`. -/
def idAt (n : Nat) (l : Link) : Option NodeId :=
  if l.isBrick then some (Ident.ofIndex n) else none

theorem length_bricks_brick (name : Option Json.Value) (head : Head) (right bottom : Link) :
    (brick name head right bottom).bricks.length =
      right.bricks.length + bottom.bricks.length + 1 := by
  rw [bricks, List.length_cons, List.length_append]

theorem bricks_ne_nil (l : Link) (h : l.isBrick = true) : 0 < l.bricks.length := by
  cases l with
  | brick name head right bottom => exact Nat.zero_lt_succ _
  | absent => cases h
  | marker text => cases h

/-- Everything that hangs on a brick stands behind it, and nothing else comes in between. -/
theorem le_length_bricks (l : Link) {i : Nat} {b : Brick} (h : l.bricks[i]? = some b) :
    i + 1 + b.right.bricks.length + b.bottom.bricks.length ≤ l.bricks.length := by
  induction l generalizing i with
  | absent => simp [bricks] at h
  | marker text => simp [bricks] at h
  | brick name head right bottom ihr ihb =>
    rw [length_bricks_brick]
    rw [bricks] at h
    -- the brick is the top, or hangs to its right, or hangs below it
    cases i with
    | zero =>
      obtain rfl := Option.some.inj h
      dsimp only
      omega
    | succ j =>
      rw [List.getElem?_cons_succ] at h
      by_cases hj : j < right.bricks.length
      · rw [List.getElem?_append_left hj] at h
        have := ihr h
        omega
      · rw [List.getElem?_append_right (by omega)] at h
        have := ihb h
        omega

end Link

namespace Brick

/-- The bricks of a tree in pre-order. -/
def bricks (b : Brick) : List Brick :=
  b.toLink.bricks

theorem le_length_flatMap_bricks (trees : List Brick) {i : Nat} {b : Brick}
    (h : (trees.flatMap bricks)[i]? = some b) :
    i + 1 + b.right.bricks.length + b.bottom.bricks.length ≤ (trees.flatMap bricks).length := by
  induction trees generalizing i with
  | nil => simp at h
  | cons tree trees ih =>
    rw [List.flatMap_cons] at h ⊢
    rw [List.length_append]
    by_cases hi : i < tree.bricks.length
    · rw [List.getElem?_append_left hi] at h
      have := tree.toLink.le_length_bricks h
      unfold bricks at hi ⊢
      omega
    · rw [List.getElem?_append_right (by omega)] at h
      have := ih h
      omega

/-- The text of the argument; an argument that has none leaves the whole tree unusable. -/
def argumentText (b : Brick) : String :=
  (Program.scalarText b.head.argument).toOption.getD ""

/-- The node of a brick at place `n`. -/
def nodeAt (n : Nat) (b : Brick) : Node where
  id := Ident.ofIndex n
  sourceId := b.name.bind fun value => (Program.scalarText value).toOption
  kind := Kind.ofTag b.head.kind
  command := Command.ofTag b.head.command
  argument := b.argumentText
  right := b.right.idAt (n + 1)
  bottom := b.bottom.idAt (n + 1 + b.right.bricks.length)

end Brick

/-- The nodes of bricks that stand one after the other from place `n` on. -/
def nodesFrom (n : Nat) (bricks : List Brick) : List Node :=
  bricks.mapIdx fun i b => b.nodeAt (n + i)

theorem nodesFrom_cons (n : Nat) (b : Brick) (bricks : List Brick) :
    nodesFrom n (b :: bricks) = b.nodeAt n :: nodesFrom (n + 1) bricks := by
  unfold nodesFrom
  rw [List.mapIdx_cons]
  congr 2
  funext i c
  rw [Nat.add_assoc, Nat.add_comm 1 i]

theorem nodesFrom_append (n : Nat) (bricks rest : List Brick) :
    nodesFrom n (bricks ++ rest) = nodesFrom n bricks ++ nodesFrom (n + bricks.length) rest := by
  unfold nodesFrom
  rw [List.mapIdx_append]
  congr 2
  funext i c
  rw [Nat.add_assoc, Nat.add_comm bricks.length i]

theorem length_nodesFrom (n : Nat) (bricks : List Brick) :
    (nodesFrom n bricks).length = bricks.length :=
  List.length_mapIdx

theorem getElem?_nodesFrom (n : Nat) (bricks : List Brick) (i : Nat) :
    (nodesFrom n bricks)[i]? = bricks[i]?.map fun b => b.nodeAt (n + i) :=
  List.getElem?_mapIdx

theorem map_id_nodesFrom (n : Nat) (bricks : List Brick) :
    (nodesFrom n bricks).map Node.id = (List.range' n bricks.length).map Ident.ofIndex := by
  induction bricks generalizing n with
  | nil => rfl
  | cons b bricks ih =>
    rw [nodesFrom_cons, List.map_cons, ih, List.length_cons, List.range'_succ, List.map_cons]
    rfl

/-! ### Placing the bricks -/

namespace Program

variable {n : Nat} {name : Option Json.Value} {head : Head} {node : Node} {link : Link}
  {nodes placed : Array Node} {top : Option NodeId}

theorem modify_length_append {α : Type} {a : α} {rest : List α} {f : α → α} (l : List α) :
    (l ++ a :: rest).modify l.length f = l ++ f a :: rest :=
  List.modifyTailIdx_add _ 0 l (a :: rest)

theorem bareNode_eq_ok (h : bareNode n name head = .ok node) (right bottom : Link) :
    n < UInt32.size ∧
      ({ node with
        right := right.idAt (n + 1)
        bottom := bottom.idAt (n + 1 + right.bricks.length) } : Node) =
      Brick.nodeAt n ⟨name, head, right, bottom⟩ := by
  have hlt : n < UInt32.size := by
    by_contra hge
    unfold bareNode Ident.ofIndex? at h
    rw [if_neg hge] at h
    cases h
  have hid : Ident.ofIndex? n = some (Ident.ofIndex n : NodeId) := if_pos hlt
  unfold bareNode at h
  rw [hid] at h
  refine ⟨hlt, ?_⟩
  unfold Brick.nodeAt Brick.argumentText
  obtain ⟨id, hid', h⟩ := bind_eq_ok_iff.mp h
  obtain rfl := Except.ok.inj hid'
  cases name with
  | none =>
    obtain ⟨source, hsource, h⟩ := bind_eq_ok_iff.mp h
    obtain rfl := Except.ok.inj hsource
    obtain ⟨argument, hargument, h⟩ := bind_eq_ok_iff.mp h
    obtain rfl := pure_eq_ok_iff.mp h
    rw [hargument]
    rfl
  | some value =>
    obtain ⟨source, hsource, h⟩ := bind_eq_ok_iff.mp h
    obtain ⟨text, htext, rfl⟩ := map_eq_ok_iff.mp hsource
    obtain ⟨argument, hargument, h⟩ := bind_eq_ok_iff.mp h
    obtain rfl := pure_eq_ok_iff.mp h
    rw [hargument, Option.bind_some, htext]
    rfl

theorem place_brick_eq_ok {right bottom : Link}
    (h : place (.brick name head right bottom) nodes = .ok (top, placed)) :
    ∃ node right? afterRight bottom? afterBottom, bareNode nodes.size name head = .ok node ∧
      place right (nodes.push node) = .ok (right?, afterRight) ∧
      place bottom afterRight = .ok (bottom?, afterBottom) ∧ top = some node.id ∧
      placed = afterBottom.modify nodes.size fun node =>
        { node with right := right?, bottom := bottom? } := by
  rw [place] at h
  obtain ⟨node, hnode, h⟩ := bind_eq_ok_iff.mp h
  obtain ⟨⟨right?, afterRight⟩, hright, h⟩ := bind_eq_ok_iff.mp h
  obtain ⟨⟨bottom?, afterBottom⟩, hbottom, h⟩ := bind_eq_ok_iff.mp h
  obtain ⟨rfl, rfl⟩ := Prod.mk.inj (pure_eq_ok_iff.mp h)
  exact ⟨node, right?, afterRight, bottom?, afterBottom, hnode, hright, hbottom, rfl, rfl⟩

/-- Placing a tree appends the nodes of its bricks in pre-order and gives the place of its top. -/
theorem place_eq_ok (h : place link nodes = .ok (top, placed)) (hsize : nodes.size ≤ UInt32.size) :
    placed.toList = nodes.toList ++ nodesFrom nodes.size link.bricks ∧
      top = link.idAt nodes.size ∧ placed.size ≤ UInt32.size := by
  induction link generalizing nodes top placed with
  | absent =>
    obtain ⟨rfl, rfl⟩ := Prod.mk.inj (Except.ok.inj h)
    exact ⟨(List.append_nil _).symm, rfl, hsize⟩
  | marker text =>
    rw [place] at h
    split_ifs at h
    obtain ⟨rfl, rfl⟩ := Prod.mk.inj (Except.ok.inj h)
    exact ⟨(List.append_nil _).symm, rfl, hsize⟩
  | brick name head right bottom ihr ihb =>
    obtain ⟨node, right?, afterRight, bottom?, afterBottom, hnode, hright, hbottom, rfl, rfl⟩ :=
      place_brick_eq_ok h
    obtain ⟨hlt, hat⟩ := bareNode_eq_ok hnode right bottom
    have hpush : (nodes.push node).size = nodes.size + 1 := Array.size_push node
    obtain ⟨hrlist, rfl, hrsize⟩ := ihr hright (by omega)
    obtain ⟨hblist, rfl, hbsize⟩ := ihb hbottom hrsize
    have hafter : afterRight.size = nodes.size + 1 + right.bricks.length := by
      rw [← Array.length_toList, hrlist, List.length_append, Array.length_toList, hpush,
        length_nodesFrom]
    refine ⟨?_, ?_, ?_⟩
    -- the node of the brick is completed where it was pushed, in front of all the others
    · rw [Array.toList_modify, hblist, hrlist, hpush, hafter, Array.toList_push, Link.bricks,
        nodesFrom_cons, nodesFrom_append, ← hat]
      simp only [List.append_assoc, List.singleton_append]
      exact modify_length_append nodes.toList
    · show some node.id = some (Ident.ofIndex nodes.size)
      have hid := congrArg Node.id hat
      exact congrArg some hid
    · rw [Array.size_modify]
      exact hbsize

theorem size_of_place (h : place link nodes = .ok (top, placed))
    (hsize : nodes.size ≤ UInt32.size) : placed.size = nodes.size + link.bricks.length := by
  obtain ⟨hlist, -, -⟩ := place_eq_ok h hsize
  rw [← Array.length_toList, hlist, List.length_append, Array.length_toList, length_nodesFrom]

theorem placeAll_eq_ok {trees : List Brick} (h : placeAll trees nodes = .ok placed)
    (hsize : nodes.size ≤ UInt32.size) :
    placed.toList = nodes.toList ++ nodesFrom nodes.size (trees.flatMap Brick.bricks) ∧
      placed.size ≤ UInt32.size := by
  induction trees generalizing nodes with
  | nil =>
    obtain rfl := Except.ok.inj h
    exact ⟨(List.append_nil _).symm, hsize⟩
  | cons tree trees ih =>
    rw [placeAll] at h
    obtain ⟨⟨top, after⟩, htree, hrest⟩ := bind_eq_ok_iff.mp h
    obtain ⟨hlist, -, hafter⟩ := place_eq_ok htree hsize
    obtain ⟨hplaced, hle⟩ := ih hrest hafter
    refine ⟨?_, hle⟩
    have hlen : after.size = nodes.size + tree.bricks.length := size_of_place htree hsize
    rw [hplaced, hlist, hlen, List.flatMap_cons, nodesFrom_append, List.append_assoc]
    rfl

/-- A program that trees draw has the nodes of their bricks in pre-order, as many as there are
numbers at most. -/
theorem ofBricks_eq_ok {trees : List Brick} {p : Program} (h : ofBricks trees = .ok p) :
    p.nodes.toList = nodesFrom 0 (trees.flatMap Brick.bricks) ∧ p = ofNodes p.nodes ∧
      p.size ≤ UInt32.size := by
  unfold ofBricks at h
  obtain ⟨nodes, hnodes, hp⟩ := bind_eq_ok_iff.mp h
  obtain rfl := pure_eq_ok_iff.mp hp
  obtain ⟨hlist, hsize⟩ := placeAll_eq_ok hnodes (Nat.zero_le _)
  exact ⟨hlist, rfl, hsize⟩

/-- A program has one node for each brick. -/
theorem size_of_ofBricks {trees : List Brick} {p : Program} (hp : ofBricks trees = .ok p) :
    p.size = (trees.flatMap Brick.bricks).length := by
  obtain ⟨hlist, -, -⟩ := ofBricks_eq_ok hp
  rw [size, ← Array.length_toList, hlist, length_nodesFrom]

end Program

end TileWalk
