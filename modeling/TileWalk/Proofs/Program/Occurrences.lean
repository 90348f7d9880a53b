import Mathlib.Data.List.Nodup
import TileWalk.Proofs.Program.Layout
import TileWalk.Proofs.Program.Tables

/-!
# Occurrences of bricks

A brick of a list of trees is named by the number of its tree and the way that leads to it from the
top, to the right or to the bottom at each brick on the way. Listed in pre-order
(`Occurrence.all`), the occurrence at place `n` is that of node `n` of the program that the trees
draw (`Occurrence.IsAt.exists_node`): what hangs on the brick is what the node is linked to, and the
first brick of some kind is the node that the tables of the program name (`rel_root?`,
`rel_function?`). A brick has no other number (`Occurrence.IsAt.unique`).
-/

namespace TileWalk

open Outcome

/-! ### Ways through a tree -/

/-- A side on which a brick can hang. -/
inductive Branch
  | right
  | bottom
  deriving DecidableEq, Repr

namespace Link

/-- What hangs at the end of a way. -/
def descend : Link → List Branch → Link
  | l, [] => l
  | .brick _ _ right _, .right :: path => right.descend path
  | .brick _ _ _ bottom, .bottom :: path => bottom.descend path
  | _, _ :: _ => .absent

/-- The brick that hangs here. -/
def brick? : Link → Option Brick
  | .brick name head right bottom => some ⟨name, head, right, bottom⟩
  | _ => none

/-- The ways to all bricks that hang here, in pre-order. -/
def paths : Link → List (List Branch)
  | .absent => []
  | .marker _ => []
  | .brick _ _ right bottom =>
    [] :: (right.paths.map (Branch.right :: ·) ++ bottom.paths.map (Branch.bottom :: ·))

theorem length_paths (l : Link) : l.paths.length = l.bricks.length := by
  induction l with
  | absent => rfl
  | marker text => rfl
  | brick name head right bottom ihr ihb => simp [paths, bricks, ihr, ihb]

theorem nodup_paths (l : Link) : l.paths.Nodup := by
  have hcons : ∀ side : Branch, Function.Injective (side :: · : List Branch → List Branch) :=
    fun side path path' h => (List.cons.inj h).2
  induction l with
  | absent => exact List.nodup_nil
  | marker text => exact List.nodup_nil
  | brick name head right bottom ihr ihb =>
    rw [paths, List.nodup_cons, List.nodup_append]
    refine ⟨?_, ihr.map (hcons .right), ihb.map (hcons .bottom), ?_⟩
    · rw [List.mem_append, List.mem_map, List.mem_map]
      rintro (⟨path, -, h⟩ | ⟨path, -, h⟩) <;> cases h
    · intro path hpath path' hpath' h
      obtain ⟨rest, -, rfl⟩ := List.mem_map.mp hpath
      obtain ⟨rest', -, rfl⟩ := List.mem_map.mp hpath'
      cases (List.cons.inj h).1

theorem paths_zero {l : Link} (h : l.isBrick = true) : l.paths[0]? = some [] := by
  cases l with
  | brick name head right bottom => rfl
  | absent => cases h
  | marker text => cases h

section

variable {name : Option Json.Value} {head : Head} {right bottom : Link} {i j : Nat}
  {path : List Branch} {b : Brick}

theorem paths_right (h : right.paths[j]? = some path) :
    (Link.brick name head right bottom).paths[j + 1]? = some (.right :: path) := by
  obtain ⟨hj, -⟩ := List.getElem?_eq_some_iff.mp h
  rw [paths, List.getElem?_cons_succ, List.getElem?_append_left (by rwa [List.length_map]),
    List.getElem?_map, h]
  rfl

theorem paths_bottom (h : bottom.paths[j]? = some path) :
    (Link.brick name head right bottom).paths[right.bricks.length + j + 1]? =
      some (.bottom :: path) := by
  have hlen : (right.paths.map (Branch.right :: ·)).length = right.bricks.length := by
    rw [List.length_map, length_paths]
  rw [paths, List.getElem?_cons_succ, List.getElem?_append_right (by omega), hlen,
    Nat.add_sub_cancel_left, List.getElem?_map, h]
  rfl

theorem bricks_right (h : right.bricks[j]? = some b) :
    (Link.brick name head right bottom).bricks[j + 1]? = some b := by
  obtain ⟨hj, -⟩ := List.getElem?_eq_some_iff.mp h
  rw [bricks, List.getElem?_cons_succ, List.getElem?_append_left hj, h]

theorem bricks_bottom (h : bottom.bricks[j]? = some b) :
    (Link.brick name head right bottom).bricks[right.bricks.length + j + 1]? = some b := by
  rw [bricks, List.getElem?_cons_succ, List.getElem?_append_right (by omega),
    Nat.add_sub_cancel_left, h]

/-- A way leads to the top, or goes on to the right, or goes on to the bottom. -/
theorem paths_cases (h : (Link.brick name head right bottom).paths[i]? = some path) :
    (i = 0 ∧ path = []) ∨
      (∃ j rest, i = j + 1 ∧ path = .right :: rest ∧ right.paths[j]? = some rest) ∨
      ∃ j rest, i = right.bricks.length + j + 1 ∧ path = .bottom :: rest ∧
        bottom.paths[j]? = some rest := by
  have hlen : (right.paths.map (Branch.right :: ·)).length = right.bricks.length := by
    rw [List.length_map, length_paths]
  rw [paths] at h
  cases i with
  | zero =>
    obtain rfl := Option.some.inj h
    exact Or.inl ⟨rfl, rfl⟩
  | succ j =>
    rw [List.getElem?_cons_succ] at h
    by_cases hj : j < right.bricks.length
    · rw [List.getElem?_append_left (by omega), List.getElem?_map] at h
      obtain ⟨rest, hrest, rfl⟩ := Option.map_eq_some_iff.mp h
      exact Or.inr (Or.inl ⟨j, rest, rfl, rfl, hrest⟩)
    · rw [List.getElem?_append_right (by omega), hlen, List.getElem?_map] at h
      obtain ⟨rest, hrest, rfl⟩ := Option.map_eq_some_iff.mp h
      exact Or.inr (Or.inr ⟨j - right.bricks.length, rest, by omega, rfl, hrest⟩)

end

/-- The way at place `i` leads to the brick at place `i`. What hangs to its right comes next, and
what hangs below it comes after everything on the right. -/
theorem exists_brick_of_paths {l : Link} {i : Nat} {path : List Branch}
    (h : l.paths[i]? = some path) : ∃ b, l.bricks[i]? = some b ∧ l.descend path = b.toLink ∧
      (b.right.isBrick = true → l.paths[i + 1]? = some (path ++ [.right])) ∧
      (b.bottom.isBrick = true →
        l.paths[i + 1 + b.right.bricks.length]? = some (path ++ [.bottom])) := by
  induction l generalizing i path with
  | absent => cases h
  | marker text => cases h
  | brick name head right bottom ihr ihb =>
    rcases paths_cases h with ⟨rfl, rfl⟩ | ⟨j, rest, rfl, rfl, hj⟩ | ⟨j, rest, rfl, rfl, hj⟩
    · refine ⟨⟨name, head, right, bottom⟩, rfl, rfl, fun hr => ?_, fun hb => ?_⟩
      · exact paths_right (paths_zero hr)
      · have hway : (Link.brick name head right bottom).paths[right.bricks.length + 0 + 1]? =
            some [.bottom] := paths_bottom (paths_zero hb)
        rw [Nat.zero_add, Nat.add_comm]
        exact hway
    · obtain ⟨b, hb, hdescend, hright, hbottom⟩ := ihr hj
      refine ⟨b, bricks_right hb, hdescend, fun hr => paths_right (hright hr), fun hb => ?_⟩
      have hindex : j + 1 + 1 + b.right.bricks.length = j + 1 + b.right.bricks.length + 1 := by
        omega
      rw [hindex]
      exact paths_right (hbottom hb)
    · obtain ⟨b, hb, hdescend, hright, hbottom⟩ := ihb hj
      refine ⟨b, bricks_bottom hb, hdescend, fun hr => paths_bottom (hright hr), fun hb => ?_⟩
      have hindex : right.bricks.length + j + 1 + 1 + b.right.bricks.length =
          right.bricks.length + (j + 1 + b.right.bricks.length) + 1 := by
        omega
      rw [hindex]
      exact paths_bottom (hbottom hb)

end Link

/-! ### Occurrences in a list of trees -/

/-- A brick of a list of trees: the number of its tree, and the way to it from the top. -/
@[ext]
structure Occurrence where
  tree : Nat
  path : List Branch
  deriving DecidableEq, Repr

namespace Occurrence

/-- What hangs on one side of the brick, whether or not there is a brick. -/
def extend (o : Occurrence) (side : Branch) : Occurrence :=
  ⟨o.tree, o.path ++ [side]⟩

/-- The brick itself. -/
def brick? (trees : List Brick) (o : Occurrence) : Option Brick :=
  trees[o.tree]?.bind fun tree => (tree.toLink.descend o.path).brick?

/-- The occurrences in one tree, in pre-order. -/
def ofTree (x : Brick × Nat) : List Occurrence :=
  x.1.toLink.paths.map (Occurrence.mk x.2)

/-- All occurrences in a list of trees, in pre-order. -/
def all (trees : List Brick) : List Occurrence :=
  trees.zipIdx.flatMap ofTree

/-- The first brick in pre-order that is as asked for. -/
def first? (trees : List Brick) (f : Brick → Bool) : Option Occurrence :=
  (all trees).find? fun o => (o.brick? trees).any f

/-- The brick has the number of a node. -/
def IsAt (trees : List Brick) (o : Occurrence) (id : NodeId) : Prop :=
  (all trees)[id.index]? = some o

theorem length_ofTree (x : Brick × Nat) : (ofTree x).length = x.1.bricks.length := by
  rw [ofTree, List.length_map, Link.length_paths]
  rfl

/-- The pre-order of a list of numbered trees, as in `Link.exists_brick_of_paths`. -/
theorem exists_brick_of_flatMap {trees : List (Brick × Nat)} {i : Nat} {o : Occurrence}
    (h : (trees.flatMap ofTree)[i]? = some o) : ∃ x ∈ trees, o.tree = x.2 ∧
      ∃ b, (trees.flatMap fun x => x.1.bricks)[i]? = some b ∧
        x.1.toLink.descend o.path = b.toLink ∧
        (b.right.isBrick = true → (trees.flatMap ofTree)[i + 1]? = some (o.extend .right)) ∧
        (b.bottom.isBrick = true →
          (trees.flatMap ofTree)[i + 1 + b.right.bricks.length]? = some (o.extend .bottom)) := by
  induction trees generalizing i with
  | nil => cases h
  | cons x trees ih =>
    have hlen := length_ofTree x
    -- the occurrence is in the first tree, or behind all of it
    rw [List.flatMap_cons] at h ⊢
    rw [List.flatMap_cons]
    by_cases hi : i < (ofTree x).length
    · rw [List.getElem?_append_left hi, ofTree, List.getElem?_map] at h
      obtain ⟨path, hpath, rfl⟩ := Option.map_eq_some_iff.mp h
      obtain ⟨b, hb, hdescend, hright, hbottom⟩ := Link.exists_brick_of_paths hpath
      -- whatever hangs on the brick is in the same tree
      have hsame : ∀ {j : Nat} {rest : List Branch}, x.1.toLink.paths[j]? = some rest →
          (ofTree x ++ trees.flatMap ofTree)[j]? = some ⟨x.2, rest⟩ := by
        intro j rest hrest
        have hj : (ofTree x)[j]? = some ⟨x.2, rest⟩ := by
          rw [ofTree, List.getElem?_map, hrest]
          rfl
        obtain ⟨hlt, -⟩ := List.getElem?_eq_some_iff.mp hj
        rw [List.getElem?_append_left hlt, hj]
      refine ⟨x, List.mem_cons_self, rfl, b, ?_, hdescend, fun hr => hsame (hright hr),
        fun hb => hsame (hbottom hb)⟩
      rw [List.getElem?_append_left (hlen ▸ hi)]
      exact hb
    · have hge : (ofTree x).length ≤ i := Nat.not_lt.mp hi
      rw [List.getElem?_append_right hge] at h
      obtain ⟨y, hy, htree, b, hb, hdescend, hright, hbottom⟩ := ih h
      refine ⟨y, List.mem_cons_of_mem x hy, htree, b, ?_, hdescend, fun hr => ?_, fun hbrick => ?_⟩
      · rw [List.getElem?_append_right (hlen ▸ hge), ← hlen]
        exact hb
      · rw [List.getElem?_append_right (by omega)]
        have hindex : i + 1 - (ofTree x).length = i - (ofTree x).length + 1 := by omega
        rw [hindex]
        exact hright hr
      · rw [List.getElem?_append_right (by omega)]
        have hindex : i + 1 + b.right.bricks.length - (ofTree x).length =
            i - (ofTree x).length + 1 + b.right.bricks.length := by omega
        rw [hindex]
        exact hbottom hbrick

variable {trees : List Brick} {o : Occurrence} {i : Nat}

theorem flatMap_zipIdx_bricks (trees : List Brick) :
    (trees.zipIdx.flatMap fun x => x.1.bricks) = trees.flatMap Brick.bricks := by
  have hfst : (trees.zipIdx.map Prod.fst).flatMap Brick.bricks = trees.flatMap Brick.bricks := by
    rw [List.zipIdx_map_fst]
  rw [← hfst, List.flatMap_map]

theorem length_all (trees : List Brick) :
    (all trees).length = (trees.flatMap Brick.bricks).length := by
  rw [← flatMap_zipIdx_bricks, all, List.length_flatMap, List.length_flatMap]
  exact congrArg List.sum (List.map_congr_left fun x _ => length_ofTree x)

/-- No occurrence is listed twice. -/
theorem nodup_all (trees : List Brick) : (all trees).Nodup := by
  rw [all, List.nodup_flatMap]
  constructor
  · intro x _
    refine x.1.toLink.nodup_paths.map fun path path' h => ?_
    exact congrArg Occurrence.path h
  -- occurrences in different trees differ in the number of the tree
  · have hnumbers : trees.zipIdx.Pairwise fun x y => x.2 ≠ y.2 := by
      have hrange : (trees.zipIdx.map Prod.snd).Nodup := by
        rw [List.zipIdx_map_snd]
        exact List.nodup_range'
      exact List.pairwise_map.mp hrange
    refine hnumbers.imp fun {x y} hxy o hx hy => ?_
    obtain ⟨path, -, rfl⟩ := List.mem_map.mp hx
    obtain ⟨path', -, h⟩ := List.mem_map.mp hy
    exact hxy (congrArg Occurrence.tree h).symm

/-- A brick has one number. -/
theorem IsAt.unique {id id' : NodeId} (h : o.IsAt trees id) (h' : o.IsAt trees id') : id = id' := by
  obtain ⟨hlt, -⟩ := List.getElem?_eq_some_iff.mp h
  exact Ident.index_inj.mp ((List.getElem?_inj hlt (nodup_all trees)).mp (h.trans h'.symm))

/-- The occurrence at place `i` is that of the brick at place `i`. -/
theorem exists_brick_of_all (h : (all trees)[i]? = some o) :
    ∃ b, (trees.flatMap Brick.bricks)[i]? = some b ∧ o.brick? trees = some b ∧
      (b.right.isBrick = true → (all trees)[i + 1]? = some (o.extend .right)) ∧
      (b.bottom.isBrick = true →
        (all trees)[i + 1 + b.right.bricks.length]? = some (o.extend .bottom)) := by
  obtain ⟨⟨tree, n⟩, hx, rfl, b, hb, hdescend, hright, hbottom⟩ := exists_brick_of_flatMap h
  rw [flatMap_zipIdx_bricks] at hb
  refine ⟨b, hb, ?_, hright, hbottom⟩
  unfold brick?
  rw [List.mem_zipIdx_iff_getElem?.mp hx, Option.bind_some]
  exact congrArg Link.brick? hdescend

/-- What hangs on one side of a brick that occurs here. -/
def next? (o : Occurrence) (b : Brick) : Branch → Option Occurrence
  | .right => if b.right.isBrick then some (o.extend .right) else none
  | .bottom => if b.bottom.isBrick then some (o.extend .bottom) else none

end Occurrence

/-! ### Occurrences and nodes -/

namespace Command

theorem ofTag_eq_root_iff {tag : String} : ofTag tag = root ↔ tag = "CommandNOP" := by
  constructor
  · intro h
    rw [← tag_ofTag tag, h]
    rfl
  · rintro rfl
    rfl

theorem ofTag_eq_funcStart_iff {tag : String} :
    ofTag tag = funcStart ↔ tag = "CommandFuncStart" := by
  constructor
  · intro h
    rw [← tag_ofTag tag, h]
    rfl
  · rintro rfl
    rfl

end Command

/-- A brick declares a function by the canonical numeral of its number. -/
theorem Brick.declared?_nodeAt_iff {b : Brick} {n f : Nat} (hf : f < Node.functionLimit) :
    (b.nodeAt n).declared? = some f ↔
      b.head.command = "CommandFuncStart" ∧ b.argumentText = toString f := by
  unfold Node.declared?
  show (if Command.ofTag b.head.command = .funcStart then
    Text.Decimal.canonical? Node.functionLimit b.argumentText else none) = some f ↔ _
  rw [← Command.ofTag_eq_funcStart_iff]
  by_cases h : Command.ofTag b.head.command = .funcStart
  · rw [if_pos h, Text.Decimal.canonical?_eq_some_iff]
    exact ⟨fun hf => ⟨h, hf.2⟩, fun htext => ⟨hf, htext.2⟩⟩
  · rw [if_neg h]
    exact ⟨fun hn => (nomatch hn), fun hboth => absurd hboth.1 h⟩

namespace Occurrence

/-- The first brick that marks a beginning. -/
def root? (trees : List Brick) : Option Occurrence :=
  first? trees fun b => b.head.command = "CommandNOP"

/-- The first brick that declares the function with a number. -/
def function? (trees : List Brick) (f : Nat) : Option Occurrence :=
  first? trees fun b => b.head.command = "CommandFuncStart" && b.argumentText = toString f

section

variable {trees : List Brick} {p : Program} {o : Occurrence} {id : NodeId} {i : Nat}

theorem isAt_ofIndex (hp : Program.ofBricks trees = .ok p) (h : (all trees)[i]? = some o) :
    o.IsAt trees (Ident.ofIndex i) := by
  obtain ⟨-, -, hsize⟩ := Program.ofBricks_eq_ok hp
  obtain ⟨hi, -⟩ := List.getElem?_eq_some_iff.mp h
  have hlen : p.size = (all trees).length := by
    rw [length_all, Program.size_of_ofBricks hp]
  unfold IsAt
  rw [Ident.index_ofIndex (Nat.lt_of_lt_of_le hi (hlen ▸ hsize))]
  exact h

/-- The node with the number of a brick is the node of that brick, and its links lead to what hangs
on the brick. -/
theorem IsAt.exists_node (hp : Program.ofBricks trees = .ok p) (h : o.IsAt trees id) :
    ∃ b, o.brick? trees = some b ∧ p.node? id = some (b.nodeAt id.index) ∧
      Option.Rel (IsAt trees) (o.next? b .right) (b.nodeAt id.index).right ∧
      Option.Rel (IsAt trees) (o.next? b .bottom) (b.nodeAt id.index).bottom := by
  obtain ⟨b, hb, hbrick, hright, hbottom⟩ := exists_brick_of_all h
  obtain ⟨hlist, -, -⟩ := Program.ofBricks_eq_ok hp
  refine ⟨b, hbrick, ?_, ?_, ?_⟩
  · show p.nodes[id.index]? = _
    rw [← Array.getElem?_toList, hlist, getElem?_nodesFrom, hb, Option.map_some, Nat.zero_add]
  · show Option.Rel _ (if b.right.isBrick then _ else _) (b.right.idAt _)
    unfold Link.idAt
    by_cases hr : b.right.isBrick = true
    · rw [if_pos hr, if_pos hr]
      exact .some (isAt_ofIndex hp (hright hr))
    · rw [if_neg hr, if_neg hr]
      exact .none
  · show Option.Rel _ (if b.bottom.isBrick then _ else _) (b.bottom.idAt _)
    unfold Link.idAt
    by_cases hb : b.bottom.isBrick = true
    · rw [if_pos hb, if_pos hb]
      exact .some (isAt_ofIndex hp (hbottom hb))
    · rw [if_neg hb, if_neg hb]
      exact .none

/-- The occurrences and the nodes correspond, place by place. -/
theorem forall₂_all (hp : Program.ofBricks trees = .ok p) :
    List.Forall₂ (fun o n => ∃ b, o.brick? trees = some b ∧ o.IsAt trees n.id ∧
      ∃ j, n = b.nodeAt j) (all trees) p.nodes.toList := by
  obtain ⟨hlist, -, -⟩ := Program.ofBricks_eq_ok hp
  rw [List.forall₂_iff_get]
  refine ⟨?_, fun i hi hi' => ?_⟩
  · rw [hlist, length_nodesFrom, length_all]
  · have ho : (all trees)[i]? = some ((all trees).get ⟨i, hi⟩) := List.getElem?_eq_getElem hi
    obtain ⟨b, hb, hbrick, -, -⟩ := exists_brick_of_all ho
    have hn : p.nodes.toList[i]? = some (p.nodes.toList.get ⟨i, hi'⟩) :=
      List.getElem?_eq_getElem hi'
    have hnode : p.nodes.toList[i]? = some (b.nodeAt i) := by
      rw [hlist, getElem?_nodesFrom, hb, Option.map_some, Nat.zero_add]
    rw [Option.some.inj (hn.symm.trans hnode)]
    exact ⟨b, hbrick, isAt_ofIndex hp ho, i, rfl⟩

/-- Searching the bricks and searching the nodes find the same. -/
theorem rel_first? (hp : Program.ofBricks trees = .ok p) {f : Brick → Bool} {g : Node → Bool}
    (hfg : ∀ b n, g (Brick.nodeAt n b) = f b) :
    Option.Rel (IsAt trees) (first? trees f) ((p.nodes.toList.find? g).map Node.id) := by
  unfold first?
  have hall := forall₂_all hp
  -- where the brick is not as asked for, neither is its node
  generalize all trees = occurrences at hall
  generalize p.nodes.toList = nodes at hall
  induction hall with
  | nil => exact .none
  | @cons o n occurrences nodes hon _ ih =>
    obtain ⟨b, hbrick, hat, j, rfl⟩ := hon
    rw [List.find?_cons, List.find?_cons, hbrick, Option.any_some, hfg b j]
    cases f b with
    | true => exact .some hat
    | false => exact ih

theorem rel_root? (hp : Program.ofBricks trees = .ok p) :
    Option.Rel (IsAt trees) (root? trees) p.root := by
  obtain ⟨-, htables, -⟩ := Program.ofBricks_eq_ok hp
  rw [htables, Program.root_ofNodes]
  refine rel_first? hp fun b n => decide_eq_decide.mpr ?_
  exact Command.ofTag_eq_root_iff

theorem rel_function? (hp : Program.ofBricks trees = .ok p) {f : Nat}
    (hf : f < Node.functionLimit) :
    Option.Rel (IsAt trees) (function? trees f) <| Program.functionEntry? p f := by
  obtain ⟨-, htables, -⟩ := Program.ofBricks_eq_ok hp
  rw [htables, Program.functionEntry?_ofNodes]
  refine rel_first? hp fun b n => ?_
  rw [← Bool.decide_and]
  exact decide_eq_decide.mpr (Brick.declared?_nodeAt_iff hf)

end

end Occurrence

end TileWalk
