import Mathlib.Algebra.Group.Nat.Defs
import TileWalk.Program.Builder
import TileWalk.Program.Load
import TileWalk.Proofs.Program.Layout
import TileWalk.Proofs.Program.Tables

/-!
# Closed programs

Whatever way a program is obtained, control cannot leave it: every link, the beginning of the
program and the beginning of each function are numbers of its nodes
(`Program.IsObtainable.isClosed`). Programs are obtained from payloads or from a builder, and a
builder may have met faults on its way, for a link that was refused is not made.
-/

namespace TileWalk

open Outcome

/-! ### Linked nodes -/

/-- Every node stands at the place of its number, and every link leads to one of the nodes. -/
def Linked (nodes : Array Node) : Prop :=
  ∀ i n, nodes[i]? = some n → n.id = Ident.ofIndex i ∧
    (∀ id, n.right = some id → id.index < nodes.size) ∧
    (∀ id, n.bottom = some id → id.index < nodes.size)

namespace Linked

variable {nodes : Array Node} {n : Node} {source target : NodeId}

theorem push (h : Linked nodes) (hid : n.id = Ident.ofIndex nodes.size) (hr : n.right = none)
    (hb : n.bottom = none) : Linked (nodes.push n) := by
  intro i m hm
  rw [Array.size_push]
  rw [Array.getElem?_push] at hm
  split_ifs at hm with hi
  · obtain rfl := Option.some.inj hm
    refine ⟨hi ▸ hid, ?_, ?_⟩
    · intro id hid'
      rw [hr] at hid'
      cases hid'
    · intro id hid'
      rw [hb] at hid'
      cases hid'
  · obtain ⟨h1, h2, h3⟩ := h i m hm
    exact ⟨h1, fun id hid' => Nat.lt_succ_of_lt (h2 id hid'),
      fun id hid' => Nat.lt_succ_of_lt (h3 id hid')⟩

theorem modify_right (h : Linked nodes) (i : Nat) (ht : target.index < nodes.size) :
    Linked (nodes.modify i fun n => { n with right := some target }) := by
  intro j m hm
  rw [Array.size_modify]
  rw [Array.getElem?_modify] at hm
  split_ifs at hm with hj
  · obtain ⟨n, hn, rfl⟩ := Option.map_eq_some_iff.mp hm
    obtain ⟨h1, -, h3⟩ := h j n hn
    exact ⟨h1, fun id hid => Option.some.inj hid ▸ ht, h3⟩
  · exact h j m hm

theorem modify_bottom (h : Linked nodes) (i : Nat) (ht : target.index < nodes.size) :
    Linked (nodes.modify i fun n => { n with bottom := some target }) := by
  intro j m hm
  rw [Array.size_modify]
  rw [Array.getElem?_modify] at hm
  split_ifs at hm with hj
  · obtain ⟨n, hn, rfl⟩ := Option.map_eq_some_iff.mp hm
    obtain ⟨h1, h2, -⟩ := h j n hn
    exact ⟨h1, h2, fun id hid => Option.some.inj hid ▸ ht⟩
  · exact h j m hm

/-- Nodes in pre-order are linked, for whatever hangs on a brick stands behind it. -/
theorem of_toList_eq {trees : List Brick}
    (h : nodes.toList = nodesFrom 0 (trees.flatMap Brick.bricks))
    (hsize : nodes.size ≤ UInt32.size) : Linked nodes := by
  intro i n hn
  rw [← Array.getElem?_toList, h, getElem?_nodesFrom] at hn
  obtain ⟨b, hb, rfl⟩ := Option.map_eq_some_iff.mp hn
  have hlen : nodes.size = (trees.flatMap Brick.bricks).length := by
    rw [← Array.length_toList, h, length_nodesFrom]
  have hspan := Brick.le_length_flatMap_bricks trees hb
  -- a link to place `j` is made only if a brick stands there
  have key : ∀ (l : Link) (j : Nat) (id : NodeId), l.idAt j = some id →
      j + l.bricks.length ≤ nodes.size → id.index < nodes.size := by
    intro l j id hid hle
    unfold Link.idAt at hid
    split_ifs at hid with hl
    obtain rfl := Option.some.inj hid
    have := l.bricks_ne_nil hl
    rw [Ident.index_ofIndex (by omega)]
    omega
  rw [Nat.zero_add]
  refine ⟨rfl, fun id hid => key b.right (i + 1) id hid (by omega), fun id hid => ?_⟩
  exact key b.bottom (i + 1 + b.right.bricks.length) id hid (by omega)

end Linked

/-! ### Builders -/

namespace Builder

variable {b : Builder} {source target after : NodeId}

/-- A use of a builder. -/
inductive Call
  | add (i : Instruction)
  | linkRight (source target : NodeId)
  | linkBottom (source target : NodeId)
  | chain (after : NodeId) (instructions : List Instruction)

/-- The builder after a use; one that ends in a fault leaves what it has done so far. -/
def perform (b : Builder) : Call → Builder
  | .add i => (b.add i).1
  | .linkRight source target =>
    match b.linkRight source target with
    | .ok linked => linked
    | .error _ => b
  | .linkBottom source target =>
    match b.linkBottom source target with
    | .ok linked => linked
    | .error _ => b
  | .chain after instructions => (b.chain after instructions).1

/-- The builder after several uses. -/
def ofCalls (calls : List Call) : Builder :=
  calls.foldl perform empty

theorem checkLink_eq_ok_iff : b.checkLink source target = .ok () ↔
    source.index < b.nodes.size ∧ target.index < b.nodes.size := by
  unfold checkLink
  by_cases hs : b.nodes.size ≤ source.index
  · rw [if_pos hs]
    exact ⟨fun h => (nomatch h), fun h => absurd h.1 (Nat.not_lt.mpr hs)⟩
  rw [if_neg hs]
  by_cases ht : b.nodes.size ≤ target.index
  · rw [if_pos ht]
    exact ⟨fun h => (nomatch h), fun h => absurd h.2 (Nat.not_lt.mpr ht)⟩
  · rw [if_neg ht]
    exact ⟨fun _ => ⟨Nat.not_le.mp hs, Nat.not_le.mp ht⟩, fun _ => rfl⟩

theorem linked_add (h : Linked b.nodes) (i : Instruction) : Linked (b.add i).1.nodes :=
  h.push rfl rfl rfl

theorem linked_linkRight {linked : Builder} (h : Linked b.nodes)
    (hl : b.linkRight source target = .ok linked) : Linked linked.nodes := by
  obtain ⟨u, hcheck, hset⟩ := bind_eq_ok_iff.mp hl
  obtain rfl := pure_eq_ok_iff.mp hset
  exact h.modify_right _ (checkLink_eq_ok_iff.mp hcheck).2

theorem linked_linkBottom {linked : Builder} (h : Linked b.nodes)
    (hl : b.linkBottom source target = .ok linked) : Linked linked.nodes := by
  obtain ⟨u, hcheck, hset⟩ := bind_eq_ok_iff.mp hl
  obtain rfl := pure_eq_ok_iff.mp hset
  exact h.modify_bottom _ (checkLink_eq_ok_iff.mp hcheck).2

theorem linked_chain (h : Linked b.nodes) (instructions : List Instruction) :
    Linked (b.chain after instructions).1.nodes := by
  induction instructions generalizing b after with
  | nil => exact h
  | cons i rest ih =>
    rw [chain]
    dsimp only
    have hadd := linked_add h i
    split
    · exact hadd
    · next hcheck =>
      exact ih (hadd.modify_bottom _ (checkLink_eq_ok_iff.mp hcheck).2)

theorem linked_perform (h : Linked b.nodes) (call : Call) : Linked (b.perform call).nodes := by
  cases call with
  | add i => exact linked_add h i
  | linkRight source target =>
    unfold perform
    dsimp only
    split
    · next hl => exact linked_linkRight h hl
    · exact h
  | linkBottom source target =>
    unfold perform
    dsimp only
    split
    · next hl => exact linked_linkBottom h hl
    · exact h
  | chain after instructions => exact linked_chain h instructions

theorem linked_ofCalls (calls : List Call) : Linked (ofCalls calls).nodes := by
  -- the first call changes the builder, so the induction is over all of them
  have key : ∀ b : Builder, Linked b.nodes → Linked (calls.foldl perform b).nodes := by
    induction calls with
    | nil => exact fun b h => h
    | cons call calls ih => exact fun b h => ih _ (linked_perform h call)
  refine key empty fun i n hn => ?_
  cases hn

end Builder

/-! ### Programs -/

namespace Program

variable {p : Program} {id : NodeId}

/-- Control cannot leave the program. -/
structure IsClosed (p : Program) : Prop where
  linked : Linked p.nodes
  size_le : p.size ≤ UInt32.size
  tables : p = ofNodes p.nodes

namespace IsClosed

theorem index_getElem (h : p.IsClosed) (i : Nat) (hi : i < p.nodes.size) :
    p.nodes[i].id.index = i := by
  rw [(h.linked i _ (Array.getElem?_eq_getElem hi)).1]
  exact Ident.index_ofIndex (Nat.lt_of_lt_of_le hi h.size_le)

theorem index_of_mem (h : p.IsClosed) {n : Node} (hn : n ∈ p.nodes.toList) :
    n.id.index < p.size ∧ p.nodes[n.id.index]? = some n := by
  obtain ⟨i, hi, rfl⟩ := Array.mem_iff_getElem.mp (Array.mem_toList_iff.mp hn)
  rw [h.index_getElem i hi]
  exact ⟨hi, Array.getElem?_eq_getElem hi⟩

/-- What a search of the nodes finds is the node of the number that it gives. -/
theorem exists_node?_of_find? (h : p.IsClosed) {asked : Node → Bool}
    (hfind : (p.nodes.toList.find? asked).map Node.id = some id) :
    ∃ n, p.node? id = some n ∧ asked n = true := by
  obtain ⟨n, hn, rfl⟩ := Option.map_eq_some_iff.mp hfind
  exact ⟨n, (h.index_of_mem (List.mem_of_find?_eq_some hn)).2, List.find?_some hn⟩

theorem exists_node?_of_root (h : p.IsClosed) (hroot : p.root = some id) :
    ∃ n, p.node? id = some n ∧ n.command = .root := by
  rw [h.tables, root_ofNodes] at hroot
  obtain ⟨n, hn, hcommand⟩ := h.exists_node?_of_find? hroot
  exact ⟨n, hn, of_decide_eq_true hcommand⟩

theorem exists_node?_of_functionEntry? (h : p.IsClosed) {f : Nat}
    (hf : p.functionEntry? f = some id) : ∃ n, p.node? id = some n ∧ n.declared? = some f := by
  rw [h.tables, functionEntry?_ofNodes] at hf
  obtain ⟨n, hn, hdeclared⟩ := h.exists_node?_of_find? hf
  exact ⟨n, hn, of_decide_eq_true hdeclared⟩

theorem root_lt (h : p.IsClosed) (hroot : p.root = some id) : id.index < p.size := by
  obtain ⟨n, hn, -⟩ := h.exists_node?_of_root hroot
  exact (Array.getElem?_eq_some_iff.mp hn).1

theorem functionEntry?_lt (h : p.IsClosed) {f : Nat} (hf : p.functionEntry? f = some id) :
    id.index < p.size := by
  obtain ⟨n, hn, -⟩ := h.exists_node?_of_functionEntry? hf
  exact (Array.getElem?_eq_some_iff.mp hn).1

end IsClosed

/-- A program that can be had: from a payload, or from a builder with fewer than `2 ^ 32` nodes. -/
inductive IsObtainable (p : Program) : Prop
  | loaded (payload : Json.Payload) (h : ofPayload payload = .ok p)
  | built (calls : List Builder.Call) (h : (Builder.ofCalls calls).build = p)
      (hsize : p.size < 2 ^ 32)

theorem isClosed_of_ofBricks {trees : List Brick} (h : ofBricks trees = .ok p) : p.IsClosed := by
  obtain ⟨hlist, htables, hsize⟩ := ofBricks_eq_ok h
  exact ⟨Linked.of_toList_eq hlist hsize, hsize, htables⟩

theorem exists_ofBricks_of_ofPayload {payload : Json.Payload} (h : ofPayload payload = .ok p) :
    ∃ trees, ofBricks trees = .ok p := by
  unfold ofPayload at h
  split at h
  · exact ⟨_, h⟩
  · cases h

/-- Whatever way a program is obtained, control cannot leave it. -/
theorem IsObtainable.isClosed (h : p.IsObtainable) : p.IsClosed := by
  cases h with
  | loaded payload hp =>
    obtain ⟨trees, htrees⟩ := exists_ofBricks_of_ofPayload hp
    exact isClosed_of_ofBricks htrees
  | built calls hb hsize =>
    subst hb
    exact ⟨Builder.linked_ofCalls calls, Nat.le_of_lt hsize, rfl⟩

end Program

end TileWalk
