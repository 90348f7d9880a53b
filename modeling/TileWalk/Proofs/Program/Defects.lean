import Mathlib.Tactic.MkIffOfInductiveProp
import TileWalk.Proofs.Program.Layout

/-!
# The defects of brick trees

What makes a list of trees unusable is listed in the order of the walk through them
(`Link.defects`): of each brick first its name, then its argument, then everything that hangs to
its right, then everything that hangs below it. Each of these defects is the defect of some brick
(`Brick.Defect`). As long as there are numbers for all bricks, the trees are refused exactly if
there is a defect, and the first one is named (`Program.failsWith_ofBricks`).
-/

namespace TileWalk

open Outcome

/-! ### What can be wrong -/

/-- The document can be a name or an argument: it is a text, a number or `null`. -/
def Json.Value.isScalar : Json.Value → Bool
  | .null => true
  | .bool _ => false
  | .number _ => true
  | .string _ => true
  | .array _ => false
  | .object _ => false

/-- What is wrong with a name or an argument. -/
def Json.Value.defects (v : Json.Value) : List ProgramError :=
  if v.isScalar then [] else [.badArgument v]

/-- Everything that is wrong with the bricks that hang here, in the order of the walk. -/
def Link.defects : Link → List ProgramError
  | .absent => []
  | .marker text => if text = Link.nil then [] else [.badLink text]
  | .brick name head right bottom =>
    name.toList.flatMap Json.Value.defects ++
      (head.argument.defects ++ (right.defects ++ bottom.defects))

namespace Brick

/-- Everything that is wrong with a tree, in the order of the walk. -/
def defects (b : Brick) : List ProgramError :=
  b.toLink.defects

/-- What is wrong with the brick alone, whatever else hangs on it. -/
@[mk_iff]
inductive Defect (b : Brick) : ProgramError → Prop
  | name {v : Json.Value} (hname : b.name = some v) (hv : v.isScalar = false) :
    Defect b (.badArgument v)
  | argument (hv : b.head.argument.isScalar = false) : Defect b (.badArgument b.head.argument)
  | right {text : String} (hright : b.right = .marker text) (htext : text ≠ Link.nil) :
    Defect b (.badLink text)
  | bottom {text : String} (hbottom : b.bottom = .marker text) (htext : text ≠ Link.nil) :
    Defect b (.badLink text)

end Brick

theorem Json.Value.mem_defects_iff {v : Json.Value} {e : ProgramError} :
    e ∈ v.defects ↔ v.isScalar = false ∧ e = .badArgument v := by
  unfold defects
  cases v.isScalar <;> simp

/-- What is wrong here is a text that hangs here, or something is wrong with a brick that does. -/
theorem Link.mem_defects_iff {l : Link} {e : ProgramError} : e ∈ l.defects ↔
    (∃ text, l = .marker text ∧ text ≠ Link.nil ∧ e = .badLink text) ∨
      ∃ b ∈ l.bricks, b.Defect e := by
  induction l with
  | absent => simp [defects, bricks]
  | marker text =>
    rw [defects, bricks]
    by_cases h : text = Link.nil
    · simp [h]
    · simp [h]
  | brick name head right bottom ihr ihb =>
    have hname : e ∈ name.toList.flatMap Json.Value.defects ↔
        ∃ v, name = some v ∧ v.isScalar = false ∧ e = .badArgument v := by
      simp only [List.mem_flatMap, Option.mem_toList, Json.Value.mem_defects_iff]
    have hbricks : (∃ b ∈ (brick name head right bottom).bricks, b.Defect e) ↔
        Brick.Defect ⟨name, head, right, bottom⟩ e ∨
          (∃ b ∈ right.bricks, b.Defect e) ∨ ∃ b ∈ bottom.bricks, b.Defect e := by
      simp only [bricks, List.mem_cons, List.mem_append, or_and_right, exists_or, exists_eq_left]
    rw [hbricks, Brick.defect_iff, defects]
    simp only [List.mem_append, hname, Json.Value.mem_defects_iff, ihr, ihb, reduceCtorEq,
      false_and, exists_false, false_or]
    -- what hangs on the brick is wrong by itself, or a brick in it is
    rw [or_or_or_comm]
    simp only [or_assoc]

namespace Brick

/-- Whatever is wrong with trees is wrong with one of their bricks. -/
theorem mem_flatMap_defects_iff {trees : List Brick} {e : ProgramError} :
    e ∈ trees.flatMap defects ↔ ∃ b ∈ trees.flatMap bricks, b.Defect e := by
  have htree : ∀ b : Brick, e ∈ b.defects ↔ ∃ c ∈ b.bricks, c.Defect e := by
    intro b
    refine Link.mem_defects_iff.trans ⟨?_, Or.inr⟩
    rintro (⟨text, hmarker, -⟩ | hbrick)
    · cases hmarker
    · exact hbrick
  simp only [List.mem_flatMap, htree]
  constructor
  · rintro ⟨tree, htree, b, hb, he⟩
    exact ⟨b, ⟨tree, htree, hb⟩, he⟩
  · rintro ⟨b, ⟨tree, htree, hb⟩, he⟩
    exact ⟨tree, htree, b, hb, he⟩

end Brick

/-! ### The first defect is found -/

namespace Program

variable {nodes : Array Node}

theorem failsWith_scalarText (v : Json.Value) : FailsWith (scalarText v) v.defects := by
  cases v with
  | null => exact .ok _
  | number n => exact .ok _
  | string s => exact .ok _
  | bool b => exact .error _
  | array items => exact .error _
  | object members => exact .error _

theorem failsWith_bareNode {n : Nat} (hn : n < UInt32.size) (name : Option Json.Value)
    (head : Head) : FailsWith (bareNode n name head)
      (name.toList.flatMap Json.Value.defects ++ head.argument.defects) := by
  have hid : Ident.ofIndex? n = some (Ident.ofIndex n : NodeId) := if_pos hn
  unfold bareNode
  rw [hid]
  cases name with
  | none => exact (failsWith_scalarText head.argument).bind_pure
  | some value =>
    rw [Option.toList_some, List.flatMap_singleton]
    refine ((failsWith_scalarText value).map some).bind fun source _ => ?_
    exact (failsWith_scalarText head.argument).bind_pure

/-- As long as there are numbers for the bricks, a tree is refused for the first of its defects. -/
theorem failsWith_place (link : Link) (hsize : nodes.size + link.bricks.length ≤ UInt32.size) :
    FailsWith (place link nodes) link.defects := by
  induction link generalizing nodes with
  | absent => exact .ok _
  | marker text =>
    rw [place, Link.defects]
    split_ifs
    · exact .ok _
    · exact .error _
  | brick name head right bottom ihr ihb =>
    rw [Link.length_bricks_brick] at hsize
    rw [place, Link.defects, ← List.append_assoc]
    refine (failsWith_bareNode (by omega) name head).bind fun node _ => ?_
    have hpush : (nodes.push node).size = nodes.size + 1 := Array.size_push node
    refine (ihr (by omega)).bind fun r hright => ?_
    have hafter : r.2.size = nodes.size + 1 + right.bricks.length := by
      rw [size_of_place hright (by omega), hpush]
    exact (ihb (by omega)).bind_pure

theorem failsWith_placeAll (trees : List Brick)
    (hsize : nodes.size + (trees.flatMap Brick.bricks).length ≤ UInt32.size) :
    FailsWith (placeAll trees nodes) (trees.flatMap Brick.defects) := by
  induction trees generalizing nodes with
  | nil => exact .ok _
  | cons tree trees ih =>
    rw [List.flatMap_cons, List.length_append, Brick.bricks] at hsize
    rw [placeAll, List.flatMap_cons]
    refine (failsWith_place tree.toLink (by omega)).bind fun r htree => ih ?_
    rw [size_of_place htree (by omega)]
    omega

/-- As long as there are numbers for the bricks, trees are refused for the first of their
defects. -/
theorem failsWith_ofBricks (trees : List Brick)
    (hsize : (trees.flatMap Brick.bricks).length ≤ UInt32.size) :
    FailsWith (ofBricks trees) (trees.flatMap Brick.defects) := by
  refine (failsWith_placeAll trees ?_).bind_pure
  simpa using hsize

end Program

end TileWalk
