import Mathlib.Data.List.Sort
import TileWalk.Proofs.Program.Edges
import TileWalk.Proofs.Program.Journey
import TileWalk.Proofs.Program.Usable

/-!
# Redrawing a program

The trees that draw a program can be drawn again from its nodes. Every node but the tops of the
trees is the target of one link, and the tops are the targets of none (`perm_targets_nodesFrom`), so
the tops can be told from the links alone (`Program.tops`). Following the links from a top gives
back its tree (`Program.HasAt.draw_eq`), with nothing lost but how absent links and texts were
spelled (`Link.plain`). Hence no two programs have the same nodes (`Program.preorder_of_ofBricks`).
-/

namespace TileWalk

open Outcome

/-! ### Targets -/

/-- The nodes to which links of a node lead. -/
def Node.targets (n : Node) : List NodeId :=
  n.right.toList ++ n.bottom.toList

/-- The places of the tops of trees that stand one after the other from place `n` on. -/
def topPlaces (n : Nat) : List Brick → List Nat
  | [] => []
  | tree :: trees => n :: topPlaces (n + tree.bricks.length) trees

theorem perm_append_exchange {α : Type} (a b c d : List α) :
    (a ++ b ++ (c ++ d)).Perm (a ++ c ++ (b ++ d)) := by
  rw [List.append_assoc, List.append_assoc, ← List.append_assoc b, ← List.append_assoc c]
  exact .append_left _ (.append_right _ List.perm_append_comm)

/-- Everything that hangs here is the target of one link, be it the link that leads here. -/
theorem Link.perm_targets_nodesFrom (l : Link) (n : Nat) :
    ((l.idAt n).toList ++ (nodesFrom n l.bricks).flatMap Node.targets).Perm
      ((List.range' n l.bricks.length).map Ident.ofIndex) := by
  induction l generalizing n with
  | absent => exact .refl _
  | marker text => exact .refl _
  | brick name head right bottom ihr ihb =>
    rw [length_bricks_brick, List.range'_succ, List.map_cons, ← List.range'_append_1,
      List.map_append, bricks, nodesFrom_cons, nodesFrom_append, List.flatMap_cons,
      List.flatMap_append]
    refine .cons _ (.trans ?_ ((ihr (n + 1)).append (ihb (n + 1 + right.bricks.length))))
    -- the two links of the brick stand in front, and each belongs to the targets on its side
    exact perm_append_exchange _ _ _ _

/-- Everything that trees draw is the target of one link, but for the tops. -/
theorem perm_targets_nodesFrom (trees : List Brick) (n : Nat) :
    ((topPlaces n trees).map Ident.ofIndex ++
      (nodesFrom n (trees.flatMap Brick.bricks)).flatMap Node.targets).Perm
      ((List.range' n (trees.flatMap Brick.bricks).length).map Ident.ofIndex) := by
  induction trees generalizing n with
  | nil => exact .refl _
  | cons tree trees ih =>
    rw [List.flatMap_cons, List.length_append, ← List.range'_append_1, List.map_append,
      nodesFrom_append, List.flatMap_append, topPlaces, List.map_cons]
    refine .trans ?_ ((tree.toLink.perm_targets_nodesFrom n).append (ih (n + tree.bricks.length)))
    exact perm_append_exchange [Ident.ofIndex n] _ _ _

theorem le_of_mem_topPlaces {trees : List Brick} {n i : Nat} (h : i ∈ topPlaces n trees) :
    n ≤ i ∧ i < n + (trees.flatMap Brick.bricks).length := by
  induction trees generalizing n with
  | nil => cases h
  | cons tree trees ih =>
    have hne : 0 < tree.bricks.length := tree.toLink.bricks_ne_nil rfl
    rw [List.flatMap_cons, List.length_append]
    cases h with
    | head => omega
    | tail _ h =>
      have := ih h
      omega

theorem pairwise_topPlaces (trees : List Brick) (n : Nat) :
    (topPlaces n trees).Pairwise (· < ·) := by
  induction trees generalizing n with
  | nil => exact .nil
  | cons tree trees ih =>
    have hne : 0 < tree.bricks.length := tree.toLink.bricks_ne_nil rfl
    refine .cons (fun i hi => ?_) (ih _)
    have := le_of_mem_topPlaces hi
    omega

/-- At the places of the tops the walk through the trees comes to the tops. -/
theorem map_getElem?_topPlaces {trees : List Brick} {walk : List Brick} {n : Nat}
    (h : ∀ i b, (trees.flatMap Brick.bricks)[i]? = some b → walk[n + i]? = some b) :
    (topPlaces n trees).map (walk[·]?) = trees.map some := by
  induction trees generalizing n with
  | nil => rfl
  | cons tree trees ih =>
    rw [topPlaces, List.map_cons, List.map_cons]
    congr 1
    · exact h 0 tree rfl
    · apply ih
      intro i b hb
      rw [Nat.add_assoc]
      apply h
      rw [List.flatMap_cons, List.getElem?_append_right (Nat.le_add_right _ _),
        Nat.add_sub_cancel_left]
      exact hb

/-! ### Drawing the trees again -/

/-- A name or an argument as a text; `null`, and an argument that is missing, is the empty one. -/
def Program.plainText (value : Json.Value) : Json.Value :=
  .string ((scalarText value).toOption.getD "")

/-- The same tree, with every absent link left out, and with every name and every argument written
as a text. -/
def Link.plain : Link → Link
  | .absent => .absent
  | .marker _ => .absent
  | .brick name head right bottom =>
    .brick (name.map Program.plainText) { head with argument := Program.plainText head.argument }
      right.plain bottom.plain

/-- The brick of a node, with what hangs on it. -/
def Node.drawn (n : Node) (right bottom : Link) : Link :=
  .brick (n.sourceId.map .string) ⟨n.kind.tag, n.command.tag, .string n.argument⟩ right bottom

namespace Program

/-- What hangs on a link to a node: the brick of the node, and behind it what hangs on the links of
the node, no deeper than `depth` bricks. -/
def draw (p : Program) : (depth : Nat) → Option NodeId → Link
  | 0, _ => .absent
  | depth + 1, link =>
    match link.bind p.node? with
    | some n => n.drawn (p.draw depth n.right) (p.draw depth n.bottom)
    | none => .absent

/-- The targets of all links. -/
def targets (p : Program) : List NodeId :=
  p.nodes.toList.flatMap Node.targets

/-- The nodes to which no link leads, in the order of their numbers. -/
def tops (p : Program) : List NodeId :=
  (p.nodes.toList.map Node.id).filter fun id => id ∉ p.targets

/-- The trees that hang on the nodes to which no link leads. -/
def trees (p : Program) : List Link :=
  p.tops.map fun id => p.draw p.size (some id)

variable {trees : List Brick} {p : Program} {l : Link} {n depth : Nat}

theorem draw_none (p : Program) (depth : Nat) : p.draw depth none = .absent := by
  cases depth with
  | zero => rfl
  | succ depth => rfl

/-- The brick of the node of a brick is the brick itself, as far as a node can tell. -/
theorem drawn_nodeAt {b : Brick} (h : b.IsUsable) (n : Nat) (right bottom : Link) :
    (b.nodeAt n).drawn right bottom =
      .brick (b.name.map plainText) { b.head with argument := plainText b.head.argument } right
        bottom := by
  have hname : (b.nodeAt n).sourceId.map .string = b.name.map plainText := by
    unfold Brick.nodeAt
    dsimp only
    cases hb : b.name with
    | none => rfl
    | some value =>
      obtain ⟨text, htext⟩ := h.name value hb
      rw [Option.bind_some, Option.map_some, plainText, htext]
      rfl
  unfold Node.drawn
  rw [hname]
  show Link.brick _ ⟨(Kind.ofTag b.head.kind).tag, (Command.ofTag b.head.command).tag, _⟩ _ _ = _
  rw [Kind.tag_ofTag, Command.tag_ofTag]
  rfl

/-- Following the links from the top of a tree gives back the tree. -/
theorem HasAt.draw_eq (h : p.HasAt n l) (husable : ∀ b ∈ l.bricks, b.IsUsable)
    (hdepth : l.bricks.length ≤ depth) : p.draw depth (l.idAt n) = l.plain := by
  induction l generalizing n depth with
  | absent => exact p.draw_none depth
  | marker text => exact p.draw_none depth
  | brick name head right bottom ihr ihb =>
    rw [Link.length_bricks_brick] at hdepth
    obtain ⟨depth, rfl⟩ := Nat.exists_eq_add_one_of_ne_zero (by omega : depth ≠ 0)
    have hnode : ((Link.brick name head right bottom).idAt n).bind p.node? =
        some (Brick.nodeAt n ⟨name, head, right, bottom⟩) := h 0 _ rfl
    obtain ⟨hright, hbottom⟩ := h.of_brick
    have hr := ihr hright (fun b hb => husable b (by simp [Link.bricks, hb]))
      (by omega : right.bricks.length ≤ depth)
    have hb := ihb hbottom (fun b hb => husable b (by simp [Link.bricks, hb]))
      (by omega : bottom.bricks.length ≤ depth)
    rw [draw, hnode]
    dsimp only
    rw [drawn_nodeAt (husable _ List.mem_cons_self)]
    show Link.brick _ _ (p.draw depth (right.idAt (n + 1))) (p.draw depth (bottom.idAt _)) = _
    rw [hr, hb]
    rfl

/-! ### Telling the tops from the links -/

/-- Numbers for places that rise are in order. -/
theorem pairwise_map_ofIndex {places : List Nat} (hrise : places.Pairwise (· < ·))
    (hlt : ∀ i ∈ places, i < UInt32.size) :
    (places.map (Ident.ofIndex (r := .node))).Pairwise (·.index < ·.index) := by
  rw [List.pairwise_map]
  refine hrise.imp_of_mem fun hi hj hij => ?_
  rw [Ident.index_ofIndex (hlt _ hi), Ident.index_ofIndex (hlt _ hj)]
  exact hij

/-- Everything but the tops is the target of one link, and the tops are the targets of none. -/
theorem tops_of_ofBricks (hp : ofBricks trees = .ok p) :
    p.targets.Nodup ∧ p.tops = (topPlaces 0 trees).map Ident.ofIndex := by
  obtain ⟨hlist, -, hsize⟩ := ofBricks_eq_ok hp
  rw [size_of_ofBricks hp] at hsize
  have hids : p.nodes.toList.map Node.id =
      (List.range' 0 (trees.flatMap Brick.bricks).length).map Ident.ofIndex := by
    rw [hlist, map_id_nodesFrom]
  have hperm := perm_targets_nodesFrom trees 0
  rw [← hlist, ← hids] at hperm
  have hsorted : (p.nodes.toList.map Node.id).Pairwise (·.index < ·.index) := by
    rw [hids]
    refine pairwise_map_ofIndex List.pairwise_lt_range' fun i hi => ?_
    have := List.mem_range'_1.mp hi
    omega
  have htops : ((topPlaces 0 trees).map Ident.ofIndex).Pairwise
      fun i j : NodeId => i.index < j.index := by
    refine pairwise_map_ofIndex (pairwise_topPlaces trees 0) fun i hi => ?_
    have := le_of_mem_topPlaces hi
    omega
  have hnodup : (p.nodes.toList.map Node.id).Nodup :=
    hsorted.imp fun hlt heq => absurd (congrArg Ident.index heq) (Nat.ne_of_lt hlt)
  obtain ⟨-, htargets, hdisjoint⟩ := List.nodup_append.mp (hperm.nodup_iff.mpr hnodup)
  refine ⟨htargets, ?_⟩
  -- what is left of all numbers without the targets are the tops, and both lists are in order
  have hleft := hperm.filter fun id => id ∉ p.targets
  have hkeep : ((topPlaces 0 trees).map Ident.ofIndex).filter (fun id => id ∉ p.targets) =
      (topPlaces 0 trees).map Ident.ofIndex := by
    refine List.filter_eq_self.mpr fun id hid => decide_eq_true fun hmem => ?_
    exact hdisjoint id hid id hmem rfl
  have hdrop : (p.nodes.toList.flatMap Node.targets).filter (fun id => id ∉ p.targets) = [] := by
    refine List.filter_eq_nil_iff.mpr fun id hid => ?_
    exact fun hnot => of_decide_eq_true hnot hid
  rw [List.filter_append, hkeep, hdrop, List.append_nil] at hleft
  refine hleft.symm.eq_of_pairwise (fun i j _ _ hij hji => ?_) (hsorted.filter _) htops
  exact absurd hij (Nat.lt_asymm hji)

/-- Following the links from the node of a brick gives back everything that hangs on the brick. -/
theorem draw_top {b : Brick} (hp : ofBricks trees = .ok p)
    (hb : (trees.flatMap Brick.bricks)[n]? = some b) :
    p.draw p.size (some (Ident.ofIndex n)) = b.toLink.plain := by
  refine (Brick.hasAt_of_getElem? hp hb).draw_eq (fun c hc => ?_) ?_
  · obtain ⟨i, hi⟩ := List.mem_iff_getElem?.mp hc
    exact isUsable_of_ofBricks hp c
      (List.mem_of_getElem? (Brick.getElem?_flatMap_bricks_add hb hi))
  · have hspan := Brick.le_length_flatMap_bricks trees hb
    rw [size_of_ofBricks hp, Brick.toLink, Link.length_bricks_brick]
    omega

/-- The trees that hang on the tops are the trees that drew the program. -/
theorem trees_of_ofBricks (hp : ofBricks trees = .ok p) :
    p.trees = trees.map fun tree => tree.toLink.plain := by
  have hplaces : (topPlaces 0 trees).map ((trees.flatMap Brick.bricks)[·]?) = trees.map some :=
    map_getElem?_topPlaces fun i b hb => by rwa [Nat.zero_add]
  have hdraw : ∀ i ∈ topPlaces 0 trees, some (p.draw p.size (some (Ident.ofIndex i))) =
      (trees.flatMap Brick.bricks)[i]?.map fun b => b.toLink.plain := by
    intro i hi
    have hlt : i < (trees.flatMap Brick.bricks).length := by
      have := le_of_mem_topPlaces hi
      omega
    have hb := List.getElem?_eq_getElem hlt
    rw [hb, Option.map_some]
    exact congrArg some (draw_top hp hb)
  apply List.map_injective_iff.mpr (Option.some_injective Link)
  calc p.trees.map some
      = (topPlaces 0 trees).map fun i => some (p.draw p.size (some (Ident.ofIndex i))) := by
        rw [Program.trees, (tops_of_ofBricks hp).2, List.map_map, List.map_map]
        rfl
    _ = ((topPlaces 0 trees).map ((trees.flatMap Brick.bricks)[·]?)).map
          (Option.map fun b => b.toLink.plain) := by
        rw [List.map_map]
        exact List.map_congr_left hdraw
    _ = (trees.map fun b => b.toLink.plain).map some := by
        rw [hplaces, List.map_map, List.map_map]
        rfl

/-! ### Programs and their trees -/

/-- A node stands for the brick at place `i` of the pre-order. -/
structure StandsFor (n : Node) (i : Nat) (b : Brick) : Prop where
  index : n.id.index = i
  kind : n.kind.tag = b.head.kind
  command : n.command.tag = b.head.command
  argument : scalarText b.head.argument = .ok n.argument
  sourceId : b.name.map scalarText = n.sourceId.map .ok
  right : n.right.map Ident.index = if b.right.isBrick then some (i + 1) else none
  bottom : n.bottom.map Ident.index =
    if b.bottom.isBrick then some (i + 1 + b.right.bricks.length) else none
  /-- Where no brick hangs, nothing does. -/
  usable : ∀ l ∈ [b.right, b.bottom], l.isBrick = false → l = .absent ∨ l = .marker "Nil"

theorem map_index_idAt (h : n + l.bricks.length ≤ UInt32.size) :
    (l.idAt n).map Ident.index = if l.isBrick then some n else none := by
  unfold Link.idAt
  split_ifs with hbrick
  · have hne := l.bricks_ne_nil hbrick
    rw [Option.map_some, Ident.index_ofIndex (by omega)]
  · rfl

theorem standsFor_of_ofBricks {i : Nat} {b : Brick} (hp : ofBricks trees = .ok p)
    (hb : (trees.flatMap Brick.bricks)[i]? = some b) :
    ∃ node, p.nodes[i]? = some node ∧ StandsFor node i b := by
  obtain ⟨hlist, -, hsize⟩ := ofBricks_eq_ok hp
  have hspan := Brick.le_length_flatMap_bricks trees hb
  rw [← size_of_ofBricks hp] at hspan
  obtain ⟨hname, ⟨text, htext⟩, hright, hbottom⟩ :=
    isUsable_of_ofBricks hp b (List.mem_of_getElem? hb)
  refine ⟨b.nodeAt i, ?_, ?_⟩
  · rw [← Array.getElem?_toList, hlist, getElem?_nodesFrom, hb, Option.map_some, Nat.zero_add]
  · constructor
    case index => exact Ident.index_ofIndex (by omega)
    case kind => exact Kind.tag_ofTag b.head.kind
    case command => exact Command.tag_ofTag b.head.command
    case argument =>
      show _ = Except.ok b.argumentText
      rw [Brick.argumentText, htext]
      rfl
    case sourceId =>
      show _ = (b.name.bind _).map _
      cases hvalue : b.name with
      | none => rfl
      | some value =>
        obtain ⟨source, hsource⟩ := hname value hvalue
        rw [Option.map_some, Option.bind_some, hsource]
        rfl
    case right => exact map_index_idAt (by omega)
    case bottom => exact map_index_idAt (by omega)
    case usable =>
      intro l hl habsent
      have husable : l.IsUsable := by
        obtain rfl | rfl : l = b.right ∨ l = b.bottom := by simpa using hl
        · exact hright
        · exact hbottom
      exact husable.eq_of_isBrick_eq_false habsent

/-- Two trees: a branch with a brick on either side of it, and a brick for itself. -/
def branchAndBrick : List Brick :=
  [⟨some (.string "b1"), ⟨"CaseBrick", "CommandIfL", .null⟩,
      .brick none ⟨"BasicBrick", "CommandMove", .null⟩ (.marker "Nil") .absent,
      .brick none ⟨"Mystery", "CommandFly", .string "7"⟩ .absent (.marker "Nil")⟩,
    ⟨none, ⟨"EntryBrick", "CommandNOP", .null⟩, .absent, .marker "Nil"⟩]

end Program

end TileWalk
