import TileWalk.Program.Load
import TileWalk.Proofs.Program.Layout

/-!
# Usable bricks

A brick is usable if its name and its argument have texts and if every text that stands for a link
is `Nil`. Trees that are accepted are made of usable bricks (`Program.isUsable_of_ofBricks`).

What an object says about a side of a brick is a matter of the one member with the name of that
side, wherever it stands: it describes what hangs there, and nothing hangs there if there is no such
member (`Link.described?_of_ofValue?_object`).
-/

namespace TileWalk

open Outcome

/-! ### What is accepted -/

namespace Link

/-- Nothing hangs here, or a brick does. -/
def IsUsable : Link → Prop
  | .absent => True
  | .marker text => text = nil
  | .brick _ _ _ _ => True

theorem IsUsable.eq_of_isBrick_eq_false {l : Link} (h : l.IsUsable) (hl : l.isBrick = false) :
    l = .absent ∨ l = .marker nil := by
  cases l with
  | absent => exact Or.inl rfl
  | marker text => exact Or.inr (congrArg marker h)
  | brick name head right bottom => cases hl

end Link

/-- The name and the argument of a brick have texts, and both links are usable. -/
structure Brick.IsUsable (b : Brick) : Prop where
  name : ∀ value, b.name = some value → ∃ text, Program.scalarText value = .ok text
  argument : ∃ text, Program.scalarText b.head.argument = .ok text
  right : b.right.IsUsable
  bottom : b.bottom.IsUsable

namespace Program

variable {n : Nat} {name : Option Json.Value} {head : Head} {node : Node} {link : Link}
  {nodes placed : Array Node} {top : Option NodeId} {trees : List Brick} {p : Program}

theorem exists_scalarText_of_bareNode (h : bareNode n name head = .ok node) :
    (∀ value, name = some value → ∃ text, scalarText value = .ok text) ∧
      ∃ text, scalarText head.argument = .ok text := by
  have hid : Ident.ofIndex? n = some (Ident.ofIndex n : NodeId) :=
    if_pos (bareNode_eq_ok h .absent .absent).1
  unfold bareNode at h
  rw [hid] at h
  obtain ⟨id, -, h⟩ := bind_eq_ok_iff.mp h
  cases name with
  | none =>
    obtain ⟨source, -, h⟩ := bind_eq_ok_iff.mp h
    obtain ⟨argument, hargument, -⟩ := bind_eq_ok_iff.mp h
    exact ⟨fun value hvalue => (nomatch hvalue), argument, hargument⟩
  | some value =>
    obtain ⟨source, hsource, h⟩ := bind_eq_ok_iff.mp h
    obtain ⟨text, htext, -⟩ := map_eq_ok_iff.mp hsource
    obtain ⟨argument, hargument, -⟩ := bind_eq_ok_iff.mp h
    exact ⟨fun v hv => ⟨text, Option.some.inj hv ▸ htext⟩, argument, hargument⟩

/-- Whatever is placed is usable. -/
theorem isUsable_of_place (h : place link nodes = .ok (top, placed)) :
    link.IsUsable ∧ ∀ b ∈ link.bricks, b.IsUsable := by
  induction link generalizing nodes top placed with
  | absent => exact ⟨trivial, fun b hb => absurd hb List.not_mem_nil⟩
  | marker text =>
    rw [place] at h
    split_ifs at h with htext
    exact ⟨htext, fun b hb => absurd hb List.not_mem_nil⟩
  | brick name head right bottom ihr ihb =>
    obtain ⟨node, right?, afterRight, bottom?, afterBottom, hnode, hright, hbottom, -, -⟩ :=
      place_brick_eq_ok h
    obtain ⟨hname, hargument⟩ := exists_scalarText_of_bareNode hnode
    obtain ⟨hrlink, hrbricks⟩ := ihr hright
    obtain ⟨hblink, hbbricks⟩ := ihb hbottom
    refine ⟨trivial, fun b hb => ?_⟩
    rw [Link.bricks, List.mem_cons, List.mem_append] at hb
    obtain rfl | hb | hb := hb
    · exact ⟨hname, hargument, hrlink, hblink⟩
    · exact hrbricks b hb
    · exact hbbricks b hb

theorem isUsable_of_placeAll (h : placeAll trees nodes = .ok placed) :
    ∀ b ∈ trees.flatMap Brick.bricks, b.IsUsable := by
  induction trees generalizing nodes with
  | nil => exact fun b hb => absurd hb List.not_mem_nil
  | cons tree trees ih =>
    rw [placeAll] at h
    obtain ⟨⟨top, after⟩, htree, hrest⟩ := bind_eq_ok_iff.mp h
    intro b hb
    rw [List.flatMap_cons, List.mem_append] at hb
    cases hb with
    | inl hb => exact (isUsable_of_place htree).2 b hb
    | inr hb => exact ih hrest b hb

theorem isUsable_of_ofBricks (h : ofBricks trees = .ok p) :
    ∀ b ∈ trees.flatMap Brick.bricks, b.IsUsable := by
  unfold ofBricks at h
  obtain ⟨nodes, hnodes, -⟩ := bind_eq_ok_iff.mp h
  exact isUsable_of_placeAll hnodes

end Program

/-! ### Links in documents -/

/-- A side of a brick for which no link was read has nothing on it. -/
theorem BrickDraft.links_of_complete {d : BrickDraft} {b : Brick} (h : d.complete = some b) :
    b.right = d.right.getD .absent ∧ b.bottom = d.bottom.getD .absent := by
  unfold complete at h
  obtain ⟨head, -, hb⟩ := Option.bind_eq_some_iff.mp h
  obtain rfl := Option.some.inj hb
  exact ⟨rfl, rfl⟩

namespace Link

/-- What an object says about one side of a brick: nothing hangs there, unless it has a member that
describes what does. -/
def described? (members : List (String × Json.Value)) (side : String) : Option Link :=
  match members.lookup side with
  | some v => ofValue? v
  | none => some .absent

/-- What one more member of an object does to a side: it is the first member of its name and
describes a link, or it is about something else. -/
inductive Reads (side name : String) (v : Json.Value) : (before after : Option Link) → Prop
  | here {link : Link} (hname : name = side) (hlink : ofValue? v = some link) :
    Reads side name v none (some link)
  | elsewhere (hname : name ≠ side) (before : Option Link) : Reads side name v before before

/-- What the members of an object do to a side. -/
def ReadsAll (side : String) (members : List (String × Json.Value)) (before after : Option Link) :
    Prop :=
  match members.lookup side with
  | some v => before = none ∧ ∃ link, ofValue? v = some link ∧ after = some link
  | none => after = before

variable {members : List (String × Json.Value)} {side name : String} {v : Json.Value}
  {d finished : BrickDraft} {before between after : Option Link}

theorem Reads.cons (h : Reads side name v before between)
    (hrest : ReadsAll side members between after) :
    ReadsAll side ((name, v) :: members) before after := by
  unfold ReadsAll at hrest ⊢
  cases h with
  | here hname hlink =>
    subst hname
    rw [List.lookup_cons_self]
    refine ⟨rfl, _, hlink, ?_⟩
    split at hrest
    · cases hrest.1
    · exact hrest
  | elsewhere hname =>
    rw [List.lookup_cons, beq_false_of_ne hname.symm]
    exact hrest

/-- One more member of an object is about the links of its name and about no other ones. -/
theorem ofMembers?_cons_eq_some (h : ofMembers? ((name, v) :: members) d = some finished) :
    ∃ next, ofMembers? members next = some finished ∧ Reads "right" name v d.right next.right ∧
      Reads "bottom" name v d.bottom next.bottom := by
  rw [ofMembers?] at h
  split_ifs at h with hid hset hnode hset hright hset hbottom hset
  · subst hid
    exact ⟨_, h, .elsewhere (by decide) _, .elsewhere (by decide) _⟩
  · subst hnode
    obtain ⟨head, -, h⟩ := Option.bind_eq_some_iff.mp h
    exact ⟨_, h, .elsewhere (by decide) _, .elsewhere (by decide) _⟩
  · subst hright
    obtain ⟨link, hlink, h⟩ := Option.bind_eq_some_iff.mp h
    rw [Option.not_isSome_iff_eq_none.mp hset]
    exact ⟨_, h, .here rfl hlink, .elsewhere (by decide) _⟩
  · subst hbottom
    obtain ⟨link, hlink, h⟩ := Option.bind_eq_some_iff.mp h
    rw [Option.not_isSome_iff_eq_none.mp hset]
    exact ⟨_, h, .elsewhere (by decide) _, .here rfl hlink⟩
  · exact ⟨_, h, .elsewhere hright _, .elsewhere hbottom _⟩

theorem readsAll_of_ofMembers? (h : ofMembers? members d = some finished) :
    ReadsAll "right" members d.right finished.right ∧
      ReadsAll "bottom" members d.bottom finished.bottom := by
  induction members generalizing d with
  | nil =>
    obtain rfl := Option.some.inj h
    exact ⟨rfl, rfl⟩
  | cons member members ih =>
    obtain ⟨next, hnext, hright, hbottom⟩ := ofMembers?_cons_eq_some h
    exact ⟨hright.cons (ih hnext).1, hbottom.cons (ih hnext).2⟩

theorem ReadsAll.described?_eq (h : ReadsAll side members none after) :
    described? members side = some (after.getD .absent) := by
  unfold ReadsAll at h
  unfold described?
  split at h
  · obtain ⟨-, link, hlink, rfl⟩ := h
    exact hlink
  · rw [h]
    rfl

/-- What hangs on a brick that an object describes. -/
theorem described?_of_ofValue?_object {head : Head} {right bottom : Link} {name : Option Json.Value}
    (h : ofValue? (.object members) = some (.brick name head right bottom)) :
    described? members "right" = some right ∧ described? members "bottom" = some bottom := by
  rw [ofValue?] at h
  obtain ⟨d, hd, h⟩ := Option.bind_eq_some_iff.mp h
  obtain ⟨b, hb, h⟩ := Option.bind_eq_some_iff.mp h
  obtain ⟨hright, hbottom⟩ := readsAll_of_ofMembers? hd
  obtain ⟨hsideRight, hsideBottom⟩ := BrickDraft.links_of_complete hb
  cases h
  rw [hsideRight, hsideBottom]
  exact ⟨hright.described?_eq, hbottom.described?_eq⟩

end Link

end TileWalk
