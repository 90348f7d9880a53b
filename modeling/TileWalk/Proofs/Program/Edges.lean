import Mathlib.Logic.Relation
import TileWalk.Agent.Decide
import TileWalk.Proofs.Program.Closed

/-!
# Where control can go

Control leaves a node along one of its links or by a call (`Program.Leads`): whatever a node
decides, it does not lead anywhere else (`Program.leads_of_decide`), and in a closed program it
leads to a node (`Program.IsClosed.lt_of_leads`).

A program is acyclic if control cannot come back to a node that it has left. The links of a program
that was loaded lead forward only (`Program.lt_index_of_ofBricks`), so it is acyclic if it calls
nothing (`Program.isAcyclic_of_ofPayload`).
-/

namespace TileWalk.Program

variable {p : Program} {i j : NodeId} {n : Node} {cursor : Option NodeId} {f : Facing}
  {o : Openings}

/-! ### Edges -/

/-- Control can go from one node to another. -/
inductive Leads (p : Program) (i j : NodeId) : Prop
  | right {n : Node} (hn : p.node? i = some n) (hj : n.right = some j)
  | bottom {n : Node} (hn : p.node? i = some n) (hj : n.bottom = some j)
  | call {n : Node} {function : Nat} (hn : p.node? i = some n) (hkind : n.kind = .tail)
      (hcall : n.callTarget? = some function) (hj : p.functionEntry? function = some j)

theorem link_of_sequel (h : n.sequel = .resume (some j)) : n.right = some j ∨ n.bottom = some j := by
  unfold Node.sequel Node.successor at h
  cases hr : n.right with
  | none =>
    cases hb : n.bottom with
    | none =>
      rw [hr, hb] at h
      cases h
    | some bottom =>
      rw [hr, hb] at h
      cases h
      exact Or.inr rfl
  | some right =>
    cases hb : n.bottom with
    | none =>
      rw [hr, hb] at h
      cases h
      exact Or.inl rfl
    | some bottom =>
      rw [hr, hb] at h
      cases h

/-- Whatever a node decides, control goes along an edge. -/
theorem leads_of_decide (h : (p.decide cursor f o).sequel = .resume (some j)) :
    ∃ i, cursor = some i ∧ p.Leads i j := by
  unfold Program.decide at h
  split at h
  · next n hbind =>
    obtain ⟨i, hcursor, hn⟩ := Option.bind_eq_some_iff.mp hbind
    have hlink : n.right = some j ∨ n.bottom = some j → p.Leads i j := by
      intro hj
      cases hj with
      | inl hright => exact .right hn hright
      | inr hbottom => exact .bottom hn hbottom
    refine ⟨i, hcursor, ?_⟩
    unfold Node.decide at h
    split at h
    · exact hlink (link_of_sequel h)
    · split at h
      · exact hlink (link_of_sequel h)
      · cases h
    · split at h
      · next side _ =>
        have hbranch : n.branch (o.get side) = some j := Sequel.resume.inj h
        unfold Node.branch at hbranch
        split_ifs at hbranch with htaken
        · exact hlink (Or.inl hbranch)
        · exact hlink (Or.inr hbranch)
      · cases h
    · next hkind =>
      split at h
      · next function hcall =>
        have hentry : p.functionEntry? function = some j := Sequel.resume.inj h
        exact .call hn hkind hcall hentry
      · cases h
    · cases h
  · cases h

/-- An edge of a closed program leads to a node. -/
theorem IsClosed.lt_of_leads (hp : p.IsClosed) (h : p.Leads i j) : j.index < p.size := by
  cases h with
  | right hn hj =>
    have hlinks := hp.linked _ _ hn
    exact hlinks.2.1 j hj
  | bottom hn hj =>
    have hlinks := hp.linked _ _ hn
    exact hlinks.2.2 j hj
  | call hn hkind hcall hj => exact hp.functionEntry?_lt hj

/-! ### Acyclic programs -/

/-- Control that has left a node cannot come back to it. -/
def IsAcyclic (p : Program) : Prop :=
  ∀ i, ¬ Relation.TransGen p.Leads i i

theorem isAcyclic_of_forward (h : ∀ i j, p.Leads i j → i.index < j.index) : p.IsAcyclic := by
  have hpath : ∀ i j, Relation.TransGen p.Leads i j → i.index < j.index := by
    intro i j hij
    induction hij with
    | single hedge => exact h _ _ hedge
    | tail _ hedge ih =>
      have hlast := h _ _ hedge
      omega
  intro i hi
  have hlt := hpath i i hi
  omega

/-- A program is acyclic if its links lead forward and it calls nothing. -/
theorem isAcyclic_of_links (h : ∀ (k : Nat) (n : Node), p.nodes[k]? = some n →
    n.kind ≠ .tail ∧ ∀ j, n.right = some j ∨ n.bottom = some j → k < j.index) : p.IsAcyclic := by
  apply isAcyclic_of_forward
  intro i j hij
  cases hij with
  | right hn hj => exact (h i.index _ hn).2 j (Or.inl hj)
  | bottom hn hj => exact (h i.index _ hn).2 j (Or.inr hj)
  | call hn hkind => exact absurd hkind (h i.index _ hn).1

/-- The links of a program that trees draw lead forward, for whatever hangs on a brick stands behind
it. -/
theorem lt_index_of_ofBricks {trees : List Brick} (hp : ofBricks trees = .ok p) {k : Nat}
    (hn : p.nodes[k]? = some n) (hj : n.right = some j ∨ n.bottom = some j) : k < j.index := by
  obtain ⟨hlist, -, hsize⟩ := ofBricks_eq_ok hp
  have hlength := size_of_ofBricks hp
  rw [← Array.getElem?_toList, hlist, getElem?_nodesFrom, Nat.zero_add] at hn
  obtain ⟨b, hb, rfl⟩ := Option.map_eq_some_iff.mp hn
  have hspan := Brick.le_length_flatMap_bricks trees hb
  -- what hangs at a place behind the brick is numbered by that place
  have hbehind : ∀ (l : Link) (place : Nat), l.idAt place = some j →
      k < place → place + l.bricks.length ≤ p.size → k < j.index := by
    intro l place hid hplace hle
    unfold Link.idAt at hid
    split_ifs at hid with hbrick
    have hne := l.bricks_ne_nil hbrick
    obtain rfl := Option.some.inj hid
    rw [Ident.index_ofIndex (by omega)]
    exact hplace
  cases hj with
  | inl hright => exact hbehind b.right _ hright (by omega) (by omega)
  | inr hbottom => exact hbehind b.bottom _ hbottom (by omega) (by omega)

/-- A program that was loaded and calls nothing is acyclic. -/
theorem isAcyclic_of_ofPayload {payload : Json.Payload} (hp : ofPayload payload = .ok p)
    (hcalls : ∀ n ∈ p.nodes.toList, n.kind ≠ .tail) : p.IsAcyclic := by
  obtain ⟨trees, htrees⟩ := exists_ofBricks_of_ofPayload hp
  apply isAcyclic_of_links
  intro k n hn
  constructor
  · rw [← Array.getElem?_toList] at hn
    exact hcalls n (List.mem_of_getElem? hn)
  · intro j hj
    exact lt_index_of_ofBricks htrees hn hj

end TileWalk.Program
