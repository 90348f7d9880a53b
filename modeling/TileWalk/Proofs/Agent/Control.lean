import Mathlib.Data.List.Perm.Subperm
import TileWalk.Proofs.Agent.Itinerary

/-!
# Control along an itinerary

On an itinerary control goes from node to node along the edges of the program
(`Station.pairwise_itinerary`), and it is nowhere only when the last node is executed
(`Station.countP_nowhere_le`). If the program is acyclic no node is executed twice
(`Station.nodup_cursors`), so an itinerary has at most one entry more than there are nodes
(`Station.length_itinerary_le`).
-/

namespace TileWalk

variable {p : Program} {g : Grid}

/-! ### Places of control -/

/-- Control is at a node, and comes from there to another place of control. -/
def Program.Precedes (p : Program) (c d : Option NodeId) : Prop :=
  ∃ i, c = some i ∧ ∀ j, d = some j → Relation.TransGen p.Leads i j

theorem Program.Precedes.trans {c d e : Option NodeId} (h : p.Precedes c d)
    (h' : p.Precedes d e) : p.Precedes c e := by
  obtain ⟨i, hi, hij⟩ := h
  obtain ⟨j, hj, hjk⟩ := h'
  refine ⟨i, hi, ?_⟩
  intro k hk
  exact (hij j hj).trans (hjk k hk)

/-- In an acyclic program control comes to another place each time. -/
theorem Program.Precedes.ne (hp : p.IsAcyclic) {c d : Option NodeId} (h : p.Precedes c d) :
    c ≠ d := by
  intro heq
  obtain ⟨i, hi, hij⟩ := h
  have hloop : Relation.TransGen p.Leads i i := hij i (heq ▸ hi)
  exact hp i hloop

namespace Dispatch

/-- Control is at no node when the dispatch is made. -/
def isNowhere (x : Dispatch) : Bool :=
  x.cursor.isNone

theorem isNowhere_iff {x : Dispatch} : x.isNowhere = true ↔ x.cursor = none := by
  simp [isNowhere]

end Dispatch

namespace Station

variable {st : Station} {x y : Dispatch} {k : Nat}

theorem dispatch?_eq_some_iff : st.dispatch? p g = some x ↔ ∃ cursor, st.sequel = .resume cursor ∧
    x = ⟨cursor, st.pos, st.facing, g.openings st.pos st.facing,
      p.decide cursor st.facing (g.openings st.pos st.facing)⟩ := by
  unfold dispatch?
  cases hsequel : st.sequel with
  | resume cursor =>
    constructor
    · intro hx
      exact ⟨cursor, rfl, (Option.some.inj hx).symm⟩
    · intro hx
      obtain ⟨cursor', hcursor, rfl⟩ := hx
      obtain rfl := Sequel.resume.inj hcursor
      rfl
  | finish reason => simp

theorem dispatch?_eq_none_iff : st.dispatch? p g = none ↔ ∃ reason, st.sequel = .finish reason := by
  unfold dispatch?
  cases hsequel : st.sequel with
  | resume cursor => simp
  | finish reason => simp

/-- Where a node is executed, it decides with what is seen there. -/
theorem decision_eq_of_dispatch? (hx : st.dispatch? p g = some x) :
    x.decision = p.decide x.cursor x.facing x.openings := by
  obtain ⟨cursor, -, rfl⟩ := dispatch?_eq_some_iff.mp hx
  rfl

/-- Nothing is executed after control was nowhere, and the agent does not move. -/
theorem of_isNowhere (hx : st.dispatch? p g = some x) (hnowhere : x.isNowhere = true) :
    x.station.dispatch? p g = none ∧ x.isMove = false := by
  have hdecision := decision_eq_of_dispatch? hx
  rw [Dispatch.isNowhere_iff.mp hnowhere] at hdecision
  constructor
  · rw [dispatch?_eq_none_iff]
    refine ⟨.endOfProgram, ?_⟩
    unfold Dispatch.station
    rw [hdecision]
    rfl
  · unfold Dispatch.isMove
    rw [hdecision]
    rfl

/-- From one node to the next control goes along an edge. -/
theorem precedes_of_dispatch? (hx : st.dispatch? p g = some x)
    (hy : x.station.dispatch? p g = some y) : p.Precedes x.cursor y.cursor := by
  obtain ⟨cursor, hsequel, rfl⟩ := dispatch?_eq_some_iff.mp hy
  have hdecides : (p.decide x.cursor x.facing x.openings).sequel = .resume cursor := by
    rw [← decision_eq_of_dispatch? hx]
    exact hsequel
  cases hcursor : x.cursor with
  | none =>
    have hnone := (of_isNowhere hx (Dispatch.isNowhere_iff.mpr hcursor)).1
    rw [hnone] at hy
    cases hy
  | some i =>
    refine ⟨i, rfl, ?_⟩
    intro j hj
    have hj : cursor = some j := hj
    rw [hj] at hdecides
    obtain ⟨i', hi', hedge⟩ := Program.leads_of_decide hdecides
    obtain rfl := Option.some.inj (hcursor.symm.trans hi')
    exact .single hedge

theorem precedes_of_mem_itinerary (hx : st.dispatch? p g = some x)
    (hy : y ∈ x.station.itinerary p g k) : p.Precedes x.cursor y.cursor := by
  induction k generalizing st x with
  | zero => exact absurd hy List.not_mem_nil
  | succ k ih =>
    cases hnext : x.station.dispatch? p g with
    | none =>
      rw [itinerary_of_none hnext] at hy
      exact absurd hy List.not_mem_nil
    | some z =>
      have hstep := precedes_of_dispatch? hx hnext
      rw [itinerary_succ_of_some hnext, List.mem_cons] at hy
      cases hy with
      | inl heq => rwa [heq]
      | inr hlater => exact hstep.trans (ih hnext hlater)

/-- On an itinerary control goes along the edges of the program. -/
theorem pairwise_itinerary (p : Program) (g : Grid) (st : Station) (k : Nat) :
    (st.itinerary p g k).Pairwise fun x y => p.Precedes x.cursor y.cursor := by
  induction k generalizing st with
  | zero => exact .nil
  | succ k ih =>
    cases hx : st.dispatch? p g with
    | none =>
      rw [itinerary_of_none hx]
      exact .nil
    | some x =>
      rw [itinerary_succ_of_some hx, List.pairwise_cons]
      refine ⟨?_, ih x.station⟩
      intro y hy
      exact precedes_of_mem_itinerary hx hy

/-- Control is nowhere at most once. -/
theorem countP_nowhere_le (p : Program) (g : Grid) (st : Station) (k : Nat) :
    (st.itinerary p g k).countP Dispatch.isNowhere ≤ 1 := by
  have hpairwise := pairwise_itinerary p g st k
  generalize st.itinerary p g k = l at hpairwise
  induction hpairwise with
  | nil => simp
  | @cons x l hx _ ih =>
    rw [List.countP_cons]
    by_cases hnowhere : x.isNowhere = true
    · -- what comes later would have to be reached from nowhere
      have hlast : l = [] := by
        apply List.eq_nil_iff_forall_not_mem.mpr
        intro y hy
        obtain ⟨i, hi, -⟩ := hx y hy
        rw [Dispatch.isNowhere_iff.mp hnowhere] at hi
        cases hi
      simp [hlast, hnowhere]
    · simp only [hnowhere, Bool.false_eq_true, if_false]
      omega

/-! ### Stations of a program and a grid -/

/-- The station can be walked on, and control goes to a node from there. -/
structure IsOn (p : Program) (g : Grid) (st : Station) : Prop where
  walkable : g.isWalkable st.pos = true
  cursor_lt : ∀ id, st.sequel = .resume (some id) → id.index < p.size

theorem IsOn.station (hp : p.IsClosed) (h : st.IsOn p g) (hx : st.dispatch? p g = some x) :
    x.station.IsOn p g := by
  have hdecision := decision_eq_of_dispatch? hx
  obtain ⟨cursor, -, rfl⟩ := dispatch?_eq_some_iff.mp hx
  constructor
  · unfold Dispatch.station
    dsimp only
    split_ifs with hmove
    · -- only an open front begins a move
      unfold Dispatch.isMove at hmove
      dsimp only at hmove
      split at hmove
      · next v hact =>
        have hfront := (Program.decide_move hact).2
        exact hfront
      · cases hmove
    · exact h.walkable
  · intro id hid
    exact hp.decide_lt hid

theorem IsOn.after (hp : p.IsClosed) (h : st.IsOn p g) (k : Nat) : (st.after p g k).IsOn p g := by
  induction k generalizing st with
  | zero => exact h
  | succ k ih =>
    cases hx : st.dispatch? p g with
    | none =>
      rw [after_of_none hx]
      exact h
    | some x =>
      rw [after_succ_of_some hx]
      exact ih (h.station hp hx)

/-- Every node on an itinerary is executed at a station. -/
theorem exists_after_of_mem_itinerary (hx : x ∈ st.itinerary p g k) :
    ∃ j < k, (st.after p g j).dispatch? p g = some x := by
  obtain ⟨j, hj⟩ := List.mem_iff_getElem?.mp hx
  by_cases hlt : j < k
  · rw [getElem?_itinerary hlt] at hj
    exact ⟨j, hlt, hj⟩
  · have hlength : (st.itinerary p g k).length ≤ k := by
      rw [← take_itinerary (Nat.le_refl k), List.length_take]
      exact Nat.min_le_left _ _
    rw [List.getElem?_eq_none (by omega)] at hj
    cases hj

theorem IsOn.index_lt_of_mem (hp : p.IsClosed) (h : st.IsOn p g) (hx : x ∈ st.itinerary p g k)
    {id : NodeId} (hid : x.cursor = some id) : id.index < p.size := by
  obtain ⟨j, -, hj⟩ := exists_after_of_mem_itinerary hx
  obtain ⟨cursor, hsequel, rfl⟩ := dispatch?_eq_some_iff.mp hj
  have hcursor : cursor = some id := hid
  rw [hcursor] at hsequel
  exact (h.after hp j).cursor_lt id hsequel

/-! ### Acyclic programs -/

/-- An acyclic program executes no node twice. -/
theorem nodup_cursors (hp : p.IsAcyclic) (st : Station) (k : Nat) :
    ((st.itinerary p g k).map Dispatch.cursor).Nodup := by
  have hpairwise := pairwise_itinerary p g st k
  rw [List.Nodup, List.pairwise_map]
  apply hpairwise.imp
  intro x y hxy
  exact hxy.ne hp

/-- As many nodes are executed as there are, at most. -/
theorem countP_somewhere_le (hp : p.IsClosed) (hacyclic : p.IsAcyclic) (h : st.IsOn p g)
    (k : Nat) : (st.itinerary p g k).countP (fun x => !x.isNowhere) ≤ p.size := by
  have hnodup : (((st.itinerary p g k).filter fun x => !x.isNowhere).map Dispatch.cursor).Nodup :=
    (nodup_cursors hacyclic st k).sublist (List.filter_sublist.map _)
  have hsubset : ((st.itinerary p g k).filter fun x => !x.isNowhere).map Dispatch.cursor ⊆
      (List.range p.size).map fun n => some (Ident.ofIndex n) := by
    intro cursor hcursor
    obtain ⟨x, hx, rfl⟩ := List.mem_map.mp hcursor
    obtain ⟨hmem, hsome⟩ := List.mem_filter.mp hx
    have hsome : x.cursor.isSome = true := by simpa [Dispatch.isNowhere] using hsome
    obtain ⟨id, hid⟩ := Option.isSome_iff_exists.mp hsome
    have hlt := h.index_lt_of_mem hp hmem hid
    rw [hid, List.mem_map]
    exact ⟨id.index, List.mem_range.mpr hlt, by rw [Ident.ofIndex_index]⟩
  have hlength := (List.Nodup.subperm hnodup hsubset).length_le
  simpa [List.countP_eq_length_filter] using hlength

/-- At most one entry more than there are nodes. -/
theorem length_itinerary_le (hp : p.IsClosed) (hacyclic : p.IsAcyclic) (h : st.IsOn p g)
    (k : Nat) : (st.itinerary p g k).length ≤ p.size + 1 := by
  have hsomewhere := countP_somewhere_le hp hacyclic h k
  have hnowhere := countP_nowhere_le p g st k
  have hlength := List.length_eq_countP_add_countP Dispatch.isNowhere (l := st.itinerary p g k)
  simp only [Bool.not_eq_true, Bool.decide_eq_false] at hlength
  omega

/-- As many moves as there are nodes, at most. -/
theorem moves_le_size (hp : p.IsClosed) (hacyclic : p.IsAcyclic) (h : st.IsOn p g) (k : Nat) :
    st.moves p g k ≤ p.size := by
  have hsomewhere := countP_somewhere_le hp hacyclic h k
  have hmoves : st.moves p g k ≤ (st.itinerary p g k).countP fun x => !x.isNowhere := by
    apply List.countP_mono_left
    intro x hx hmove
    obtain ⟨j, -, hj⟩ := exists_after_of_mem_itinerary hx
    by_contra hnowhere
    have hstays := (of_isNowhere hj (by simpa using hnowhere)).2
    rw [hmove] at hstays
    cases hstays
  omega

/-- If an itinerary has one entry more than there are nodes, nothing is left to be executed. -/
theorem dispatch?_after_size (hp : p.IsClosed) (hacyclic : p.IsAcyclic) (h : st.IsOn p g) :
    (st.after p g (p.size + 1)).dispatch? p g = none := by
  by_contra hsome
  have hentry : (st.itinerary p g (p.size + 2))[p.size + 1]? ≠ none := by
    rw [getElem?_itinerary (by omega)]
    exact hsome
  have hlength := length_itinerary_le hp hacyclic h (p.size + 2)
  exact hentry (List.getElem?_eq_none hlength)

end Station

/-- An agent stands at a station of its program and its grid. -/
theorem Agent.Sound.isOn {a : Agent} {st : Station} (hs : a.Sound p g) (h : a.Heads st 0) :
    st.IsOn p g := by
  obtain ⟨hpos, -, hfollows⟩ := h
  constructor
  · rw [← hpos]
    exact hs.walkable
  · intro id hid
    rw [hid] at hfollows
    exact hs.cursor_lt id hfollows.2

end TileWalk
