import Mathlib.Data.List.ProdSigma
import Mathlib.Data.Nat.Find
import TileWalk.Proofs.Agent.Control
import TileWalk.Proofs.Board.Rows

/-!
# Stations that come back

What is executed from a station on depends on the station alone. So an itinerary that ends goes
through no station twice (`Station.nodup_stations`), for otherwise it would go round for ever. There
are only so many stations at which control is at a node, one for each cell that can be walked on,
each facing and each node, and this bounds how many nodes are executed before an end
(`Station.le_of_last`).
-/

namespace TileWalk

variable {p : Program} {g : Grid}

/-! ### Cells that can be walked on -/

namespace Grid

variable {pos : Pos}

/-- The positions of the cells that can be walked on, row by row. -/
def walkables (g : Grid) : List Pos :=
  (g.entries.filter fun e => e.2.isWalkable).map Prod.fst

theorem length_walkables (g : Grid) : g.walkables.length = g.cells.toList.countP Cell.isWalkable := by
  have hcells : g.entries.map Prod.snd = g.cells.toList := by
    unfold entries
    apply List.ext_getElem?
    intro n
    simp [Function.comp_def]
  rw [walkables, List.length_map, ← List.countP_eq_length_filter, ← hcells, List.countP_map]
  rfl

theorem mem_walkables (h : g.isWalkable pos = true) : pos ∈ g.walkables := by
  unfold isWalkable cell? at h
  obtain ⟨c, hc, hwalkable⟩ := (Option.any_eq_true _ _).mp h
  obtain ⟨n, hn, hcell⟩ := Option.bind_eq_some_iff.mp hc
  have hentry : (pos, c) ∈ g.entries := mem_entries.mpr ⟨n, hcell, posOf_of_offset? hn⟩
  exact List.mem_map.mpr ⟨(pos, c), List.mem_filter.mpr ⟨hentry, hwalkable⟩, rfl⟩

end Grid

namespace Station

variable {st : Station} {i j k n : Nat}

/-! ### No station twice -/

/-- What comes after a station depends on the station alone. -/
theorem after_add_of_eq (h : st.after p g i = st.after p g j) (l : Nat) :
    st.after p g (i + l) = st.after p g (j + l) := by
  rw [after_add, after_add, h]

/-- An itinerary that ends goes through no station twice. -/
theorem nodup_stations (hlast : (st.after p g k).dispatch? p g = none)
    (hnodes : ∀ j < n, (st.after p g j).dispatch? p g ≠ none) :
    ((List.range n).map (st.after p g)).Nodup := by
  classical
  have hexists : ∃ k, (st.after p g k).dispatch? p g = none := ⟨k, hlast⟩
  obtain ⟨first, hfirst, hleast⟩ : ∃ first, (st.after p g first).dispatch? p g = none ∧
      ∀ j < first, (st.after p g j).dispatch? p g ≠ none :=
    ⟨Nat.find hexists, Nat.find_spec hexists, fun j hj => Nat.find_min hexists hj⟩
  have hn : n ≤ first := by
    by_contra hlt
    exact hnodes first (by omega) hfirst
  rw [List.Nodup, List.pairwise_map]
  refine List.pairwise_lt_range.imp_of_mem ?_
  intro i j hi hj hij heq
  have hj : j < n := List.mem_range.mp hj
  -- from the second visit on the end is as far away as it was at the first one
  have hshift := after_add_of_eq heq (first - j)
  rw [Nat.add_sub_of_le (by omega)] at hshift
  have hsooner : (st.after p g (i + (first - j))).dispatch? p g = none := by
    rw [hshift]
    exact hfirst
  exact hleast _ (by omega) hsooner

/-! ### How many stations there are -/

/-- The stations of a grid and a program at which control is at a node. -/
def all (p : Program) (g : Grid) : List Station :=
  (g.walkables ×ˢ (Facing.all ×ˢ List.range p.size)).map fun x =>
    ⟨x.1, x.2.1, .resume (some (Ident.ofIndex x.2.2))⟩

theorem length_all (p : Program) (g : Grid) :
    (all p g).length = 4 * g.cells.toList.countP Cell.isWalkable * p.size := by
  have hfacings : Facing.all.length = 4 := rfl
  rw [all, List.length_map, List.length_product, List.length_product, List.length_range, hfacings,
    Grid.length_walkables, ← Nat.mul_assoc, Nat.mul_comm _ 4]

theorem IsOn.mem_all (h : st.IsOn p g) {id : NodeId} (hid : st.sequel = .resume (some id)) :
    st ∈ all p g := by
  have hfacing : st.facing ∈ Facing.all := by
    cases st.facing <;> decide
  have hnode : id.index ∈ List.range p.size := List.mem_range.mpr (h.cursor_lt id hid)
  have hplace : (st.pos, st.facing, id.index) ∈
      g.walkables ×ˢ (Facing.all ×ˢ List.range p.size) :=
    List.mem_product.mpr ⟨Grid.mem_walkables h.walkable, List.mem_product.mpr ⟨hfacing, hnode⟩⟩
  refine List.mem_map.mpr ⟨_, hplace, ?_⟩
  rw [Ident.ofIndex_index, ← hid]

/-- An itinerary that ends goes to no more nodes than there are stations. -/
theorem le_of_last (hp : p.IsClosed) (hst : st.IsOn p g)
    (hlast : (st.after p g k).dispatch? p g = none)
    (hnodes : ∀ j < n, ∃ id, (st.after p g j).sequel = .resume (some id)) :
    n ≤ 4 * g.cells.toList.countP Cell.isWalkable * p.size := by
  have hexecutes : ∀ j < n, (st.after p g j).dispatch? p g ≠ none := by
    intro j hj hnone
    obtain ⟨id, hid⟩ := hnodes j hj
    obtain ⟨reason, hreason⟩ := dispatch?_eq_none_iff.mp hnone
    rw [hid] at hreason
    cases hreason
  have hsubset : (List.range n).map (st.after p g) ⊆ all p g := by
    intro other hother
    obtain ⟨j, hj, rfl⟩ := List.mem_map.mp hother
    obtain ⟨id, hid⟩ := hnodes j (List.mem_range.mp hj)
    exact (hst.after hp j).mem_all hid
  have hlength := (List.Nodup.subperm (nodup_stations hlast hexecutes) hsubset).length_le
  rw [List.length_map, List.length_range, length_all] at hlength
  exact hlength

/-- Control is at a node wherever more than one node is still executed. -/
theorem exists_resume_of_succ (hj : (st.after p g (j + 1)).dispatch? p g ≠ none) :
    ∃ id, (st.after p g j).sequel = .resume (some id) := by
  cases hx : (st.after p g j).dispatch? p g with
  | none => exact absurd (dispatch?_after_of_le hx (Nat.le_succ j)) hj
  | some x =>
    have hnext : st.after p g (j + 1) = x.station := by
      rw [after_add, after_succ_of_some hx]
      rfl
    obtain ⟨cursor, hsequel, hcursor⟩ := dispatch?_eq_some_iff.mp hx
    cases hnode : cursor with
    | some id => exact ⟨id, hnode ▸ hsequel⟩
    | none =>
      have hnowhere : x.isNowhere = true := by
        rw [Dispatch.isNowhere_iff, hcursor, hnode]
      rw [hnext] at hj
      exact absurd (of_isNowhere hx hnowhere).1 hj

end Station

end TileWalk
