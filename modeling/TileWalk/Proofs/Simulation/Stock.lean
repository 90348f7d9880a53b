import TileWalk.Proofs.Outcome
import TileWalk.Simulation.World

/-!
# Items and their count

A stock is counted if its counter says how many items are visible. Collecting on a cell hides the
visible items there and takes as many from the counter, so a counted stock stays counted
(`Stock.IsCounted.collectAt`) and nothing is ever taken from an empty counter
(`Stock.IsCounted.exists_collectAll`). After collecting on several cells those items are visible
that were and lie elsewhere (`Stock.items_collectAll`).
-/

namespace TileWalk

open Outcome

/-- The item after agents have come to some cells. -/
def Item.after (seen : List Pos) (i : Item) : Item :=
  { i with visible := i.visible && !seen.contains i.pos }

namespace Item

@[simp]
theorem after_id (seen : List Pos) (i : Item) : (i.after seen).id = i.id :=
  rfl

@[simp]
theorem after_pos (seen : List Pos) (i : Item) : (i.after seen).pos = i.pos :=
  rfl

theorem visible_after {seen : List Pos} {i : Item} :
    (i.after seen).visible = true ↔ i.visible = true ∧ i.pos ∉ seen := by
  simp [after]

theorem visible_after_eq_false {seen : List Pos} {i : Item} :
    (i.after seen).visible = false ↔ i.visible = false ∨ i.pos ∈ seen := by
  rw [← Bool.not_eq_true, visible_after, not_and_or, not_not, Bool.not_eq_true]

theorem map_after_nil (items : List Item) : items.map (after []) = items := by
  have hsame : ∀ i ∈ items, i.after [] = i := fun i _ => by simp [after]
  rw [List.map_congr_left hsame, List.map_id']

/-- Only which cells agents have come to matters, and not in which order. -/
theorem map_after_congr {seen seen' : List Pos} (h : ∀ pos, pos ∈ seen ↔ pos ∈ seen')
    (items : List Item) : items.map (after seen) = items.map (after seen') := by
  refine List.map_congr_left fun i _ => ?_
  simp [after, h]

theorem map_after_after (seen seen' : List Pos) (items : List Item) :
    (items.map (after seen)).map (after seen') = items.map (after (seen ++ seen')) := by
  rw [List.map_map]
  refine List.map_congr_left fun i _ => ?_
  simp [after, Bool.and_assoc]

end Item

namespace Stock

variable {s t : Stock} {pos : Pos} {ids : List ItemId} {cells : List Pos}

/-- The counter says how many items are visible. -/
def IsCounted (s : Stock) : Prop :=
  s.remaining = s.items.countP Item.visible

/-! ### One cell -/

theorem liesAt_iff {i : Item} : liesAt pos i = true ↔ i.visible = true ∧ i.pos = pos := by
  simp [liesAt]

theorem hide_eq_after (pos : Pos) (i : Item) :
    (if liesAt pos i then { i with visible := false } else i) = i.after [pos] := by
  by_cases h : liesAt pos i = true
  · rw [if_pos h]
    obtain ⟨-, rfl⟩ := liesAt_iff.mp h
    simp [Item.after]
  · rw [if_neg h]
    have hvisible : (i.visible && !([pos] : List Pos).contains i.pos) = i.visible := by
      rw [liesAt_iff] at h
      cases hi : i.visible with
      | false => rfl
      | true =>
        have hne : i.pos ≠ pos := fun he => h ⟨hi, he⟩
        simp [hne]
    unfold Item.after
    rw [hvisible]

theorem collectAt_eq_ok_iff : s.collectAt pos = .ok (ids, t) ↔
    ids = (s.items.filter (liesAt pos)).map Item.id ∧ t.items = s.items.map (Item.after [pos]) ∧
      t.remaining + ids.length = s.remaining := by
  have hmap : (s.items.map fun i => if liesAt pos i then { i with visible := false } else i) =
      s.items.map (Item.after [pos]) := List.map_congr_left fun i _ => hide_eq_after pos i
  unfold collectAt
  dsimp only
  rw [hmap, bind_eq_ok_iff]
  constructor
  · rintro ⟨remaining, hremaining, hpure⟩
    obtain ⟨rfl, rfl⟩ := Prod.mk.inj (pure_eq_ok_iff.mp hpure)
    exact ⟨rfl, rfl, Checked.subSize_eq_ok_iff.mp hremaining⟩
  · rintro ⟨rfl, hitems, hremaining⟩
    refine ⟨t.remaining, Checked.subSize_eq_ok_iff.mpr hremaining, ?_⟩
    rw [← hitems]
    rfl

/-- The visible items are those that stay visible and those that are collected. -/
theorem countP_after_add (items : List Item) (pos : Pos) :
    (items.map (Item.after [pos])).countP Item.visible + (items.filter (liesAt pos)).length =
      items.countP Item.visible := by
  induction items with
  | nil => rfl
  | cons i items ih =>
    rw [List.map_cons, List.countP_cons, List.countP_cons, List.filter_cons]
    -- an item is collected here, or was visible elsewhere, or was not visible
    by_cases hvisible : i.visible = true
    · by_cases hpos : i.pos = pos
      · rw [if_neg (fun h => (Item.visible_after.mp h).2 (hpos ▸ List.mem_singleton_self _)),
          if_pos (liesAt_iff.mpr ⟨hvisible, hpos⟩), if_pos hvisible, List.length_cons]
        omega
      · rw [if_pos (Item.visible_after.mpr ⟨hvisible, fun h => hpos (List.mem_singleton.mp h)⟩),
          if_neg (fun h => hpos (liesAt_iff.mp h).2), if_pos hvisible]
        omega
    · rw [if_neg (fun h => hvisible (Item.visible_after.mp h).1),
        if_neg (fun h => hvisible (liesAt_iff.mp h).1), if_neg hvisible]
      omega

theorem IsCounted.exists_collectAt (h : s.IsCounted) (pos : Pos) :
    ∃ ids t, s.collectAt pos = .ok (ids, t) := by
  have hsum := countP_after_add s.items pos
  refine ⟨_, ⟨_, (s.items.map (Item.after [pos])).countP Item.visible⟩,
    collectAt_eq_ok_iff.mpr ⟨rfl, rfl, ?_⟩⟩
  rw [List.length_map, h]
  exact hsum

theorem IsCounted.collectAt (h : s.IsCounted) (hc : s.collectAt pos = .ok (ids, t)) :
    t.IsCounted := by
  obtain ⟨rfl, hitems, hremaining⟩ := collectAt_eq_ok_iff.mp hc
  have hsum := countP_after_add s.items pos
  rw [List.length_map, h] at hremaining
  unfold IsCounted
  rw [hitems]
  omega

/-! ### Several cells -/

theorem collectAll_cons_eq_ok_iff : s.collectAll (pos :: cells) = .ok t ↔
    ∃ ids u, s.collectAt pos = .ok (ids, u) ∧ u.collectAll cells = .ok t := by
  rw [collectAll, bind_eq_ok_iff]
  constructor
  · rintro ⟨⟨ids, u⟩, hu, ht⟩
    exact ⟨ids, u, hu, ht⟩
  · rintro ⟨ids, u, hu, ht⟩
    exact ⟨(ids, u), hu, ht⟩

theorem items_collectAll (h : s.collectAll cells = .ok t) :
    t.items = s.items.map (Item.after cells) := by
  induction cells generalizing s with
  | nil =>
    obtain rfl := Except.ok.inj h
    rw [Item.map_after_nil]
  | cons pos cells ih =>
    obtain ⟨ids, u, hu, ht⟩ := collectAll_cons_eq_ok_iff.mp h
    obtain ⟨-, hitems, -⟩ := collectAt_eq_ok_iff.mp hu
    rw [ih ht, hitems, Item.map_after_after]
    rfl

theorem IsCounted.collectAll (h : s.IsCounted) (hc : s.collectAll cells = .ok t) :
    t.IsCounted := by
  induction cells generalizing s with
  | nil =>
    obtain rfl := Except.ok.inj hc
    exact h
  | cons pos cells ih =>
    obtain ⟨ids, u, hu, ht⟩ := collectAll_cons_eq_ok_iff.mp hc
    exact ih (h.collectAt hu) ht

/-- Nothing is taken from an empty counter. -/
theorem IsCounted.exists_collectAll (h : s.IsCounted) (cells : List Pos) :
    ∃ t, s.collectAll cells = .ok t := by
  induction cells generalizing s with
  | nil => exact ⟨s, rfl⟩
  | cons pos cells ih =>
    obtain ⟨ids, u, hu⟩ := h.exists_collectAt pos
    obtain ⟨t, ht⟩ := ih (h.collectAt hu)
    exact ⟨t, collectAll_cons_eq_ok_iff.mpr ⟨ids, u, hu, ht⟩⟩

/-! ### The items of a board -/

theorem items_ofBoard (b : Board) :
    (ofBoard b).items = b.items.mapIdx fun n pos => ⟨Ident.ofIndex n, pos, true⟩ :=
  rfl

theorem visible_of_mem_ofBoard {b : Board} {i : Item} (hi : i ∈ (ofBoard b).items) :
    i.visible = true := by
  obtain ⟨n, hn, rfl⟩ := List.mem_mapIdx.mp hi
  rfl

/-- Of the items of a board, those on the cells to which agents have come are hidden. -/
theorem visible_eq_false_iff {b : Board} {i : Item}
    (hi : i ∈ (ofBoard b).items.map (Item.after cells)) : i.visible = false ↔ i.pos ∈ cells := by
  obtain ⟨fresh, hfresh, rfl⟩ := List.mem_map.mp hi
  have hvisible := visible_of_mem_ofBoard hfresh
  rw [Item.visible_after_eq_false, Item.after_pos]
  exact or_iff_right (by simp [hvisible])

theorem isCounted_ofBoard (b : Board) : (ofBoard b).IsCounted := by
  unfold IsCounted
  rw [List.countP_eq_length.mpr fun i hi => visible_of_mem_ofBoard hi, items_ofBoard,
    List.length_mapIdx]
  rfl

end Stock

end TileWalk
