import TileWalk.Proofs.Simulation.Sound

/-!
# Items are conserved

An item is hidden when an agent starts on its cell or comes to it, and by nothing else. What a
record has kept since its world was made determines which items are visible and what observers were
told of them (`Record.Tallied`), and every small step keeps it so (`Record.Attained.tallied`). Hence
no item is lost and none is counted twice (`Simulation.Reachable.items_conserved`): the items under
starting places, the items that were reported and the items that are left are all items of the
board.
-/

namespace TileWalk

open Outcome Event

/-! ### The items of a new world -/

namespace Stock

variable (b : Board)

theorem map_pos_ofBoard : (ofBoard b).items.map Item.pos = b.items := by
  refine List.ext_getElem? fun n => ?_
  rw [List.getElem?_map, items_ofBoard, List.getElem?_mapIdx]
  cases b.items[n]? <;> rfl

theorem map_id_ofBoard :
    (ofBoard b).items.map Item.id = (List.range b.items.length).map Ident.ofIndex := by
  refine List.ext_getElem? fun n => ?_
  rw [List.getElem?_map, items_ofBoard, List.getElem?_mapIdx, List.getElem?_map]
  by_cases hn : n < b.items.length
  · rw [List.getElem?_eq_getElem hn, List.getElem?_range hn]
    rfl
  · rw [List.getElem?_eq_none (Nat.not_lt.mp hn),
      List.getElem?_eq_none (List.length_range ▸ Nat.not_lt.mp hn)]
    rfl

end Stock

/-- The items of a world that has just been made: those under starting places are hidden. -/
def Board.freshItems (b : Board) : List Item :=
  (Stock.ofBoard b).items.map (Item.after (b.spawns.map Spawn.pos))

namespace Board

variable {b : Board}

theorem getElem?_freshItems {n : Nat} {i : Item} (h : b.freshItems[n]? = some i) :
    b.items[n]? = some i.pos ∧ i.id = Ident.ofIndex n ∧
      i.visible = !(b.spawns.map Spawn.pos).contains i.pos := by
  unfold freshItems at h
  rw [List.getElem?_map, Stock.items_ofBoard, List.getElem?_mapIdx, Option.map_map] at h
  obtain ⟨pos, hpos, rfl⟩ := Option.map_eq_some_iff.mp h
  exact ⟨hpos, rfl, rfl⟩

theorem nodup_map_id_freshItems (hb : b.IsProper) : (b.freshItems.map Item.id).Nodup := by
  have hids : b.freshItems.map Item.id = (List.range b.items.length).map Ident.ofIndex := by
    rw [← Stock.map_id_ofBoard, freshItems, List.map_map]
    rfl
  rw [hids, List.nodup_map_iff_inj_on List.nodup_range]
  intro m hm n hn hmn
  have hlt : ∀ n ∈ List.range b.items.length, n < UInt32.size := fun n hn =>
    Nat.lt_trans (List.mem_range.mp hn) hb.length_items_lt
  have hindex := congrArg Ident.index hmn
  rw [Ident.index_ofIndex (hlt m hm), Ident.index_ofIndex (hlt n hn)] at hindex
  exact hindex

/-- The items of a board are those under starting places and those that are visible at first. -/
theorem countP_freshItems_add (b : Board) : b.freshItems.countP Item.visible +
    b.items.countP (b.spawns.map Spawn.pos).contains = b.items.length := by
  have hvisible : b.freshItems.countP Item.visible =
      b.items.countP fun pos => !(b.spawns.map Spawn.pos).contains pos := by
    rw [← Stock.map_pos_ofBoard, List.countP_map, freshItems, List.countP_map]
    refine List.countP_congr fun i hi => ?_
    obtain ⟨n, hn, rfl⟩ := List.mem_mapIdx.mp hi
    rfl
  rw [hvisible, List.length_eq_countP_add_countP (b.spawns.map Spawn.pos).contains, Nat.add_comm]
  simp only [Bool.not_eq_true, Bool.decide_eq_false]

end Board

/-! ### Arrivals in order -/

/-- An arrival comes before another: earlier, or in the same tick and by an agent with a lower
number. -/
def Landing.IsBefore (l m : Landing) : Prop :=
  l.tick.count.toNat < m.tick.count.toNat ∨ l.tick = m.tick ∧ l.agent.index < m.agent.index

/-- The first arrival that is found on a cell comes before all others there. -/
theorem Landing.isBefore_of_find? {landings : List Landing}
    (hordered : landings.Pairwise Landing.IsBefore) {f : Landing → Bool} {l m : Landing}
    (hl : landings.find? f = some l) (hm : m ∈ landings) (hf : f m = true) :
    m = l ∨ l.IsBefore m := by
  obtain ⟨-, before, after, rfl, hnone⟩ := List.find?_eq_some_iff_append.mp hl
  rcases List.mem_append.mp hm with hbefore | hafter
  · have := hnone m hbefore
    rw [hf] at this
    cases this
  · rcases List.mem_cons.mp hafter with rfl | hlater
    · exact Or.inl rfl
    · have htail := (List.pairwise_append.mp hordered).2.1
      exact Or.inr ((List.pairwise_cons.mp htail).1 m hlater)

namespace Simulation

variable {s : Simulation}

theorem of_landing?_eq_some {g : Grid} {now : Tick} {a : Agent} {l : Landing}
    (h : a.landing? g now = some l) : l.tick = now ∧ l.agent = a.id := by
  unfold Agent.landing? at h
  split at h
  · obtain rfl := Option.some.inj h
    exact ⟨rfl, rfl⟩
  · cases h

theorem tick_eq_of_mem_landings {l : Landing} (h : l ∈ s.landings) : l.tick = s.clock := by
  obtain ⟨a, -, ha⟩ := List.mem_filterMap.mp h
  exact (of_landing?_eq_some ha).1

/-- The arrivals of one tick are in the order of the agents. -/
theorem Sound.pairwise_landings (hs : s.Sound) : s.landings.Pairwise Landing.IsBefore := by
  unfold landings
  rw [List.pairwise_filterMap]
  refine hs.pairwise_agents.imp fun {a b} hab l hl m hm => ?_
  obtain ⟨hltick, hlagent⟩ := of_landing?_eq_some hl
  obtain ⟨hmtick, hmagent⟩ := of_landing?_eq_some hm
  rw [← hlagent, ← hmagent] at hab
  exact Or.inr ⟨hltick.trans hmtick.symm, hab⟩

end Simulation

/-! ### What a record says of the items -/

namespace Record

variable {r t : Record} {s : Simulation}

/-- The arrivals that a record has kept determine the visible items and what was told of them. -/
structure Tallied (r : Record) : Prop where
  items_eq : r.sim.world.stock.items =
    r.sim.board.freshItems.map (Item.after (r.landings.map Landing.pos))
  collections_eq : r.events.filter isCollection =
    collections r.sim.board.freshItems r.landings
  ordered : r.landings.Pairwise Landing.IsBefore
  past : ∀ l ∈ r.landings, l.tick.count.toNat < r.sim.clock.count.toNat

namespace Tallied

theorem new {w : World} (hw : World.ofBoard s.board = .ok w) (hs : s.world.stock = w.stock) :
    (Record.new s).Tallied := by
  refine ⟨?_, rfl, List.Pairwise.nil, fun l hl => absurd hl List.not_mem_nil⟩
  show s.world.stock.items = s.board.freshItems.map (Item.after [])
  rw [Item.map_after_nil, hs]
  exact Stock.items_collectAll (World.ofBoard_eq_ok_iff.mp hw).2

theorem step (h : r.Tallied) (hs : r.sim.Sound) (ht : r.step = .ok t) : t.Tallied := by
  obtain ⟨count, u, c, hu, rfl⟩ := step_eq_ok_iff.mp ht
  have hcollections := Simulation.filter_isCollection_of_step hu
  have hitems := Simulation.items_of_step hu
  obtain ⟨moved, stock, c₁, agents, c₂, clock, -, -, hclock, rfl, -⟩ :=
    Simulation.step_eq_ok_iff.mp hu
  have hnext := Tick.next_eq_ok_iff.mp hclock
  refine ⟨hitems.trans ?_, ?_, ?_, ?_⟩
  · rw [h.items_eq, Item.map_after_after, ← List.map_append]
  · show (r.events ++ c.events).filter isCollection = collections r.sim.board.freshItems _
    rw [List.filter_append, h.collections_eq, hcollections, collections_append, h.items_eq]
  -- every arrival that was kept is older than those of this tick
  · rw [List.pairwise_append]
    refine ⟨h.ordered, hs.pairwise_landings, fun l hl m hm => Or.inl ?_⟩
    rw [Simulation.tick_eq_of_mem_landings hm]
    exact h.past l hl
  · intro l hl
    show l.tick.count.toNat < clock.count.toNat
    rw [hnext]
    rcases List.mem_append.mp hl with hold | hnew
    · have := h.past l hold
      omega
    · rw [Simulation.tick_eq_of_mem_landings hnew]
      omega

/-- Events that are no collections change nothing. -/
theorem append_events (h : r.Tallied) {events : List Event}
    (hevents : events.filter isCollection = []) :
    Tallied { r with events := r.events ++ events } := by
  refine ⟨h.items_eq, ?_, h.ordered, h.past⟩
  show (r.events ++ events).filter isCollection = _
  rw [List.filter_append, hevents, List.append_nil]
  exact h.collections_eq

end Tallied

/-- Every small step keeps the tally. -/
theorem Attained.tallied (h : r.Attained) : r.Tallied := by
  induction h with
  | build hboard hcells hprogram hbuild =>
    obtain ⟨-, w, hw, rfl⟩ := Simulation.exists_build_iff.mp ⟨_, hbuild⟩
    exact .new hw rfl
  | start hr hs ih =>
    obtain ⟨w, hw, rfl⟩ := Simulation.exists_start_iff.mp ⟨_, hs⟩
    exact .new hw rfl
  | reset hr hs ih =>
    obtain ⟨w, hw, rfl⟩ := Simulation.exists_reset_iff.mp ⟨_, hs⟩
    exact .new hw rfl
  | load hr hprogram hs ih =>
    obtain ⟨w, hw, rfl⟩ := Simulation.exists_load_iff.mp ⟨_, hs⟩
    exact .new hw rfl
  | exchange hr queue hqueue ih => exact ⟨ih.items_eq, ih.collections_eq, ih.ordered, ih.past⟩
  | configure hr config ih => exact ⟨ih.items_eq, ih.collections_eq, ih.ordered, ih.past⟩
  | step hr ht ih => exact ih.step hr.sound ht
  | @settle r hr ih =>
    have h := ih.append_events r.sim.filter_isCollection_pendingEvents
    exact ⟨h.items_eq, h.collections_eq, h.ordered, h.past⟩
  | endRun hr ih => exact ih.append_events rfl

/-! ### Conservation -/

/-- No item is lost, and none is counted twice. -/
structure Conserved (r : Record) : Prop where
  /-- The counter says how many items are visible. -/
  remaining_eq : r.sim.world.remainingItems = r.sim.world.stock.items.countP Item.visible
  /-- The items are those of the board. -/
  items : r.sim.world.stock.items.map Item.pos = r.sim.board.items
  ids : ∀ (n : Nat) (i : Item), r.sim.world.stock.items[n]? = some i → i.id.index = n
  /-- An item is hidden if an agent started on its cell or has come to it. -/
  hidden_iff : ∀ i ∈ r.sim.world.stock.items, i.visible = false ↔
    (∃ s ∈ r.sim.board.spawns, s.pos = i.pos) ∨ ∃ l ∈ r.landings, l.pos = i.pos
  /-- An item that was hidden by an arrival was reported once, with the first arrival. -/
  reported : ∀ i ∈ r.sim.world.stock.items, (∀ s ∈ r.sim.board.spawns, s.pos ≠ i.pos) →
    i.visible = false → ∃ l ∈ r.landings, l.pos = i.pos ∧
      r.events.filter (collects i.id) = [.itemCollected l.tick l.agent i.id] ∧
      ∀ m ∈ r.landings, m.pos = i.pos → m = l ∨ l.IsBefore m
  /-- No other item was reported. -/
  unreported : ∀ i ∈ r.sim.world.stock.items,
    (∃ s ∈ r.sim.board.spawns, s.pos = i.pos) ∨ i.visible = true →
      r.events.filter (collects i.id) = []
  /-- Reported items, items under starting places and visible items are all items. -/
  sum_eq : (r.events.filter isCollection).length +
      r.sim.board.items.countP (r.sim.board.spawns.map Spawn.pos).contains +
      r.sim.world.remainingItems = r.sim.board.items.length
  /-- Whatever cells agents come to next, nothing is taken from an empty counter. -/
  collectAll : ∀ cells, ∃ stock, r.sim.world.stock.collectAll cells = .ok stock

namespace Tallied

variable {i : Item}

/-- An item is an item of the new world after the arrivals. -/
theorem exists_fresh (h : r.Tallied) {n : Nat} (hi : r.sim.world.stock.items[n]? = some i) :
    ∃ fresh, r.sim.board.freshItems[n]? = some fresh ∧
      i = fresh.after (r.landings.map Landing.pos) := by
  rw [h.items_eq, List.getElem?_map] at hi
  obtain ⟨fresh, hfresh, rfl⟩ := Option.map_eq_some_iff.mp hi
  exact ⟨fresh, hfresh, rfl⟩

theorem exists_fresh_of_mem (h : r.Tallied) (hi : i ∈ r.sim.world.stock.items) :
    ∃ fresh ∈ r.sim.board.freshItems, i = fresh.after (r.landings.map Landing.pos) ∧
      (fresh.visible = false ↔ ∃ s ∈ r.sim.board.spawns, s.pos = i.pos) := by
  obtain ⟨n, hn⟩ := List.mem_iff_getElem?.mp hi
  obtain ⟨fresh, hfresh, rfl⟩ := h.exists_fresh hn
  refine ⟨fresh, List.mem_of_getElem? hfresh, rfl, ?_⟩
  rw [(Board.getElem?_freshItems hfresh).2.2]
  simp

theorem filter_collects (h : r.Tallied) (hs : r.sim.Sound) {fresh : Item}
    (hfresh : fresh ∈ r.sim.board.freshItems) : r.events.filter (collects fresh.id) =
      if fresh.visible then
        ((r.landings.find? fun l => l.pos = fresh.pos).map fun l =>
          .itemCollected l.tick l.agent fresh.id).toList
      else [] := by
  rw [← filter_collects_filter_isCollection, h.collections_eq]
  exact filter_collects_collections (Board.nodup_map_id_freshItems hs.board) hfresh r.landings

theorem index_id (h : r.Tallied) (hs : r.sim.Sound) {n : Nat}
    (hi : r.sim.world.stock.items[n]? = some i) : i.id.index = n := by
  obtain ⟨fresh, hfresh, rfl⟩ := h.exists_fresh hi
  obtain ⟨hn, hid, -⟩ := Board.getElem?_freshItems hfresh
  obtain ⟨hlt, -⟩ := List.getElem?_eq_some_iff.mp hn
  rw [Item.after_id, hid]
  exact Ident.index_ofIndex (Nat.lt_trans hlt hs.board.length_items_lt)

theorem hidden_iff (h : r.Tallied) (hi : i ∈ r.sim.world.stock.items) : i.visible = false ↔
    (∃ s ∈ r.sim.board.spawns, s.pos = i.pos) ∨ ∃ l ∈ r.landings, l.pos = i.pos := by
  obtain ⟨fresh, -, rfl, hspawn⟩ := h.exists_fresh_of_mem hi
  rw [← hspawn, Item.visible_after_eq_false, List.mem_map]
  rfl

/-- An item that an arrival has hidden was reported with the first arrival on its cell. -/
theorem exists_first (h : r.Tallied) (hs : r.sim.Sound) (hi : i ∈ r.sim.world.stock.items)
    (hnospawn : ∀ s ∈ r.sim.board.spawns, s.pos ≠ i.pos) (hhidden : i.visible = false) :
    ∃ l ∈ r.landings, l.pos = i.pos ∧
      r.events.filter (collects i.id) = [.itemCollected l.tick l.agent i.id] ∧
      ∀ m ∈ r.landings, m.pos = i.pos → m = l ∨ l.IsBefore m := by
  have hlanded : ∃ l ∈ r.landings, l.pos = i.pos := by
    rcases (h.hidden_iff hi).mp hhidden with ⟨s, hmem, hpos⟩ | hlanded
    · exact absurd hpos (hnospawn s hmem)
    · exact hlanded
  obtain ⟨fresh, hfresh, rfl, hspawn⟩ := h.exists_fresh_of_mem hi
  have hvisible : fresh.visible = true := by
    rw [← Bool.not_eq_false, hspawn]
    rintro ⟨s, hmem, hpos⟩
    exact hnospawn s hmem hpos
  -- the arrival that a search finds is the first one
  rcases hlanded with ⟨l₀, hl₀, hpos₀⟩
  obtain ⟨l, hl⟩ : ∃ l, r.landings.find? (fun l => l.pos = fresh.pos) = some l :=
    Option.isSome_iff_exists.mp (List.find?_isSome.mpr ⟨l₀, hl₀, decide_eq_true hpos₀⟩)
  have hfound := List.find?_some hl
  have hpos : l.pos = fresh.pos := of_decide_eq_true hfound
  refine ⟨l, List.mem_of_find?_eq_some hl, hpos, ?_, fun m hm hmpos => ?_⟩
  · rw [Item.after_id, h.filter_collects hs hfresh, if_pos hvisible, hl]
    rfl
  · exact Landing.isBefore_of_find? h.ordered hl hm (decide_eq_true hmpos)

/-- An item that a starting place hides, or that is visible, was not reported. -/
theorem filter_collects_eq_nil (h : r.Tallied) (hs : r.sim.Sound)
    (hi : i ∈ r.sim.world.stock.items)
    (hkept : (∃ s ∈ r.sim.board.spawns, s.pos = i.pos) ∨ i.visible = true) :
    r.events.filter (collects i.id) = [] := by
  obtain ⟨fresh, hfresh, rfl, hspawn⟩ := h.exists_fresh_of_mem hi
  rw [Item.after_id, h.filter_collects hs hfresh]
  rcases hkept with hunder | hshown
  · rw [hspawn.mpr hunder]
    rfl
  · obtain ⟨hvisible, hnotin⟩ := Item.visible_after.mp hshown
    have hnone : r.landings.find? (fun l => l.pos = fresh.pos) = none := by
      rw [List.find?_eq_none]
      intro l hl hpos
      exact hnotin (List.mem_map.mpr ⟨l, hl, of_decide_eq_true hpos⟩)
    rw [hnone, if_pos hvisible]
    rfl

theorem map_pos_items (h : r.Tallied) :
    r.sim.world.stock.items.map Item.pos = r.sim.board.items := by
  rw [h.items_eq, ← Stock.map_pos_ofBoard, Board.freshItems, List.map_map, List.map_map]
  rfl

theorem sum_eq (h : r.Tallied) (hs : r.sim.Sound) : (r.events.filter isCollection).length +
    r.sim.board.items.countP (r.sim.board.spawns.map Spawn.pos).contains +
    r.sim.world.remainingItems = r.sim.board.items.length := by
  have hlength := length_collections_add r.sim.board.freshItems r.landings
  have hfresh := r.sim.board.countP_freshItems_add
  have hcounted : r.sim.world.remainingItems = r.sim.world.stock.items.countP Item.visible :=
    hs.counted
  rw [hcounted, h.items_eq, h.collections_eq]
  omega

theorem conserved (h : r.Tallied) (hs : r.sim.Sound) : r.Conserved where
  remaining_eq := hs.counted
  items := h.map_pos_items
  ids _ _ hi := h.index_id hs hi
  hidden_iff _ hi := h.hidden_iff hi
  reported _ hi hnospawn hhidden := h.exists_first hs hi hnospawn hhidden
  unreported _ hi hkept := h.filter_collects_eq_nil hs hi hkept
  sum_eq := h.sum_eq hs
  collectAll := hs.counted.exists_collectAll

end Tallied

end Record

/-- Items stay where the board has them. -/
theorem Simulation.IsAttained.map_pos_items {s : Simulation} (h : s.IsAttained) :
    s.world.stock.items.map Item.pos = s.board.items := by
  obtain ⟨r, hr, rfl⟩ := h
  exact hr.tallied.map_pos_items

/-- Whatever a host asks for, items are conserved. -/
theorem Simulation.Reachable.items_conserved {s : Simulation} (h : s.Reachable) :
    (∃ r : Record, r.Reachable ∧ r.sim = s) ∧
      (∀ r : Record, r.Reachable → r.sim = s → r.Conserved) ∧
      ∀ cells, ∃ stock, (Stock.ofBoard s.board).collectAll cells = .ok stock := by
  refine ⟨h.exists_record, fun r hr _ => ?_, (Stock.isCounted_ofBoard s.board).exists_collectAll⟩
  exact hr.attained.tallied.conserved hr.attained.sound

/-- In the corridor the only item is reported once, when the agent comes to its cell. -/
theorem Simulation.items_conserved_corridor : ∃ (s : Simulation) (r : Record), s.Reachable ∧
    r.Reachable ∧ r.sim = s ∧ r.sim.world.remainingItems = 0 ∧
      ∃ l ∈ r.landings, l.pos = ⟨1, 0⟩ ∧
        r.events.filter (collects ⟨0⟩) = [.itemCollected l.tick l.agent ⟨0⟩] := by
  have hstarted := reachable_corridor.perform (show Request.start.IsAdmissible from trivial) rfl
  have hs := hstarted.perform (show (Request.tickMany 3).IsAdmissible from trivial) rfl
  obtain ⟨⟨r, hr, hsim⟩, hconserved, -⟩ := hs.items_conserved
  have hitem : (⟨⟨0⟩, ⟨1, 0⟩, false⟩ : Item) ∈ r.sim.world.stock.items := by
    rw [hsim]
    exact List.mem_cons_self
  have hspawns : ∀ s ∈ r.sim.board.spawns, s.pos ≠ ⟨1, 0⟩ := by
    rw [hsim]
    decide
  have hreported := (hconserved r hr hsim).reported _ hitem hspawns rfl
  obtain ⟨l, hl, hpos, hevents, -⟩ := hreported
  exact ⟨_, r, hs, hr, hsim, by rw [hsim]; rfl, l, hl, hpos, hevents⟩

end TileWalk
