import Mathlib.Data.List.Nodup
import TileWalk.Proofs.Simulation.Pointwise
import TileWalk.Proofs.Simulation.Request
import TileWalk.Proofs.Simulation.Stock

/-!
# Arrivals and what they collect

The first phase of a tick collects on the cells of the agents that arrive, in the order of the
agents (`Simulation.collectAll_of_moveAgents`). What observers are told of it is a function of the
items and the arrivals alone: each arrival reports the items that are visible on its cell
(`collections`), and nothing else in a tick reports an item
(`Simulation.filter_isCollection_of_step`). An item is reported once, by the first arrival on its
cell (`filter_collects_collections`).
-/

namespace TileWalk

open Outcome

/-! ### What is reported -/

namespace Event

/-- Observers are told of an item that was collected. -/
def isCollection : Event → Bool
  | .itemCollected _ _ _ => true
  | _ => false

/-- Observers are told that a certain item was collected. -/
def collects (id : ItemId) : Event → Bool
  | .itemCollected _ _ item => item = id
  | _ => false

theorem filter_collects_filter_isCollection (events : List Event) (id : ItemId) :
    (events.filter isCollection).filter (collects id) = events.filter (collects id) := by
  rw [List.filter_filter]
  refine List.filter_congr fun e _ => ?_
  cases e <;> simp [isCollection, collects]

end Event

open Event

/-- What an arrival reports of some items. -/
def Landing.report (l : Landing) (items : List Item) : List Event :=
  (items.filter (Stock.liesAt l.pos)).map fun i => .itemCollected l.tick l.agent i.id

/-- What arrivals report of some items, one after the other. -/
def collections (items : List Item) : List Landing → List Event
  | [] => []
  | l :: landings => l.report items ++ collections (items.map (Item.after [l.pos])) landings

theorem collections_append (items : List Item) (first second : List Landing) :
    collections items (first ++ second) = collections items first ++
      collections (items.map (Item.after (first.map Landing.pos))) second := by
  induction first generalizing items with
  | nil =>
    show collections items second = collections (items.map (Item.after [])) second
    rw [Item.map_after_nil]
  | cons l first ih =>
    show l.report items ++ collections _ (first ++ second) = (l.report items ++ _) ++ _
    rw [ih, Item.map_after_after, List.append_assoc]
    rfl

/-- The visible items are those that stay visible and those that are reported. -/
theorem length_collections_add (items : List Item) (landings : List Landing) :
    (collections items landings).length +
        (items.map (Item.after (landings.map Landing.pos))).countP Item.visible =
      items.countP Item.visible := by
  induction landings generalizing items with
  | nil =>
    show 0 + (items.map (Item.after [])).countP Item.visible = _
    rw [Item.map_after_nil, Nat.zero_add]
  | cons l landings ih =>
    have hrest := ih (items.map (Item.after [l.pos]))
    have hfirst := Stock.countP_after_add items l.pos
    rw [Item.map_after_after] at hrest
    show (l.report items ++ collections _ landings).length +
      (items.map (Item.after ([l.pos] ++ landings.map Landing.pos))).countP Item.visible = _
    rw [List.length_append, Landing.report, List.length_map]
    omega

/-- Numbers are distinct, so a search by number finds the item itself. -/
theorem filter_id_eq_singleton {items : List Item} (hids : (items.map Item.id).Nodup) {i : Item}
    (hi : i ∈ items) : items.filter (fun j => j.id = i.id) = [i] := by
  have hsame : ∀ j ∈ items, j.id = i.id → j = i :=
    fun j hj hid => List.inj_on_of_nodup_map hids hj hi hid
  have hcongr : items.filter (fun j => j.id = i.id) = items.filter (fun j => j == i) := by
    refine List.filter_congr fun j hj => ?_
    rw [decide_eq_decide.mpr (⟨hsame j hj, fun h => h ▸ rfl⟩ : j.id = i.id ↔ j = i)]
    rfl
  have hnodup : items.Nodup := List.Nodup.of_map _ hids
  rw [hcongr, List.filter_beq, List.count_eq_one_of_mem hnodup hi]
  rfl

theorem filter_collects_report {items : List Item} (hids : (items.map Item.id).Nodup) {i : Item}
    (hi : i ∈ items) (l : Landing) : (l.report items).filter (collects i.id) =
      if Stock.liesAt l.pos i then [.itemCollected l.tick l.agent i.id] else [] := by
  -- the item is looked up first, and then whether it lies on the cell
  have hcomm : items.filter (fun j => (collects i.id ∘ fun i =>
      Event.itemCollected l.tick l.agent i.id) j && Stock.liesAt l.pos j) =
      (items.filter fun j => j.id = i.id).filter (Stock.liesAt l.pos) := by
    rw [List.filter_filter]
    exact List.filter_congr fun j _ => Bool.and_comm _ _
  rw [Landing.report, List.filter_map, List.filter_filter, hcomm, filter_id_eq_singleton hids hi]
  by_cases h : Stock.liesAt l.pos i = true
  · rw [if_pos h, List.filter_cons_of_pos h]
    rfl
  · rw [if_neg h, List.filter_cons_of_neg h]
    rfl

/-- A visible item is reported once, by the first arrival on its cell. -/
theorem filter_collects_collections {items : List Item} (hids : (items.map Item.id).Nodup)
    {i : Item} (hi : i ∈ items) (landings : List Landing) :
    (collections items landings).filter (collects i.id) =
      if i.visible then
        ((landings.find? fun l => l.pos = i.pos).map fun l =>
          .itemCollected l.tick l.agent i.id).toList
      else [] := by
  induction landings generalizing items i with
  | nil => cases i.visible <;> rfl
  | cons l landings ih =>
    have hids' : ((items.map (Item.after [l.pos])).map Item.id).Nodup := by
      rw [List.map_map]
      exact hids
    have hrest := ih hids' (List.mem_map_of_mem hi)
    rw [collections, List.filter_append, filter_collects_report hids hi]
    rw [Item.after_id, Item.after_pos] at hrest
    rw [hrest, List.find?_cons]
    by_cases hvisible : i.visible = true
    · by_cases hpos : l.pos = i.pos
      -- the first arrival on the cell hides the item from all later ones
      · have hlies := Stock.liesAt_iff.mpr ⟨hvisible, hpos.symm⟩
        rw [if_pos hlies, if_pos hvisible, decide_eq_true hpos, if_neg]
        · rfl
        · intro hafter
          exact (Item.visible_after.mp hafter).2 (hpos ▸ List.mem_singleton_self _)
      · rw [if_neg (fun h => hpos (Stock.liesAt_iff.mp h).2.symm), if_pos hvisible,
          decide_eq_false hpos, if_pos]
        · rfl
        · exact Item.visible_after.mpr ⟨hvisible, fun h => hpos (List.mem_singleton.mp h).symm⟩
    · rw [if_neg (fun h => hvisible (Stock.liesAt_iff.mp h).1), if_neg hvisible,
        if_neg (fun h => hvisible (Item.visible_after.mp h).1)]
      rfl

/-! ### The arrivals of a tick -/

namespace Agent

variable {g : Grid} {now : Tick} {a b : Agent}

theorem landing?_eq {arrival? : Option Arrival} (h : a.advance g = .ok (arrival?, b)) :
    a.landing? g now = arrival?.map fun arrival => ⟨now, a.id, arrival.pos⟩ := by
  unfold landing?
  rw [h]
  cases arrival? <;> rfl

end Agent

namespace Simulation

variable {p : Program} {g : Grid} {frames : UInt32} {now : Tick} {agents : List Agent}
  {moved : List (Agent × Bool)} {stock stock' : Stock} {count : Nat} {c : Chronicle}
  {s t : Simulation}

/-- The first phase collects where agents arrive, and does nothing else to the items. -/
theorem collectAll_of_moveAgents (h : moveAgents g now agents stock = .ok (moved, stock', c)) :
    stock.collectAll ((agents.filterMap (Agent.landing? g now)).map Landing.pos) = .ok stock' := by
  induction agents generalizing moved stock c with
  | nil =>
    obtain ⟨-, rfl, -⟩ := by simpa [moveAgents] using h
    rfl
  | cons a agents ih =>
    obtain ⟨arrival?, b, stock₁, here, rest, c₁, ha, hland, hrest, -, -⟩ :=
      moveAgents_cons_eq_ok_iff.mp h
    rw [List.filterMap_cons, Agent.landing?_eq ha]
    cases arrival? with
    | none =>
      obtain ⟨rfl, -⟩ := Prod.mk.inj (Except.ok.inj hland)
      exact ih hrest
    | some arrival =>
      obtain ⟨⟨items, stock₂⟩, hitems, hpure⟩ := bind_eq_ok_iff.mp hland
      obtain ⟨rfl, -⟩ := Prod.mk.inj (pure_eq_ok_iff.mp hpure)
      exact Stock.collectAll_cons_eq_ok_iff.mpr ⟨items, _, hitems, ih hrest⟩

theorem filter_isCollection_finishEvents (a : Agent) :
    (finishEvents now a).filter isCollection = [] := by
  unfold finishEvents
  split_ifs
  · cases a.finished <;> rfl
  · rfl

theorem events_collected (id : AgentId) (pos : Pos) (items : List ItemId) :
    ((items.map (collected now id pos)).foldr (· ++ ·) Chronicle.empty).events =
      items.map (Event.itemCollected now id) := by
  induction items with
  | nil => rfl
  | cons item items ih =>
    rw [List.map_cons, List.foldr_cons, Chronicle.events_append, ih]
    rfl

theorem filter_isCollection_moveAgents
    (h : moveAgents g now agents stock = .ok (moved, stock', c)) :
    c.events.filter isCollection =
      collections stock.items (agents.filterMap (Agent.landing? g now)) := by
  induction agents generalizing moved stock c with
  | nil =>
    obtain ⟨-, -, rfl⟩ := by simpa [moveAgents] using h
    rfl
  | cons a agents ih =>
    obtain ⟨arrival?, b, stock₁, here, rest, c₁, ha, hland, hrest, -, rfl⟩ :=
      moveAgents_cons_eq_ok_iff.mp h
    rw [List.filterMap_cons, Agent.landing?_eq ha, Chronicle.events_append, List.filter_append,
      ih hrest]
    cases arrival? with
    | none =>
      obtain ⟨rfl, rfl⟩ := Prod.mk.inj (Except.ok.inj hland)
      rfl
    | some arrival =>
      obtain ⟨⟨items, stock₂⟩, hitems, hpure⟩ := bind_eq_ok_iff.mp hland
      obtain ⟨rfl, rfl⟩ := Prod.mk.inj (pure_eq_ok_iff.mp hpure)
      obtain ⟨rfl, hstock, -⟩ := Stock.collectAt_eq_ok_iff.mp hitems
      dsimp only [Option.map_some]
      rw [collections, hstock]
      congr 1
      -- besides the items, only the end of the agent can be told
      rw [Chronicle.events_append, Chronicle.events_append, events_collected, List.map_map,
        List.filter_append, Chronicle.ofEvents, filter_isCollection_finishEvents,
        List.append_nil, Agent.advance_id ha]
      exact List.filter_eq_self.mpr fun e he => by
        obtain ⟨i, -, rfl⟩ := List.mem_map.mp he
        rfl

theorem filter_isCollection_dispatchAgents
    (h : dispatchAgents p g frames now moved = .ok (agents, count, c)) :
    c.events.filter isCollection = [] := by
  induction moved generalizing agents count c with
  | nil =>
    obtain ⟨-, -, rfl⟩ := by simpa [dispatchAgents] using h
    rfl
  | cons m moved ih =>
    obtain ⟨b, n, here, rest, k, c₁, hact, hrest, -, -, rfl⟩ := dispatchAgents_cons_eq_ok_iff.mp h
    rw [Chronicle.events_append, List.filter_append, ih hrest, List.append_nil]
    obtain ⟨a, flag⟩ := m
    cases flag with
    | true =>
      obtain ⟨-, -, rfl⟩ := by simpa [act] using hact
      rfl
    | false =>
      obtain ⟨⟨d?, b'⟩, -, hpure⟩ := bind_eq_ok_iff.mp hact
      cases d? with
      | none =>
        obtain ⟨-, -, rfl⟩ := by simpa using pure_eq_ok_iff.mp hpure
        rfl
      | some d =>
        obtain ⟨-, -, rfl⟩ := by simpa using pure_eq_ok_iff.mp hpure
        exact filter_isCollection_finishEvents b'

theorem filter_isCollection_pendingEvents (s : Simulation) :
    s.pendingEvents.filter isCollection = [] := by
  rw [List.filter_eq_nil_iff]
  intro e he
  obtain ⟨id, -, he⟩ := List.mem_flatMap.mp he
  cases hf : (s.world.agent? id).bind Agent.finished with
  | none =>
    rw [hf] at he
    exact absurd he List.not_mem_nil
  | some reason =>
    rw [hf] at he
    obtain rfl := List.mem_singleton.mp he
    exact Bool.false_ne_true

/-- In a tick the arrivals hide items, and nothing else does. -/
theorem items_of_step (h : s.step = .ok (count, t, c)) :
    t.world.stock.items = s.world.stock.items.map (Item.after (s.landings.map Landing.pos)) := by
  obtain ⟨moved, stock, c₁, agents, c₂, clock, hmoved, -, -, rfl, -⟩ := step_eq_ok_iff.mp h
  exact Stock.items_collectAll (collectAll_of_moveAgents hmoved)

/-- In a tick the arrivals report items, and nothing else does. -/
theorem filter_isCollection_of_step (h : s.step = .ok (count, t, c)) :
    c.events.filter isCollection = collections s.world.stock.items s.landings := by
  obtain ⟨moved, stock, c₁, agents, c₂, clock, hmoved, hagents, -, -, rfl⟩ := step_eq_ok_iff.mp h
  have hend : ∀ shown : List Event, shown.filter isCollection = [] →
      (Event.tickEnd s.clock count :: shown).filter isCollection = [] := fun shown hshown => hshown
  simp only [Chronicle.events_append, List.filter_append]
  rw [filter_isCollection_moveAgents hmoved, filter_isCollection_dispatchAgents hagents]
  show s.pendingEvents.filter isCollection ++ _ ++ _ ++ _ = _
  rw [filter_isCollection_pendingEvents, List.nil_append, List.append_nil]
  show _ ++ (Event.tickEnd s.clock count :: _).filter isCollection = _
  rw [hend, List.append_nil]
  · rfl
  · split_ifs <;> rfl

end Simulation

end TileWalk
