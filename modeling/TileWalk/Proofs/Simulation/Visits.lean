import TileWalk.Proofs.Simulation.Journeys
import TileWalk.Proofs.Simulation.Separate
import TileWalk.Proofs.Simulation.Stream

/-!
# Items under the cells that agents come to

The cells to which an agent comes in some ticks are those to which it would come on its own
(`Agent.visits`). After a run has begun and some ticks have passed, the hidden items are those under
starting places and those on the cells to which some agent would have come on its own
(`Simulation.Sound.hidden_of_run`).
-/

namespace TileWalk

open Outcome

/-! ### One agent -/

namespace Agent

variable {p : Program} {g : Grid} {frames : UInt32} {a b : Agent} {k : Nat} {pos : Pos}
  {agents later : List Agent}

/-- The cells to which the agent comes within `k` ticks on its own. -/
def visits (p : Program) (g : Grid) (frames : UInt32) : (k : Nat) → Agent → List Pos
  | 0, _ => []
  | k + 1, a =>
    match a.live p g frames with
    | .ok b => (a.arrival? g).toList ++ visits p g frames k b
    | .error _ => []

theorem visits_succ (h : a.live p g frames = .ok b) :
    visits p g frames (k + 1) a = (a.arrival? g).toList ++ visits p g frames k b := by
  rw [visits, h]

/-- A sound agent comes to the cell that is its goal. -/
theorem Sound.arrival?_eq_goal? (hs : a.Sound p g) (hg : g.IsSmall) : a.arrival? g = a.goal? := by
  obtain ⟨arrival?, b, hadvance⟩ := hs.exists_advance hg
  rw [← (hs.advance_goal? hadvance).1, Agent.arrival?, hadvance]
  cases arrival? <;> rfl

/-- What agents come to within some ticks, they come to in the first one or later. -/
theorem mem_flatMap_visits_succ
    (h : List.Forall₂ (fun a b => a.live p g frames = .ok b) agents later) :
    pos ∈ agents.flatMap (visits p g frames (k + 1)) ↔
      pos ∈ agents.filterMap (arrival? g) ++ later.flatMap (visits p g frames k) := by
  induction h with
  | nil => simp
  | @cons a b agents later hab _ ih =>
    rw [filterMap_arrival?_cons]
    simp only [List.flatMap_cons, List.mem_append, visits_succ hab] at ih ⊢
    rw [ih]
    exact or_or_or_comm

end Agent

/-! ### Hidden items -/

namespace Stock

variable {s : Stock} {b : Board} {cells : List Pos}

/-- The cells of the hidden items, in the order of the items. -/
def hidden (s : Stock) : List Pos :=
  (s.items.filter fun i => !i.visible).map Item.pos

theorem hidden_of_items_eq (h : s.items = (ofBoard b).items.map (Item.after cells)) :
    s.hidden = b.items.filter cells.contains := by
  have hvisible : ∀ i ∈ (ofBoard b).items,
      (!(i.after cells).visible) = cells.contains i.pos := by
    intro i hi
    unfold Item.after
    rw [visible_of_mem_ofBoard hi]
    simp
  rw [hidden, h, List.filter_map, List.map_map, ← map_pos_ofBoard b, List.filter_map]
  show ((ofBoard b).items.filter fun i => !(i.after cells).visible).map Item.pos =
    ((ofBoard b).items.filter fun i => cells.contains i.pos).map Item.pos
  rw [List.filter_congr hvisible]

/-- An item of the board is visible or hidden. -/
theorem IsCounted.remaining_add_length_hidden (h : s.IsCounted)
    (hitems : s.items = (ofBoard b).items.map (Item.after cells)) :
    s.remaining + s.hidden.length = b.items.length := by
  have hall : b.items.length = s.items.length := by
    rw [hitems, items_ofBoard, List.length_map, List.length_mapIdx]
  rw [h, hidden, List.length_map, ← List.countP_eq_length_filter, hall,
    List.length_eq_countP_add_countP Item.visible]
  simp

end Stock

/-! ### Runs -/

namespace Simulation

variable {s s₁ s₂ t : Simulation} {c c₁ c₂ : Chronicle} {counts : List Nat} {k : Nat}

/-- The cells at which agents start, and those to which the agents as they are now come within `k`
ticks on their own. -/
def reached (s : Simulation) (k : Nat) : List Pos :=
  s.board.spawns.map Spawn.pos ++
    s.world.agents.flatMap (Agent.visits s.program s.board.grid s.config.moveFrames k)

/-- The items that lie where agents come to on their own are hidden, and no others. -/
theorem Sound.items_of_visits (hs : s.Sound) (hq : s.queue = [])
    (ht : s.tickMany k = .ok (counts, t, c)) :
    t.world.stock.items = s.world.stock.items.map (Item.after
      (s.world.agents.flatMap (Agent.visits s.program s.board.grid s.config.moveFrames k))) := by
  induction k generalizing s counts c with
  | zero =>
    obtain ⟨-, rfl, -⟩ := by simpa [Simulation.tickMany] using ht
    have hnone : s.world.agents.flatMap
        (Agent.visits s.program s.board.grid s.config.moveFrames 0) = [] := by
      simp [Agent.visits]
    rw [hnone, Item.map_after_nil]
  | succ k ih =>
    obtain ⟨count, u, c₁, later, c₂, hu, hlater, -, -⟩ := tickMany_succ_eq_ok_iff.mp ht
    rw [tick_of_queue_nil hq] at hu
    obtain ⟨hconfig, hboard, hprogram, hqueue, -⟩ := frame_of_step hu
    have hlives := mapM_eq_ok_iff.mp (mapM_live_of_step hs.coherent hu).1
    rw [ih (hs.step hu) (hqueue.trans hq) hlater, items_of_step hu, map_pos_landings,
      Item.map_after_after, hconfig, hboard, hprogram]
    exact Item.map_after_congr (fun pos => (Agent.mem_flatMap_visits_succ hlives).symm) _

/-- After a run has begun and some ticks have passed, the items are hidden that lie on cells that were
reached. -/
theorem Sound.items_of_run (hs : s.Sound) (hq : s.queue = []) (hstart : s.start = .ok (s₁, c₁))
    (hticks : s₁.tickMany k = .ok (counts, s₂, c₂)) :
    s₂.world.stock.items = (Stock.ofBoard s.board).items.map (Item.after (s₁.reached k)) := by
  have hs₁ := hs.start hstart
  obtain ⟨w, hw, rfl⟩ := exists_start_iff.mp ⟨c₁, hstart⟩
  have hfresh := Stock.items_collectAll (World.ofBoard_eq_ok_iff.mp hw).2
  have hstock : (s.begun w).world.stock = w.stock := rfl
  rw [hs₁.items_of_visits hq hticks, hstock, hfresh, Item.map_after_after]
  rfl

theorem Sound.hidden_of_run (hs : s.Sound) (hq : s.queue = []) (hstart : s.start = .ok (s₁, c₁))
    (hticks : s₁.tickMany k = .ok (counts, s₂, c₂)) :
    s₂.world.stock.hidden = s.board.items.filter (s₁.reached k).contains :=
  Stock.hidden_of_items_eq (hs.items_of_run hq hstart hticks)

theorem Sound.remaining_of_run (hs : s.Sound) (hq : s.queue = [])
    (hstart : s.start = .ok (s₁, c₁)) (hticks : s₁.tickMany k = .ok (counts, s₂, c₂)) :
    s₂.world.remainingItems + s₂.world.stock.hidden.length = s.board.items.length :=
  (hs.of_run hq hstart hticks).counted.remaining_add_length_hidden
    (hs.items_of_run hq hstart hticks)

end Simulation

end TileWalk
