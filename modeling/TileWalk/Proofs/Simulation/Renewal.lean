import TileWalk.Proofs.Agent.Step
import TileWalk.Simulation.Basic

/-!
# New worlds

Beginning anew makes a world from the board: one agent for each starting place, in order
(`World.forall₂_of_ofBoard`), and the items but those under starting places. Resetting keeps the
program (`Simulation.exists_reset_iff`), loading exchanges it (`Simulation.exists_load_iff`), and
starting lets the agents begin it (`Simulation.exists_start_iff`). Nothing else changes, neither the
clock nor the signals that wait, and observers are told nothing (`Simulation.events_of_carryOut`).
-/

namespace TileWalk

open Outcome

/-! ### Agents and items of a board -/

namespace World

variable {b : Board} {w : World}

theorem spawnAll_eq_mapM (g : Grid) (n : Nat) (spawns : List Spawn) : spawnAll g n spawns =
    (spawns.zipIdx n).mapM fun x => Agent.spawn (Ident.ofIndex x.2) x.1 g := by
  induction spawns generalizing n with
  | nil => rfl
  | cons s spawns ih =>
    rw [spawnAll, List.zipIdx_cons, List.mapM_cons]
    simp only [ih]

theorem ofBoard_eq_ok_iff : ofBoard b = .ok w ↔ spawnAll b.grid 0 b.spawns = .ok w.agents ∧
    (Stock.ofBoard b).collectAll (b.spawns.map Spawn.pos) = .ok w.stock := by
  unfold ofBoard
  simp only [bind_eq_ok_iff, pure_eq_ok_iff]
  constructor
  · rintro ⟨agents, hagents, stock, hstock, rfl⟩
    exact ⟨hagents, hstock⟩
  · rintro ⟨hagents, hstock⟩
    exact ⟨_, hagents, _, hstock, rfl⟩

/-- There is one agent for each starting place, in order. -/
theorem forall₂_of_ofBoard (h : ofBoard b = .ok w) :
    List.Forall₂ (fun x a => Agent.spawn (Ident.ofIndex x.2) x.1 b.grid = .ok a) b.spawns.zipIdx
      w.agents := by
  have hagents := (ofBoard_eq_ok_iff.mp h).1
  rw [spawnAll_eq_mapM] at hagents
  exact mapM_eq_ok_iff.mp hagents

/-- Every starting place has its agent. -/
theorem exists_agent_of_ofBoard (h : ofBoard b = .ok w) {i : Nat} {s : Spawn}
    (hs : b.spawns[i]? = some s) :
    ∃ a, w.agents[i]? = some a ∧ Agent.spawn (Ident.ofIndex i) s b.grid = .ok a := by
  have hzip : b.spawns.zipIdx[i]? = some (s, i) := by
    rw [List.getElem?_zipIdx, hs, Nat.zero_add]
    rfl
  obtain ⟨a, ha, hspawn⟩ := exists_getElem?_of_forall₂ (forall₂_of_ofBoard h) hzip
  exact ⟨a, ha, hspawn⟩

theorem exists_spawn_of_mem (h : ofBoard b = .ok w) {a : Agent} (ha : a ∈ w.agents) :
    ∃ n, ∃ s ∈ b.spawns, Agent.spawn (Ident.ofIndex n) s b.grid = .ok a := by
  obtain ⟨⟨s, n⟩, hmem, hs⟩ := exists_mem_of_forall₂ (forall₂_of_ofBoard h) ha
  exact ⟨n, s, List.fst_mem_of_mem_zipIdx hmem, hs⟩

theorem map_id_of_ofBoard (h : ofBoard b = .ok w) :
    w.agents.map Agent.id = (List.range b.spawns.length).map Ident.ofIndex := by
  have hids : ∀ {l : List (Spawn × Nat)} {r : List Agent},
      List.Forall₂ (fun x a => Agent.spawn (Ident.ofIndex x.2) x.1 b.grid = .ok a) l r →
        r.map Agent.id = (l.map Prod.snd).map Ident.ofIndex := by
    intro l r hr
    induction hr with
    | nil => rfl
    | cons ha _ ih =>
      obtain ⟨o, -, rfl⟩ := Agent.spawn_eq_ok_iff.mp ha
      rw [List.map_cons, List.map_cons, List.map_cons, ih]
  rw [hids (forall₂_of_ofBoard h), List.zipIdx_map_snd, List.range_eq_range']

end World

/-! ### Beginning anew -/

/-- The agent as a run begins: it is to execute the beginning of the program, or stops at once. -/
def Agent.begun (p : Program) (a : Agent) : Agent :=
  match p.root with
  | some root => a.seed (some root)
  | none => a.follow (.finish .endOfProgram)

namespace Simulation

variable {s t : Simulation} {program : Program}

/-- The simulation as a run begins in a world that has just been made. -/
def begun (s : Simulation) (w : World) : Simulation :=
  { s with
    world := { w with agents := w.agents.map (Agent.begun s.program) }
    unreported := if s.program.root.isSome then [] else w.agents.map Agent.id }

theorem getElem?_begun {w : World} {i : Nat} {a : Agent} (s : Simulation)
    (ha : w.agents[i]? = some a) : (s.begun w).world.agents[i]? = some (a.begun s.program) := by
  show (w.agents.map (Agent.begun s.program))[i]? = _
  rw [List.getElem?_map, ha]
  rfl

theorem exists_build_iff {board : Board} {config : Config} :
    (∃ c, build board config program = .ok (.ok (s, c))) ↔ config.moveFrames ≠ 0 ∧
      ∃ w, World.ofBoard board = .ok w ∧ s = ⟨config, Tick.zero, board, program, w, [], []⟩ := by
  rw [← Config.check_eq_ok_iff]
  unfold build
  cases config.check with
  | error e => simp
  | ok u =>
    simp only [Except.ok.injEq, bind_eq_ok_iff, pure_eq_ok_iff, true_and]
    constructor
    · rintro ⟨c, w, hw, hs⟩
      exact ⟨w, hw, (Prod.mk.inj hs).1.symm⟩
    · rintro ⟨w, hw, rfl⟩
      exact ⟨_, w, hw, rfl⟩

theorem exists_reset_iff : (∃ c, s.reset = .ok (t, c)) ↔
    ∃ w, World.ofBoard s.board = .ok w ∧ t = { s with world := w, unreported := [] } := by
  unfold reset
  constructor
  · rintro ⟨c, h⟩
    obtain ⟨w, hw, hpure⟩ := bind_eq_ok_iff.mp h
    exact ⟨w, hw, (Prod.mk.inj (pure_eq_ok_iff.mp hpure)).1.symm⟩
  · rintro ⟨w, hw, rfl⟩
    exact ⟨_, bind_eq_ok_iff.mpr ⟨w, hw, rfl⟩⟩

theorem exists_load_iff : (∃ c, s.load program = .ok (t, c)) ↔
    ∃ w, World.ofBoard s.board = .ok w ∧ t = { s with world := w, program, unreported := [] } := by
  unfold load
  constructor
  · rintro ⟨c, h⟩
    obtain ⟨⟨s', c'⟩, hreset, hpure⟩ := bind_eq_ok_iff.mp h
    obtain ⟨w, hw, rfl⟩ := exists_reset_iff.mp ⟨c', hreset⟩
    exact ⟨w, hw, (Prod.mk.inj (pure_eq_ok_iff.mp hpure)).1.symm⟩
  · rintro ⟨w, hw, rfl⟩
    obtain ⟨c, hreset⟩ := exists_reset_iff.mpr ⟨w, hw, rfl⟩
    exact ⟨_, bind_eq_ok_iff.mpr ⟨_, hreset, rfl⟩⟩

theorem exists_start_iff : (∃ c, s.start = .ok (t, c)) ↔
    ∃ w, World.ofBoard s.board = .ok w ∧ t = s.begun w := by
  unfold start begun Agent.begun
  constructor
  · rintro ⟨c, h⟩
    obtain ⟨⟨s', c'⟩, hreset, h⟩ := bind_eq_ok_iff.mp h
    obtain ⟨w, hw, rfl⟩ := exists_reset_iff.mp ⟨c', hreset⟩
    refine ⟨w, hw, ?_⟩
    dsimp only at h
    cases hroot : s.program.root with
    | some root =>
      rw [hroot] at h
      exact (Prod.mk.inj (pure_eq_ok_iff.mp h)).1.symm
    | none =>
      rw [hroot] at h
      exact (Prod.mk.inj (pure_eq_ok_iff.mp h)).1.symm
  · rintro ⟨w, hw, rfl⟩
    obtain ⟨c, hreset⟩ := exists_reset_iff.mpr ⟨w, hw, rfl⟩
    rw [hreset]
    dsimp only [bind, Except.bind]
    cases s.program.root with
    | some root => exact ⟨_, rfl⟩
    | none => exact ⟨_, rfl⟩

/-! ### What signals do not look at -/

variable {signal : Signal} {c : Chronicle}

/-- Observers are told nothing when a world is made anew. -/
theorem events_of_carryOut (h : s.carryOut signal = .ok (t, c)) : c.events = [] := by
  have hreset : ∀ {u : Simulation} {d : Chronicle}, s.reset = .ok (u, d) → d.events = [] := by
    intro u d hu
    obtain ⟨w, -, hpure⟩ := bind_eq_ok_iff.mp hu
    obtain ⟨-, rfl⟩ := Prod.mk.inj (pure_eq_ok_iff.mp hpure)
    rfl
  cases signal with
  | reset => exact hreset h
  | load program =>
    obtain ⟨⟨u, d⟩, hu, hpure⟩ := bind_eq_ok_iff.mp h
    obtain ⟨-, rfl⟩ := Prod.mk.inj (pure_eq_ok_iff.mp hpure)
    exact (List.append_nil _).trans (hreset hu)
  | start =>
    obtain ⟨⟨u, d⟩, hu, h⟩ := bind_eq_ok_iff.mp h
    dsimp only at h
    cases hroot : u.program.root with
    | some root =>
      rw [hroot] at h
      obtain ⟨-, rfl⟩ := Prod.mk.inj (pure_eq_ok_iff.mp h)
      exact (List.append_nil _).trans (hreset hu)
    | none =>
      rw [hroot] at h
      obtain ⟨-, rfl⟩ := Prod.mk.inj (pure_eq_ok_iff.mp h)
      exact (List.append_nil _).trans (hreset hu)

/-- A signal does not look at the settings and at the signals that wait behind it. -/
theorem carryOut_with (h : s.carryOut signal = .ok (t, c)) (config : Config)
    (queue : List Signal) :
    { s with config, queue }.carryOut signal = .ok ({ t with config, queue }, c) := by
  have hreset : ∀ {u : Simulation} {d : Chronicle}, s.reset = .ok (u, d) →
      { s with config, queue }.reset = .ok ({ u with config, queue }, d) := by
    intro u d hu
    obtain ⟨w, hw, hpure⟩ := bind_eq_ok_iff.mp hu
    obtain ⟨rfl, rfl⟩ := Prod.mk.inj (pure_eq_ok_iff.mp hpure)
    exact bind_eq_ok_iff.mpr ⟨w, hw, rfl⟩
  cases signal with
  | reset => exact hreset h
  | load program =>
    obtain ⟨⟨u, d⟩, hu, hpure⟩ := bind_eq_ok_iff.mp h
    obtain ⟨rfl, rfl⟩ := Prod.mk.inj (pure_eq_ok_iff.mp hpure)
    exact bind_eq_ok_iff.mpr ⟨_, hreset hu, rfl⟩
  | start =>
    obtain ⟨⟨u, d⟩, hu, h⟩ := bind_eq_ok_iff.mp h
    refine bind_eq_ok_iff.mpr ⟨_, hreset hu, ?_⟩
    dsimp only at h ⊢
    cases hroot : u.program.root with
    | some root =>
      rw [hroot] at h
      obtain ⟨rfl, rfl⟩ := Prod.mk.inj (pure_eq_ok_iff.mp h)
      rfl
    | none =>
      rw [hroot] at h
      obtain ⟨rfl, rfl⟩ := Prod.mk.inj (pure_eq_ok_iff.mp h)
      rfl

end Simulation

end TileWalk
