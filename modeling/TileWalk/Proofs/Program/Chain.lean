import TileWalk.Proofs.Program.Closed

/-!
# Chains

A chain appends nodes to a builder, each below the one before it and the first below a given node
(`Builder.Chains`), or it refuses to, with a fault, and makes no link (`Builder.Unlinked`). It is to
refuse every node that does not exist when the chain begins.

The node is looked for only after the first node of the chain has been appended, and so the number
of this first node passes too: a chain below it is made below nothing, and a chain of one node then
hangs below itself (`Builder.exists_chain_below_itself`). As long as there are numbers for all
nodes, this is the only chain that is made and should not be (`Builder.chainsOrRefuses_iff`).
-/

namespace TileWalk

namespace Builder

variable {b : Builder} {after next last : NodeId} {steps : List Instruction} {n : Nat}

/-! ### What a chain is to do -/

/-- The second builder is the first one with a chain of steps below a node. -/
structure Chains (b : Builder) (after : NodeId) (steps : List Instruction) (built : Builder)
    (last : NodeId) : Prop where
  size_eq : built.nodes.size = b.nodes.size + steps.length
  /-- The first node of the chain is below the given one. -/
  below : ∃ old next, b.nodes[after.index]? = some old ∧ next.index = b.nodes.size ∧
    built.nodes[after.index]? = some { old with bottom := some next }
  /-- Every node of the chain does its step, and has the next one below it. -/
  step : ∀ i instruction, steps[i]? = some instruction →
    ∃ node, built.nodes[b.nodes.size + i]? = some node ∧ node.kind = instruction.kind ∧
      node.command = instruction.command ∧ node.argument = instruction.argument ∧
      node.right = none ∧ node.bottom.map Ident.index =
        if i + 1 < steps.length then some (b.nodes.size + i + 1) else none
  last_eq : last.index = b.nodes.size + steps.length - 1
  /-- Nothing else is changed. -/
  same : ∀ j < b.nodes.size, j ≠ after.index → built.nodes[j]? = b.nodes[j]?

/-- The second builder is the first one, possibly with more nodes that have no links. -/
structure Unlinked (b left : Builder) : Prop where
  same : ∀ j < b.nodes.size, left.nodes[j]? = b.nodes[j]?
  bare : ∀ j node, b.nodes.size ≤ j → left.nodes[j]? = some node →
    node.right = none ∧ node.bottom = none

/-- A chain that is made is made below a node that was there before and does what it says, and a
chain below any other node is refused and makes no link. -/
structure ChainsOrRefuses (b : Builder) (after : NodeId) (steps : List Instruction) : Prop where
  chains : ∀ last, (b.chain after steps).2 = .ok last → after.index < b.nodes.size ∧
    b.Chains after steps (b.chain after steps).1 last
  refuses : b.nodes.size ≤ after.index → (∃ fault, (b.chain after steps).2 = .error fault) ∧
    b.Unlinked (b.chain after steps).1

/-! ### One step of a chain -/

theorem chain_cons_of_lt (i : Instruction) (steps : List Instruction)
    (h : after.index < b.nodes.size + 1) :
    b.chain after (i :: steps) =
      ((b.add i).1.setBottom after (.ofIndex b.nodes.size)).chain (.ofIndex b.nodes.size)
        steps := by
  have hnext : (Ident.ofIndex b.nodes.size : NodeId).index < b.nodes.size + 1 :=
    Nat.lt_succ_of_le (Nat.mod_le _ _)
  have hcheck : (b.add i).1.checkLink after (b.add i).2 = .ok () := by
    rw [checkLink_eq_ok_iff]
    unfold add
    rw [Array.size_push]
    exact ⟨h, hnext⟩
  rw [chain]
  dsimp only
  rw [hcheck]
  rfl

theorem chain_cons_of_le (i : Instruction) (steps : List Instruction)
    (h : b.nodes.size + 1 ≤ after.index) :
    b.chain after (i :: steps) = ((b.add i).1, .error (.linkSource after)) := by
  have hcheck : (b.add i).1.checkLink after (b.add i).2 = .error (.linkSource after) := by
    unfold checkLink add
    rw [Array.size_push, if_pos h]
  rw [chain]
  dsimp only
  rw [hcheck]

theorem size_setBottom (b : Builder) (source target : NodeId) :
    (b.setBottom source target).nodes.size = b.nodes.size :=
  Array.size_modify

theorem size_add (b : Builder) (i : Instruction) : (b.add i).1.nodes.size = b.nodes.size + 1 :=
  Array.size_push _

/-- A chain below a node that exists is made. -/
theorem exists_chain_eq_ok (steps : List Instruction) (h : after.index < b.nodes.size) :
    ∃ last, (b.chain after steps).2 = .ok last := by
  induction steps generalizing b after with
  | nil => exact ⟨after, rfl⟩
  | cons i rest ih =>
    rw [chain_cons_of_lt i rest (Nat.lt_succ_of_lt h)]
    apply ih
    rw [size_setBottom, size_add]
    exact Nat.lt_succ_of_le (Nat.mod_le _ _)

/-- A chain below the number that its first node takes is made, too. -/
theorem exists_chain_eq_ok_of_eq (steps : List Instruction) (h : after.index = b.nodes.size) :
    ∃ last, (b.chain after steps).2 = .ok last := by
  cases steps with
  | nil => exact ⟨after, rfl⟩
  | cons i rest =>
    rw [chain_cons_of_lt i rest (by omega)]
    apply exists_chain_eq_ok
    rw [size_setBottom, size_add]
    exact Nat.lt_succ_of_le (Nat.mod_le _ _)

/-! ### The nodes of a chain -/

/-- The nodes of a chain from place `n` on. -/
def chainNodes (n : Nat) : List Instruction → List Node
  | [] => []
  | i :: rest =>
    ⟨.ofIndex n, none, i.kind, i.command, i.argument, none,
      if rest.isEmpty then none else some (.ofIndex (n + 1))⟩ :: chainNodes (n + 1) rest

theorem length_chainNodes (n : Nat) (steps : List Instruction) :
    (chainNodes n steps).length = steps.length := by
  induction steps generalizing n with
  | nil => rfl
  | cons i rest ih => rw [chainNodes, List.length_cons, ih, List.length_cons]

theorem getElem?_chainNodes (n : Nat) (steps : List Instruction) (i : Nat) :
    (chainNodes n steps)[i]? = steps[i]?.map fun instruction =>
      ⟨.ofIndex (n + i), none, instruction.kind, instruction.command, instruction.argument, none,
        if i + 1 < steps.length then some (.ofIndex (n + i + 1)) else none⟩ := by
  induction steps generalizing n i with
  | nil => rfl
  | cons first rest ih =>
    rw [chainNodes]
    cases i with
    | zero => cases rest <;> rfl
    | succ i =>
      have hplace : n + 1 + i = n + (i + 1) := by omega
      rw [List.getElem?_cons_succ, ih, List.getElem?_cons_succ, List.length_cons, hplace]
      simp only [Nat.add_lt_add_iff_right]

theorem modify_append_of_lt {α : Type} {l : List α} {i : Nat} (h : i < l.length) (r : List α)
    (f : α → α) : (l ++ r).modify i f = l.modify i f ++ r := by
  induction l generalizing i with
  | nil => cases h
  | cons a l ih =>
    cases i with
    | zero => rfl
    | succ i =>
      show a :: (l ++ r).modify i f = a :: (l.modify i f ++ r)
      rw [ih (Nat.lt_of_succ_lt_succ h)]

theorem modify_append_last {α : Type} {l : List α} {n : Nat} (h : l.length = n) (a : α)
    (f : α → α) : (l ++ [a]).modify n f = l ++ [f a] := by
  subst h
  exact Program.modify_length_append l

/-- A chain sets one link and appends its nodes. -/
theorem chain_eq (hafter : after.index < b.nodes.size) (hne : steps ≠ [])
    (hsize : b.nodes.size + steps.length ≤ UInt32.size) :
    (b.chain after steps).1.nodes.toList =
        (b.setBottom after (.ofIndex b.nodes.size)).nodes.toList ++
          chainNodes b.nodes.size steps ∧
      (b.chain after steps).2 = .ok (.ofIndex (b.nodes.size + steps.length - 1)) := by
  induction steps generalizing b after with
  | nil => exact absurd rfl hne
  | cons i rest ih =>
    rw [List.length_cons] at hsize
    have hindex : (Ident.ofIndex b.nodes.size : NodeId).index = b.nodes.size :=
      Ident.index_ofIndex (by omega)
    rw [chain_cons_of_lt i rest (Nat.lt_succ_of_lt hafter)]
    have hlist : ((b.add i).1.setBottom after (.ofIndex b.nodes.size)).nodes.toList =
        (b.setBottom after (.ofIndex b.nodes.size)).nodes.toList ++
          [⟨.ofIndex b.nodes.size, none, i.kind, i.command, i.argument, none, none⟩] := by
      unfold setBottom add
      rw [Array.toList_modify, Array.toList_push, Array.toList_modify]
      exact modify_append_of_lt (by rwa [Array.length_toList]) _ _
    cases hrest : rest with
    | nil =>
      rw [chain]
      exact ⟨hlist, rfl⟩
    | cons j more =>
      rw [← hrest]
      have hgrown : ((b.add i).1.setBottom after (.ofIndex b.nodes.size)).nodes.size =
          b.nodes.size + 1 := by
        rw [size_setBottom, size_add]
      have hnext : (Ident.ofIndex b.nodes.size : NodeId).index <
          ((b.add i).1.setBottom after (.ofIndex b.nodes.size)).nodes.size := by
        omega
      obtain ⟨hnodes, hlast⟩ := ih hnext (hrest ▸ List.cons_ne_nil _ _) (by omega)
      rw [hgrown] at hnodes hlast
      refine ⟨?_, ?_⟩
      · have hlength : (b.setBottom after (.ofIndex b.nodes.size)).nodes.toList.length =
            b.nodes.size := by
          rw [Array.length_toList, size_setBottom]
        -- the node that has just been appended is the one below which the rest is chained
        rw [hnodes, setBottom, Array.toList_modify, hlist, hindex, modify_append_last hlength,
          hrest, List.append_assoc]
        rfl
      · rw [hlast, List.length_cons]
        congr 2
        omega

/-! ### Which chains do what they say -/

theorem chains_of_lt (hafter : after.index < b.nodes.size) (hne : steps ≠ [])
    (hsize : b.nodes.size + steps.length ≤ UInt32.size)
    (hlast : (b.chain after steps).2 = .ok last) :
    b.Chains after steps (b.chain after steps).1 last := by
  obtain ⟨hnodes, hok⟩ := chain_eq hafter hne hsize
  have hpos : 0 < steps.length := List.length_pos_iff.mpr hne
  have hlength : (b.setBottom after (.ofIndex b.nodes.size)).nodes.toList.length =
      b.nodes.size := by
    rw [Array.length_toList, size_setBottom]
  have hold : ∀ j < b.nodes.size, (b.chain after steps).1.nodes[j]? =
      if after.index = j then
        b.nodes[j]?.map fun n => { n with bottom := some (.ofIndex b.nodes.size) }
      else b.nodes[j]? := by
    intro j hj
    rw [← Array.getElem?_toList, hnodes, List.getElem?_append_left (by omega),
      Array.getElem?_toList]
    exact Array.getElem?_modify
  have hnew : ∀ i, (b.chain after steps).1.nodes[b.nodes.size + i]? =
      (chainNodes b.nodes.size steps)[i]? := by
    intro i
    rw [← Array.getElem?_toList, hnodes, List.getElem?_append_right (by omega), hlength,
      Nat.add_sub_cancel_left]
  constructor
  case size_eq =>
    rw [← Array.length_toList, hnodes, List.length_append, hlength, length_chainNodes]
  case below =>
    have hat := Array.getElem?_eq_getElem hafter
    refine ⟨_, .ofIndex b.nodes.size, hat, Ident.index_ofIndex (by omega), ?_⟩
    rw [hold _ hafter, if_pos rfl, hat, Option.map_some]
  case step =>
    intro i instruction hi
    have hlt := (List.getElem?_eq_some_iff.mp hi).1
    refine ⟨_, (hnew i).trans (by rw [getElem?_chainNodes, hi, Option.map_some]), rfl, rfl, rfl,
      rfl, ?_⟩
    dsimp only
    split_ifs with hnext
    · rw [Option.map_some, Ident.index_ofIndex (by omega)]
    · rfl
  case last_eq =>
    rw [Except.ok.inj (hlast.symm.trans hok), Ident.index_ofIndex (by omega)]
  case same =>
    intro j hj hne
    rw [hold j hj, if_neg hne.symm]

theorem unlinked_add (b : Builder) (i : Instruction) : b.Unlinked (b.add i).1 := by
  unfold add
  constructor
  case same =>
    intro j hj
    rw [Array.getElem?_push, if_neg (Nat.ne_of_lt hj)]
  case bare =>
    intro j node hj hnode
    rw [Array.getElem?_push] at hnode
    split_ifs at hnode with hlast
    · obtain rfl := Option.some.inj hnode
      exact ⟨rfl, rfl⟩
    · rw [Array.getElem?_eq_none hj] at hnode
      cases hnode

/-- As long as 32 bits hold the numbers of all nodes, every chain does what it says or is refused,
but for the chains below the number that their own first node takes. -/
theorem chainsOrRefuses_iff (hne : steps ≠ []) : b.ChainsOrRefuses after steps ↔
    b.nodes.size < after.index ∨
      after.index < b.nodes.size ∧ b.nodes.size + steps.length ≤ 2 ^ 32 := by
  constructor
  · intro h
    rcases Nat.lt_trichotomy after.index b.nodes.size with hlt | heq | hlt
    · obtain ⟨last, hlast⟩ := exists_chain_eq_ok steps hlt
      -- the last number is one of 32 bits
      have hindex := (h.chains last hlast).2.last_eq
      have hbits : last.index < 2 ^ 32 := last.index_lt
      exact Or.inr ⟨hlt, by omega⟩
    · obtain ⟨last, hlast⟩ := exists_chain_eq_ok_of_eq steps heq
      exact absurd (h.chains last hlast).1 (Nat.not_lt.mpr (Nat.le_of_eq heq.symm))
    · exact Or.inl hlt
  · rintro (hlt | ⟨hlt, hsize⟩)
    · obtain ⟨i, rest, rfl⟩ := List.exists_cons_of_ne_nil hne
      have hchain := chain_cons_of_le i rest hlt
      constructor
      · intro last hlast
        rw [hchain] at hlast
        cases hlast
      · intro hle
        rw [hchain]
        exact ⟨⟨_, rfl⟩, unlinked_add b i⟩
    · constructor
      · intro last hlast
        exact ⟨hlt, chains_of_lt hlt hne hsize hlast⟩
      · intro hle
        omega

/-- A builder whose only node is the head of a program. -/
def onlyHead : Builder :=
  (empty.add ⟨.entry, .root, ""⟩).1

/-- A step that moves. -/
def moveStep : Instruction :=
  ⟨.basic, .move, ""⟩

/-- Chains below the head and far from it are as they are to be, and a chain right behind it is
not. -/
theorem chainsOrRefuses_onlyHead : [moveStep, moveStep] ≠ [] ∧
    onlyHead.ChainsOrRefuses ⟨0⟩ [moveStep, moveStep] ∧
    onlyHead.ChainsOrRefuses ⟨2⟩ [moveStep, moveStep] ∧
    ¬ onlyHead.ChainsOrRefuses ⟨1⟩ [moveStep, moveStep] := by
  have hne : [moveStep, moveStep] ≠ [] := List.cons_ne_nil _ _
  refine ⟨hne, (chainsOrRefuses_iff hne).mpr (Or.inr ⟨by decide, by decide⟩),
    (chainsOrRefuses_iff hne).mpr (Or.inl (by decide)), fun h => ?_⟩
  rcases (chainsOrRefuses_iff hne).mp h with hlt | ⟨hlt, -⟩
  · exact absurd hlt (by decide)
  · exact absurd hlt (by decide)

/-- A chain of one node can hang below itself. -/
theorem exists_chain_below_itself :
    ∃ (b : Builder) (after : NodeId) (i : Instruction) (built : Builder) (node : Node),
      b.nodes.size = after.index ∧ b.chain after [i] = (built, .ok after) ∧
      built.nodes[after.index]? = some node ∧ node.bottom = some after ∧
      ¬ b.ChainsOrRefuses after [i] := by
  refine ⟨onlyHead, ⟨1⟩, moveStep, _, _, rfl, rfl, rfl, rfl, fun h => ?_⟩
  have hexists := (h.chains ⟨1⟩ rfl).1
  exact absurd hexists (by decide)

end Builder

end TileWalk
