import TileWalk.Proofs.Program.Closed

/-!
# Well-formed programs

In a program that can be had every node stands at the place of its number, every link leads to a
node, and what the tables name is there and is what they say (`Program.obtainable_isWellFormed`).

A use of a builder changes it step by step, and a fault stops it wherever it has come to. So a use
is written once more as it happens (`Builder.InPlace`): a link looks at the builder before it
changes it, and a chain is a loop of nodes and links. The builder that a use leaves is the same
(`Builder.perform_eq`), and a link that is refused leaves the builder as it was
(`Builder.eq_of_link_eq_error`).
-/

namespace TileWalk

namespace Builder

variable {b left : Builder} {source target after : NodeId} {fault : Fault}

/-! ### Uses as they happen -/

/-- What is done to a builder until a fault stops it. -/
abbrev InPlace (α : Type) :=
  ExceptT Fault (StateM Builder) α

namespace InPlace

/-- Appends a node without links. -/
def add (i : Instruction) : InPlace NodeId :=
  modifyGet fun b => ((b.add i).2, (b.add i).1)

/-- Refuses a link between nodes that do not exist. -/
def checkLink (source target : NodeId) : InPlace Unit := do
  let b ← get
  ofExcept (b.checkLink source target)

/-- Sets the right link of a node. -/
def linkRight (source target : NodeId) : InPlace Unit := do
  checkLink source target
  modify fun b => b.setRight source target

/-- Sets the bottom link of a node. -/
def linkBottom (source target : NodeId) : InPlace Unit := do
  checkLink source target
  modify fun b => b.setBottom source target

/-- Appends nodes one below the other, each of them linked as soon as it is there. -/
def chain (last : NodeId) : List Instruction → InPlace NodeId
  | [] => return last
  | i :: rest => do
    let next ← add i
    linkBottom last next
    chain next rest

/-- A use of a builder. -/
def ofCall : Call → InPlace Unit
  | .add i => discard (add i)
  | .linkRight source target => linkRight source target
  | .linkBottom source target => linkBottom source target
  | .chain after instructions => discard (chain after instructions)

/-- What is done to a builder, and the builder that it leaves. -/
def on {α : Type} (x : InPlace α) (b : Builder) : Except Fault α × Builder :=
  x.run.run b

theorem on_bind {α β : Type} (x : InPlace α) (f : α → InPlace β) (b : Builder) :
    (x >>= f).on b =
      match x.on b with
      | (.ok a, left) => (f a).on left
      | (.error fault, left) => (.error fault, left) := by
  show (match x b with | (a, left) => ExceptT.bindCont f a left : Except Fault β × Builder) = _
  show _ = (match x b with | (.ok a, left) => (f a).on left | (.error fault, left) => _)
  rcases x b with ⟨a | fault, left⟩ <;> rfl

theorem on_checkLink (source target : NodeId) (b : Builder) :
    (checkLink source target).on b = (b.checkLink source target, b) := by
  show (ofExcept (b.checkLink source target) : InPlace Unit).on b = _
  cases b.checkLink source target <;> rfl

theorem on_linkRight (source target : NodeId) (b : Builder) : (linkRight source target).on b =
    match b.linkRight source target with
    | .ok linked => (.ok (), linked)
    | .error fault => (.error fault, b) := by
  unfold linkRight Builder.linkRight
  rw [on_bind, on_checkLink]
  cases b.checkLink source target <;> rfl

theorem on_linkBottom (source target : NodeId) (b : Builder) : (linkBottom source target).on b =
    match b.linkBottom source target with
    | .ok linked => (.ok (), linked)
    | .error fault => (.error fault, b) := by
  unfold linkBottom Builder.linkBottom
  rw [on_bind, on_checkLink]
  cases b.checkLink source target <;> rfl

theorem on_chain (after : NodeId) (steps : List Instruction) (b : Builder) :
    (chain after steps).on b = ((b.chain after steps).2, (b.chain after steps).1) := by
  induction steps generalizing after b with
  | nil => rfl
  | cons i rest ih =>
    rw [chain, on_bind]
    show (linkBottom after (b.add i).2 >>= fun _ => chain (b.add i).2 rest).on (b.add i).1 = _
    rw [on_bind, on_linkBottom, Builder.chain, Builder.linkBottom]
    dsimp only
    cases (b.add i).1.checkLink after (b.add i).2 with
    | error fault => rfl
    | ok u => exact ih _ _

end InPlace

/-- A use of a builder leaves the builder that it is said to leave. -/
theorem perform_eq (b : Builder) (call : Call) :
    b.perform call = ((InPlace.ofCall call).on b).2 := by
  cases call with
  | add i => rfl
  | linkRight source target =>
    rw [perform, InPlace.ofCall, InPlace.on_linkRight]
    cases b.linkRight source target <;> rfl
  | linkBottom source target =>
    rw [perform, InPlace.ofCall, InPlace.on_linkBottom]
    cases b.linkBottom source target <;> rfl
  | chain after instructions =>
    show _ = ((InPlace.chain after instructions >>= fun _ => pure ()).on b).2
    rw [perform, InPlace.on_bind, InPlace.on_chain]
    cases (b.chain after instructions).2 <;> rfl

/-- A use that sets one link. -/
def Call.IsLink : Call → Prop
  | .linkRight _ _ => True
  | .linkBottom _ _ => True
  | _ => False

/-- A link that is refused leaves the builder as it was. -/
theorem eq_of_link_eq_error {call : Call} (hlink : call.IsLink)
    (h : (InPlace.ofCall call).on b = (.error fault, left)) : left = b := by
  cases call with
  | add i => exact hlink.elim
  | chain after instructions => exact hlink.elim
  | linkRight source target =>
    rw [InPlace.ofCall, InPlace.on_linkRight] at h
    split at h
    · cases h
    · exact (Prod.mk.inj h).2.symm
  | linkBottom source target =>
    rw [InPlace.ofCall, InPlace.on_linkBottom] at h
    split at h
    · cases h
    · exact (Prod.mk.inj h).2.symm

end Builder

/-! ### Well-formed programs -/

namespace Program

variable {p : Program}

/-- Every number in the program is the number of what it is said to number. -/
structure IsWellFormed (p : Program) : Prop where
  /-- Every node stands at the place of its number. -/
  index_eq : ∀ (i : Nat) (n : Node), p.nodes[i]? = some n → n.id.index = i
  right_lt : ∀ n ∈ p.nodes, ∀ target, n.right = some target → target.index < p.size
  bottom_lt : ∀ n ∈ p.nodes, ∀ target, n.bottom = some target → target.index < p.size
  root_lt : ∀ id, p.root = some id →
    id.index < p.size ∧ ∃ n, p.node? id = some n ∧ n.command = .root
  functionEntry_lt : ∀ f id, p.functionEntry? f = some id →
    id.index < p.size ∧ ∃ n, p.node? id = some n ∧ n.command = .funcStart

theorem IsClosed.isWellFormed (h : p.IsClosed) : p.IsWellFormed where
  index_eq := by
    intro i n hn
    obtain ⟨hi, rfl⟩ := Array.getElem?_eq_some_iff.mp hn
    exact h.index_getElem i hi
  right_lt := by
    intro n hn
    obtain ⟨i, hi⟩ := Array.mem_iff_getElem?.mp hn
    exact (h.linked i n hi).2.1
  bottom_lt := by
    intro n hn
    obtain ⟨i, hi⟩ := Array.mem_iff_getElem?.mp hn
    exact (h.linked i n hi).2.2
  root_lt := fun _ hroot => ⟨h.root_lt hroot, h.exists_node?_of_root hroot⟩
  functionEntry_lt := by
    intro f id hf
    obtain ⟨n, hn, hdeclared⟩ := h.exists_node?_of_functionEntry? hf
    exact ⟨h.functionEntry?_lt hf, n, hn, (Node.declared?_eq_some_iff.mp hdeclared).2.1⟩

/-- Programs are well formed, whether they were built, by calls some of which may have ended in
faults, or loaded; and a link that is refused changes nothing. -/
theorem obtainable_isWellFormed :
    (∀ calls, (Builder.ofCalls calls).nodes.size < 2 ^ 32 →
      (Builder.ofCalls calls).build.IsWellFormed) ∧
    (∀ payload p, ofPayload payload = .ok p → p.IsWellFormed) ∧
    ∀ (b : Builder) (call : Builder.Call),
      b.perform call = ((Builder.InPlace.ofCall call).on b).2 ∧
      ∀ fault left, call.IsLink → (Builder.InPlace.ofCall call).on b = (.error fault, left) →
        left = b := by
  refine ⟨fun calls hsize => ?_, fun payload p hp => ?_, fun b call => ⟨b.perform_eq call, ?_⟩⟩
  · exact (IsObtainable.built calls rfl hsize).isClosed.isWellFormed
  · exact (IsObtainable.loaded payload hp).isClosed.isWellFormed
  · exact fun fault left hlink h => Builder.eq_of_link_eq_error hlink h

/-- Two links that are refused, a chain that ends in a fault behind its first node, and a link to
the node that the chain has left. -/
def refusedCalls : List Builder.Call :=
  [.add ⟨.entry, .root, ""⟩, .linkRight ⟨7⟩ ⟨0⟩, .linkBottom ⟨0⟩ ⟨7⟩,
    .chain ⟨9⟩ [⟨.entry, .funcStart, "1"⟩, ⟨.basic, .move, ""⟩], .linkBottom ⟨0⟩ ⟨1⟩]

/-- A document that draws the head of a program. -/
def headPayload : Json.Payload :=
  .ofString "[[null, [\"EntryBrick\", \"CommandNOP\"]]]"

theorem obtainable_isWellFormed_refused :
    (Builder.ofCalls refusedCalls).nodes.size = 2 ∧
      (Builder.ofCalls refusedCalls).build.IsWellFormed ∧
      (∃ p, ofPayload headPayload = .ok p ∧ p.size = 1 ∧ p.IsWellFormed) ∧
      ∃ b left : Builder, b.nodes.size = 2 ∧ (Builder.Call.linkRight ⟨7⟩ ⟨0⟩).IsLink ∧
        (Builder.InPlace.linkRight ⟨7⟩ ⟨0⟩).on b = (.error (.linkSource ⟨7⟩), left) ∧ left = b := by
  obtain ⟨hbuilt, hloaded, hcall⟩ := obtainable_isWellFormed
  refine ⟨rfl, hbuilt refusedCalls (by decide), ⟨_, rfl, rfl, hloaded headPayload _ rfl⟩,
    Builder.ofCalls refusedCalls, _, rfl, trivial, rfl, ?_⟩
  exact (hcall _ (.linkRight ⟨7⟩ ⟨0⟩)).2 _ _ trivial rfl

end Program

end TileWalk
