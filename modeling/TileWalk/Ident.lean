/-!
# Identifiers

Agents, items and program nodes are numbered from zero in the order in which they are found. A
number is written with the name of what it numbers, as in `AgentId(3)`, so that an agent's number
is never read as a node's. The main statement is `index_ofIndex`: while 32 bits hold the position a
number names the position it was made from.
-/

namespace TileWalk

/-- What an identifier numbers. -/
inductive Realm
  | agent
  | item
  | node
  deriving DecidableEq, Repr

/-- The name under which the identifiers of a realm are written. -/
def Realm.name : Realm → String
  | .agent => "AgentId"
  | .item => "ItemId"
  | .node => "NodeId"

/-- The number of a member of a realm. -/
@[ext]
structure Ident (r : Realm) where
  /-- The number itself, which has 32 bits. -/
  val : UInt32
  deriving DecidableEq, Repr

/-- The number of an agent, in the order of the board's spawns. -/
abbrev AgentId := Ident .agent

/-- The number of an item, in the order of the board's item cells. -/
abbrev ItemId := Ident .item

/-- The number of a program node, in the order of the program. -/
abbrev NodeId := Ident .node

namespace Ident

variable {r : Realm}

/-- The position of the member in its list. -/
def index (i : Ident r) : Nat :=
  i.val.toNat

/-- The number of the member at position `n`; positions are counted modulo `2 ^ 32`. -/
def ofIndex (n : Nat) : Ident r :=
  ⟨UInt32.ofNat n⟩

/-- The number of the member at position `n`, if 32 bits hold it. -/
def ofIndex? (n : Nat) : Option (Ident r) :=
  if n < UInt32.size then some (ofIndex n) else none

/-- The wording for a position that 32 bits do not hold. -/
def tooLargeText : String :=
  "number too large to fit in target type"

/-- The written form, such as `NodeId(0)`. -/
def text (i : Ident r) : String :=
  r.name ++ "(" ++ toString i.index ++ ")"

/-- Numbers of one realm are ordered as positions. -/
def order (i j : Ident r) : Ordering :=
  compare i.index j.index

theorem index_lt (i : Ident r) : i.index < UInt32.size :=
  i.val.toNat_lt

theorem index_ofIndex {n : Nat} (h : n < UInt32.size) : (ofIndex n : Ident r).index = n :=
  UInt32.toNat_ofNat_of_lt' h

@[simp]
theorem ofIndex_index (i : Ident r) : ofIndex i.index = i := by
  ext1
  exact UInt32.ofNat_toNat

theorem index_inj {i j : Ident r} : i.index = j.index ↔ i = j :=
  ⟨fun h => by rw [← ofIndex_index i, h, ofIndex_index], fun h => h ▸ rfl⟩

end Ident

end TileWalk
