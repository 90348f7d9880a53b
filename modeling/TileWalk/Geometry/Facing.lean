import TileWalk.Geometry.Vector

/-!
# Facings and sides

An agent faces one of four diagonals of the screen. Facings are numbered from `0` to `3` so that
one more is a quarter turn to the left, modulo four, and the forward vector turns along with the
facing (`turnLeft_vector`). A side is a direction as the agent sees it: front, left, back and right,
numbered by the left turns that bring the front there.
-/

namespace TileWalk

/-! ### Facings -/

/-- A direction on the board. -/
inductive Facing
  | southEast
  | northEast
  | northWest
  | southWest
  deriving DecidableEq, Repr, Inhabited

namespace Facing

/-- The facings in the order of their numbers. -/
def all : List Facing :=
  [southEast, northEast, northWest, southWest]

/-- The number of a facing, from `0` to `3`. -/
def value : Facing → Nat
  | southEast => 0
  | northEast => 1
  | northWest => 2
  | southWest => 3

/-- The facing with a number. -/
def ofNat? : Nat → Option Facing
  | 0 => some southEast
  | 1 => some northEast
  | 2 => some northWest
  | 3 => some southWest
  | _ => none

/-- A number that names no facing. -/
structure Invalid where
  raw : UInt32
  deriving DecidableEq, Repr

/-- The wording of the refusal of a number. -/
def Invalid.message (e : Invalid) : String :=
  "invalid facing " ++ toString e.raw.toNat ++ ": expected 0..=3"

/-- The facing with a number, or the number that was refused. -/
def ofRaw (raw : UInt32) : Except Invalid Facing :=
  match ofNat? raw.toNat with
  | some f => .ok f
  | none => .error ⟨raw⟩

/-- The name of a facing. -/
def name : Facing → String
  | southEast => "SouthEast"
  | northEast => "NorthEast"
  | northWest => "NorthWest"
  | southWest => "SouthWest"

/-- The step forward. -/
def vector : Facing → Vec
  | southEast => ⟨1, 0⟩
  | northEast => ⟨0, -1⟩
  | northWest => ⟨-1, 0⟩
  | southWest => ⟨0, 1⟩

/-- The facing after a quarter turn to the left. -/
def left : Facing → Facing
  | southEast => northEast
  | northEast => northWest
  | northWest => southWest
  | southWest => southEast

/-- The facing after a half turn. -/
def back (f : Facing) : Facing :=
  f.left.left

/-- The facing after a quarter turn to the right. -/
def right (f : Facing) : Facing :=
  f.left.left.left

/-- The facing after any number of quarter turns to the left. -/
def rotate (f : Facing) : Nat → Facing
  | 0 => f
  | n + 1 => (f.rotate n).left

/-- The facing after `n` quarter turns to the left, where the number of the facing and the number
of turns are added as bytes. -/
def turned (f : Facing) (n : UInt8) : Except Fault Facing :=
  if f.value + n.toNat < UInt8.size then .ok (f.rotate (n.toNat % 4)) else .error .addOverflow

@[simp]
theorem ofNat?_value (f : Facing) : ofNat? f.value = some f := by
  cases f <;> rfl

theorem ofNat?_eq_some_iff {n : Nat} {f : Facing} : ofNat? n = some f ↔ n = f.value := by
  constructor
  · intro h
    unfold ofNat? at h
    split at h <;> cases h <;> rfl
  · rintro rfl
    exact ofNat?_value f

theorem ofRaw_eq_ok_iff {raw : UInt32} {f : Facing} : ofRaw raw = .ok f ↔ raw.toNat = f.value := by
  rw [← ofNat?_eq_some_iff]
  unfold ofRaw
  split <;> simp_all

theorem value_lt (f : Facing) : f.value < 4 := by
  cases f <;> decide

@[simp]
theorem left_left_left_left (f : Facing) : f.left.left.left.left = f := by
  cases f <;> rfl

theorem value_left (f : Facing) : f.left.value = (f.value + 1) % 4 := by
  cases f <;> rfl

/-- The forward vector turns with the facing. -/
theorem turnLeft_vector (f : Facing) : f.vector.turnLeft = .ok f.left.vector := by
  cases f <;> rfl

end Facing

/-! ### Sides -/

/-- A direction relative to a facing. -/
inductive Side
  | front
  | left
  | back
  | right
  deriving DecidableEq, Repr, Inhabited

namespace Side

/-- The sides in the order of their numbers. -/
def all : List Side :=
  [front, left, back, right]

/-- The number of a side: how many left turns bring the front there. -/
def index : Side → Nat
  | front => 0
  | left => 1
  | back => 2
  | right => 3

/-- The name of a side. -/
def name : Side → String
  | front => "Front"
  | left => "Left"
  | back => "Back"
  | right => "Right"

end Side

end TileWalk
