import TileWalk.Agent.Motion
import TileWalk.Board.Basic
import TileWalk.Config
import TileWalk.Json.Record
import TileWalk.Tick

/-!
# Interchange of values

How the values of the domain are written as documents and read back. Numbers stand for themselves,
facings and sides are written by name, and records have a member for each field, in the order of the
fields. Only a configuration may leave members out: what is missing keeps its standard value.
-/

namespace TileWalk

/-- A type whose values are exchanged as documents. -/
class Interchange (α : Type) where
  /-- The compact text of a value. -/
  write : α → String
  /-- Reads a value. -/
  read : Json.Reader α

namespace Interchange

open Json

/-- Reads a value from a whole document. -/
def ofPayload {α : Type} [Interchange α] (p : Json.Payload) : Except Json.Failure α :=
  Json.document read p

/-- A field of type `α` of a record that is read into drafts of type `δ`. -/
def field {δ α : Type} [Interchange α] (name : String) (get : δ → Option α) (set : δ → α → δ) :
    RecordField δ where
  name
  isSet draft := (get draft).isSome
  read draft depth p := do
    let (a, p) ← read depth p
    return (set draft a, p)

/-! ### Words -/

instance : Interchange UInt32 where
  write n := toString n.toNat
  read depth p := do
    let (n, p) ← Json.integer 0 UInt32.size depth p
    return (UInt32.ofNat n.toNat, p)

instance : Interchange UInt64 where
  write n := toString n.toNat
  read depth p := do
    let (n, p) ← Json.integer 0 UInt64.size depth p
    return (UInt64.ofNat n.toNat, p)

instance : Interchange Int32 where
  write n := coordText n
  read depth p := do
    let (n, p) ← Json.integer Int32.minValue.toInt (Int32.maxValue.toInt + 1) depth p
    return (Int32.ofInt n, p)

instance : Interchange Bool where
  write b := if b then "true" else "false"
  read := Json.truth

/-! ### Numbers with a meaning -/

instance : Interchange Tick where
  write t := write t.count
  read depth p := do
    let (n, p) ← read depth p
    return (⟨n⟩, p)

instance {r : Realm} : Interchange (Ident r) where
  write i := write i.val
  read depth p := do
    let (n, p) ← read depth p
    return (⟨n⟩, p)

instance : Interchange Cell where
  write c := write c.bits
  read depth p := do
    let (n, p) ← read depth p
    return (⟨n⟩, p)

/-! ### Choices -/

instance : Interchange Facing where
  write f := Json.quote f.name
  read := Json.choice (Facing.all.map fun f => (f.name, f))

instance : Interchange Side where
  write s := Json.quote s.name
  read := Json.choice (Side.all.map fun s => (s.name, s))

/-! ### Records -/

/-- A pair of coordinates that is being read. -/
structure PairDraft where
  x : Option Int32
  y : Option Int32

/-- The fields of a pair of coordinates. -/
def pairFields : List (RecordField PairDraft) :=
  [ field "x" PairDraft.x fun d x => { d with x := some x },
    field "y" PairDraft.y fun d y => { d with y := some y } ]

instance : Interchange Vec where
  write v := Json.braced [("x", write v.x), ("y", write v.y)]
  read := Record.read pairFields ⟨none, none⟩ fun d => return ⟨← d.x, ← d.y⟩

instance : Interchange Pos where
  write p := Json.braced [("x", write p.x), ("y", write p.y)]
  read := Record.read pairFields ⟨none, none⟩ fun d => return ⟨← d.x, ← d.y⟩

/-- A starting place that is being read. -/
structure SpawnDraft where
  pos : Option Pos
  facing : Option Facing

instance : Interchange Spawn where
  write s := Json.braced [("pos", write s.pos), ("facing", write s.facing)]
  read :=
    Record.read
      [ field "pos" SpawnDraft.pos fun d pos => { d with pos := some pos },
        field "facing" SpawnDraft.facing fun d facing => { d with facing := some facing } ]
      ⟨none, none⟩
      fun d => return ⟨← d.pos, ← d.facing⟩

/-- Openings that are being read. -/
structure OpeningsDraft where
  front : Option Bool
  left : Option Bool
  back : Option Bool
  right : Option Bool

instance : Interchange Openings where
  write o :=
    Json.braced
      [ ("front", write o.front), ("left", write o.left), ("back", write o.back),
        ("right", write o.right) ]
  read :=
    Record.read
      [ field "front" OpeningsDraft.front fun d b => { d with front := some b },
        field "left" OpeningsDraft.left fun d b => { d with left := some b },
        field "back" OpeningsDraft.back fun d b => { d with back := some b },
        field "right" OpeningsDraft.right fun d b => { d with right := some b } ]
      ⟨none, none, none, none⟩
      fun d => return ⟨← d.front, ← d.left, ← d.back, ← d.right⟩

/-- A motion that is being read. -/
structure MotionDraft where
  origin : Option Pos
  dir : Option Vec
  total : Option UInt32
  remaining : Option UInt32

instance : Interchange Motion where
  write m :=
    Json.braced
      [ ("from", write m.origin), ("dir", write m.dir), ("total", write m.total),
        ("remaining", write m.remaining) ]
  read :=
    Record.read
      [ field "from" MotionDraft.origin fun d p => { d with origin := some p },
        field "dir" MotionDraft.dir fun d v => { d with dir := some v },
        field "total" MotionDraft.total fun d n => { d with total := some n },
        field "remaining" MotionDraft.remaining fun d n => { d with remaining := some n } ]
      ⟨none, none, none, none⟩
      fun d => return ⟨← d.origin, ← d.dir, ← d.total, ← d.remaining⟩

/-- A configuration that is being read. -/
structure ConfigDraft where
  moveFrames : Option UInt32
  maxTicks : Option UInt64
  snapshotInterval : Option UInt64

/-- The configuration with the numbers of a draft, and standard numbers where the draft has none. -/
def ConfigDraft.complete (d : ConfigDraft) : Config :=
  ⟨d.moveFrames.getD Config.standard.moveFrames, d.maxTicks.getD Config.standard.maxTicks,
    d.snapshotInterval.getD Config.standard.snapshotInterval⟩

/-- The fields of a configuration. -/
def configFields : List (RecordField ConfigDraft) :=
  [ field "move_frames" ConfigDraft.moveFrames fun d n => { d with moveFrames := some n },
    field "max_ticks" ConfigDraft.maxTicks fun d n => { d with maxTicks := some n },
    field "snapshot_interval_ticks" ConfigDraft.snapshotInterval
      fun d n => { d with snapshotInterval := some n } ]

instance : Interchange Config where
  write c :=
    Json.braced
      [ ("move_frames", write c.moveFrames), ("max_ticks", write c.maxTicks),
        ("snapshot_interval_ticks", write c.snapshotInterval) ]
  read := Record.read configFields ⟨none, none, none⟩ fun d => some d.complete

end Interchange

end TileWalk
