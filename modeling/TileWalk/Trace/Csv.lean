import TileWalk.File
import TileWalk.Number.Fixed
import TileWalk.Trace.Buffer
import TileWalk.Trace.Writer

/-!
# Traces as comma-separated values

The two tables of a trace as files: a header, then a record for each row in the order in which the
rows came. Fields are separated by commas and records end with a line feed. A field that contains a
comma, a quote or an end of line stands between quotes, and each quote in it is written twice.

Each file stands behind a buffer. The first call of `finish` flushes both; a later one does nothing,
so what is written after the first one may wait in the buffers until the writer is gone. A directory
that exists can be written to, and once the files are there no call fails.
-/

namespace TileWalk.Trace

namespace Csv

/-! ### Records -/

/-- The field has to stand between quotes. -/
def needsQuotes (cs : List Char) : Bool :=
  cs.any fun c => c = ',' || c = '\"' || c = '\r' || c = '\n'

/-- A field as it stands in a record. -/
def field (cs : List Char) : List Char :=
  if needsQuotes cs then
    ['\"'] ++ cs.flatMap (fun c => if c = '\"' then ['\"', '\"'] else [c]) ++ ['\"']
  else
    cs

/-- A record of at least two fields. -/
def record (fields : List String) : List Char :=
  List.intercalate [','] (fields.map fun s => field s.toList) ++ ['\n']

/-! ### Rows -/

/-- The header of the table of states. -/
def snapshotHeader : List String :=
  [ "agent_id", "tick", "x", "y", "facing", "phase", "remain_frames", "fx", "fy", "front", "left",
    "right", "back" ]

/-- The header of the table of happenings. -/
def eventHeader : List String :=
  ["tick", "agent_id", "event", "detail"]

/-- A place between two cells, with four places after the point. -/
def placeText (f : Float32) : String :=
  Number.fixedText 4 (Number.Binary.ofBits .single f.toBits.toNat)

/-- A flag as a digit. -/
def flagText (b : Bool) : String :=
  if b then "1" else "0"

/-- The fields of a state, in the order of the header. -/
def snapshotFields (r : SnapshotRow) : List String :=
  [ toString r.agentId.toNat, toString r.tick.toNat, coordText r.x, coordText r.y,
    toString r.facing, r.phase, toString r.remainFrames.toNat, placeText r.fx, placeText r.fy,
    flagText r.front, flagText r.left, flagText r.right, flagText r.back ]

/-- The fields of a happening, in the order of the header. -/
def eventFields (r : EventRow) : List String :=
  [toString r.tick.toNat, toString r.agentId.toNat, r.event, r.detail]

/-- Writes a record behind the others. -/
def writeRecord (fields : List String) (b : Buffered) : Buffered :=
  b.write (String.ofList (record fields)).toUTF8

end Csv

/-! ### The writer -/

/-- The files of the two tables. -/
structure CsvTables where
  snapshots : Buffered
  events : Buffered
  /-- Both have been flushed by a call. -/
  finished : Bool

namespace CsvTables

/-- The tables with nothing but their headers, each behind a buffer that spills in a way of its
own. -/
def ofSpills (snapshotSpill eventSpill : Nat → Nat) : CsvTables where
  snapshots := Csv.writeRecord Csv.snapshotHeader (.ofSpill snapshotSpill)
  events := Csv.writeRecord Csv.eventHeader (.ofSpill eventSpill)
  finished := false

/-- The tables in a directory, which has to exist. -/
def createWith (snapshotSpill eventSpill : Nat → Nat) (directoryExists : Bool) :
    Except Error CsvTables :=
  if directoryExists then .ok (ofSpills snapshotSpill eventSpill)
  else .error (.csv File.missingText)

/-- The tables behind buffers that wait for a flush. -/
def empty : CsvTables :=
  ofSpills (fun _ => 0) fun _ => 0

/-- Such tables in a directory. -/
def create : (directoryExists : Bool) → Except Error CsvTables :=
  createWith (fun _ => 0) fun _ => 0

/-- The rows of one tick, one record after the other. -/
def writeSnapshots (rows : List SnapshotRow) (b : Buffered) : Buffered :=
  rows.foldl (fun b r => Csv.writeRecord (Csv.snapshotFields r) b) b

/-- What is left of the tables when the writer is gone: both buffers are flushed at last. -/
def close (t : CsvTables) : CsvTables :=
  { t with snapshots := t.snapshots.flush, events := t.events.flush }

instance : Writer CsvTables where
  snapshots rows t := ({ t with snapshots := writeSnapshots rows t.snapshots }, .ok ())
  event r t := ({ t with events := Csv.writeRecord (Csv.eventFields r) t.events }, .ok ())
  finish t := if t.finished then (t, .ok ()) else ({ t.close with finished := true }, .ok ())

/-- The table of states when the writer is gone. -/
def snapshotText (t : CsvTables) : String :=
  t.close.snapshots.text?.getD ""

/-- The table of happenings when the writer is gone. -/
def eventText (t : CsvTables) : String :=
  t.close.events.text?.getD ""

end CsvTables

end TileWalk.Trace
