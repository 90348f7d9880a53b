import TileWalk.Showcase

/-!
# The command line

`ring [program [directory [configuration]]]` prints the report of the showcase and writes the
tables of the trace into the directory. All there is here is files, arguments, the clock and the
two outputs.
-/

namespace TileWalk.CommandLine

/-- The file under a path, as it is found now. -/
def readFile (path : String) : IO File := do
  try
    let bytes ← IO.FS.readBinFile path
    return ⟨path, some (Json.Payload.ofBytes bytes.toList)⟩
  catch _ =>
    return ⟨path, none⟩

/-- Writes the tables of a trace into a directory, which is made if it does not exist. -/
def writeTables (dir : String) (tables : Trace.CsvTables) : IO Unit := do
  IO.FS.createDirAll dir
  IO.FS.writeFile (dir ++ "/agent_snapshots.csv") tables.snapshotText
  IO.FS.writeFile (dir ++ "/run_events.csv") tables.eventText

/-- A span of time in milliseconds with three places, given in nanoseconds. -/
def elapsedText (nanoseconds : Nat) : String :=
  let microseconds := Number.roundDiv nanoseconds 1000
  toString (microseconds / 1000) ++ "."
    ++ String.ofList (Number.paddedDigits 3 (microseconds % 1000)) ++ " ms"

/-- Answers the request that the arguments make, and gives the exit code. -/
def run (args : List String) : IO UInt32 := do
  let program ← args[0]?.mapM readFile
  let traceDir := args[1]?
  let config ← args[2]?.mapM readFile
  let began ← IO.monoNanosNow
  let report ← IO.lazyPure fun () => Showcase.Request.report ⟨program, traceDir, config⟩
  let tables := report.tables
  let ended ← IO.monoNanosNow
  if let (some dir, some tables) := (traceDir, tables) then
    writeTables dir tables
  IO.print (report.text (elapsedText (ended - began)))
  for line in report.errors do
    IO.eprintln line
  return report.exitCode

end TileWalk.CommandLine

def main (args : List String) : IO UInt32 :=
  TileWalk.CommandLine.run args
