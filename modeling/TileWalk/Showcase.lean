import TileWalk.Board.Projection
import TileWalk.Interchange
import TileWalk.Simulation.Run
import TileWalk.Text.Column
import TileWalk.Trace.Csv

/-!
# The showcase

One program runs on the reference board, and a report tells what happened: the board and the
program, what the agents collected and how they stopped, and where everybody stands at the end. The
program comes from a file or is the built-in one, which walks to the right edge of the ring, calls
a function that sweeps the edge, and stops where the edge ends. A trace of the run and a
configuration from a file are optional.

A report that fails keeps the lines that were written before the failure.
-/

namespace TileWalk

namespace Showcase

open Trace (CsvTables)

/-! ### The built-in program -/

/-- The head of a brick with an argument in text. -/
def head (kind command argument : String) : Head :=
  ⟨kind, command, .string argument⟩

/-- The head of a basic brick. -/
def basic (command : String) : Head :=
  head "BasicBrick" command ""

/-- Bricks below each other, and a link below the last of them. -/
def stack : List Head → Link → Link
  | [], last => last
  | h :: heads, last => .brick none h .absent (stack heads last)

/-- The way to the edge, and a call of function one. -/
def approach : Brick where
  name := some (.string "main")
  head := head "EntryBrick" "CommandNOP" ""
  right := .absent
  bottom :=
    stack [basic "CommandMove", basic "CommandMove", head "TailBrick" "CommandCall" "1"] .absent

/-- Function one: up the edge and down again, with a last look ahead. -/
def sweep : Brick where
  name := some (.string "sweep")
  head := ⟨"EntryBrick", "CommandFuncStart", .number (.int 1)⟩
  right := .absent
  bottom :=
    stack
      [ basic "CommandTurnLeft", basic "CommandMove", basic "CommandTurnBack", basic "CommandMove",
        basic "CommandMove" ]
      (.brick none (head "CaseBrick" "CommandIfS" "")
        (stack [basic "CommandMove"] .absent) (stack [basic "CommandTurnRight"] .absent))

/-- The built-in program. -/
def builtIn : Except ProgramError Program :=
  Program.ofBricks [approach, sweep]

/-! ### Requests and reports -/

/-- What is asked for. -/
structure Request where
  /-- The file with the program, if it is not the built-in one. -/
  program : Option File
  /-- The directory for the trace. -/
  traceDir : Option String
  /-- The file with the configuration. -/
  config : Option File

/-- What is told. -/
structure Report where
  exitCode : UInt32
  /-- The lines of the report, given the wording of the time that the run took. -/
  lines : String → List String
  /-- The lines about a failure. -/
  errors : List String
  /-- The tables of the trace, if they were written. -/
  tables : Option CsvTables

/-- The text of the report: its lines, each ended by a line feed. A tag of the program may itself
contain line feeds, so that what is one line here takes several lines of the text. -/
def Report.text (r : Report) (elapsed : String) : String :=
  String.join ((r.lines elapsed).map (· ++ "\n"))

/-- What stops a report: a line about it, and how the program is to end. -/
structure Failure where
  exitCode : UInt32
  line : String

/-- A failure with a message. -/
def Failure.ofMessage (message : String) : Failure :=
  ⟨1, "Error: " ++ message⟩

/-- A fault, which nothing is meant to lead to. -/
def Failure.ofFault (fault : Fault) : Failure :=
  ⟨101, fault.message⟩

/-! ### Preparing -/

/-- The program that is asked for. -/
def Request.loadProgram (r : Request) : Except Failure Program :=
  match r.program with
  | none => builtIn.mapError fun e => .ofMessage e.message
  | some file =>
    (Program.ofFile file).mapError fun _ => .ofMessage ("loading program from " ++ file.path)

/-- The configuration that is asked for. -/
def Request.loadConfig (r : Request) : Except Failure Config :=
  match r.config with
  | none => .ok Config.standard
  | some file =>
    match file.content with
    | none => .error (.ofMessage ("opening config " ++ file.path))
    | some payload =>
      (Interchange.ofPayload payload).mapError fun _ => .ofMessage ("parsing config " ++ file.path)

/-! ### Lines -/

/-- The line about the board. -/
def boardLine (b : Board) : String :=
  "Board: " ++ toString b.grid.width ++ "×" ++ toString b.grid.height ++ ", "
    ++ toString b.spawns.length ++ " agent(s), " ++ toString b.items.length ++ " item(s), "
    ++ toString (Projection.layerCount b.grid) ++ " draw layer(s)"

/-- The line about the program. -/
def programLine (p : Program) : String :=
  "Program: " ++ toString p.size ++ " nodes, " ++ toString p.functionCount ++ " function(s), root "
    ++ (match p.root with
      | some root => root.text
      | none => "missing")

/-- The line about an event, if there is one. -/
def eventLine? : Event → Option String
  | .itemCollected tick agent item =>
    some (tick.text ++ "  " ++ agent.text ++ " picked up " ++ item.text)
  | .agentFinished tick agent reason =>
    some (tick.text ++ "  " ++ agent.text ++ " finished: " ++ reason.text)
  | _ => none

/-- The line at the end about an agent that stopped. -/
def finishLine? : Event → Option String
  | .agentFinished tick agent reason =>
    some (agent.text ++ " finished at " ++ tick.text ++ ": " ++ reason.text)
  | _ => none

/-- The event is about an item. -/
def isCollection : Event → Bool
  | .itemCollected _ _ _ => true
  | _ => false

/-- A row of the table of agents. -/
def tableRow (agent cell facing phase screen openings : String) : String :=
  Text.padRight 10 agent ++ " " ++ Text.padRight 8 cell ++ " " ++ Text.padRight 7 facing ++ " "
    ++ Text.padRight 10 phase ++ " " ++ Text.padRight 18 screen ++ " " ++ openings

/-- A place on the screen, in whole pixels. -/
def screenText (x y : Float32) : String :=
  let pixel (f : Float32) := Number.fixedText 0 (Number.Binary.ofBits .single f.toBits.toNat)
  "(" ++ pixel x ++ ", " ++ pixel y ++ ")"

/-- The row of an agent. -/
def agentLine (a : Agent) : Except Fault String := do
  let (x, y) ← a.gridPosition
  let (x, y) := Projection.standard.project x y
  let openings := if a.openings.isBoxedIn then a.openings.text ++ " boxed in" else a.openings.text
  return tableRow a.id.text a.pos.text (toString a.facing.value) a.phase.label (screenText x y)
    openings

/-! ### The report -/

/-- What is known after a run. -/
structure RunResult where
  ticks : Nat
  simulation : Simulation
  events : List Event
  trace : Option (Trace CsvTables)
  table : List String

/-- Starts the simulation and runs it. -/
def runResult (s : Simulation) (traced : Bool) : Except Fault RunResult := do
  let (s, _) ← s.start
  let (ticks, s, c) ← s.run
  let trace ←
    if traced then ((Trace.ofWriter CsvTables.empty).observeAll c.events).map some else pure none
  let table ← s.world.agents.mapM agentLine
  return ⟨ticks, s, c.events, trace, table⟩

/-- The lines after the preparations. -/
def resultLines (r : RunResult) (traceDir : Option String) (elapsed : String) : List String :=
  let s := r.simulation
  [""] ++ r.events.filterMap eventLine? ++
  ["", "Ran " ++ toString r.ticks ++ " ticks in " ++ elapsed] ++
  (if s.isRunning then
    ["Stopped at the " ++ toString s.config.maxTicks.toNat
      ++ "-tick bound with agents still running"]
  else
    []) ++
  ["Items: " ++ toString (r.events.countP isCollection) ++ " collected, "
    ++ toString s.world.remainingItems ++ " remaining"] ++
  (match traceDir with
    | some dir => ["Trace written to " ++ dir]
    | none => []) ++
  ["", tableRow "Agent" "Cell" "Facing" "Phase" "Screen" "Legal F/L/B/R",
    String.ofList (List.replicate 70 '-')] ++
  r.table ++ r.events.filterMap finishLine?

/-- The report about a request. -/
def Request.report (r : Request) : Report :=
  let title := "=== ring — brickgrid reference board ==="
  let failed (lines : List String) (f : Failure) : Report :=
    ⟨f.exitCode, fun _ => lines, [f.line], none⟩
  match Board.ofRows Board.referenceRows with
  | .error e => failed [title] (.ofMessage e.message)
  | .ok board =>
    let lines := [title, boardLine board]
    match r.loadProgram with
    | .error f => failed lines f
    | .ok program =>
      let lines := lines ++ [programLine program]
      match r.loadConfig with
      | .error f => failed lines f
      | .ok config =>
        match Simulation.build board config program with
        | .error e => failed lines (.ofMessage e.message)
        | .ok (.error fault) => failed lines (.ofFault fault)
        | .ok (.ok (s, _)) =>
          match runResult s r.traceDir.isSome with
          | .error fault => failed lines (.ofFault fault)
          | .ok result =>
            let errors :=
              match result.trace.bind Trace.firstError with
              | some e => ["trace error: " ++ e.message]
              | none => []
            ⟨0, fun elapsed => lines ++ resultLines result r.traceDir elapsed, errors,
              result.trace.map Trace.writer⟩

end Showcase

end TileWalk
