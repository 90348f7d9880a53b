import TileWalk.Main
import TileWalk.Program.Builder
import TileWalk.Trace.Recorder
import TileWalk.Showcase
import TileWalk.Proofs.Outcome
import TileWalk.Proofs.Board.Neighbours
import TileWalk.Proofs.Board.Rows
import TileWalk.Proofs.Program.Closed
import TileWalk.Proofs.Program.Edges
import TileWalk.Proofs.Agent.Sound
import TileWalk.Proofs.Simulation.Request
import TileWalk.Proofs.Simulation.Pointwise
import TileWalk.Proofs.Simulation.Renewal
import TileWalk.Proofs.Simulation.Attained
import TileWalk.Proofs.Simulation.Sound
import TileWalk.Proofs.Simulation.Arrivals
import TileWalk.Proofs.Simulation.Progress
import TileWalk.Proofs.Agent.Alone
import TileWalk.Proofs.Simulation.Separate
import TileWalk.Proofs.Simulation.Items
import TileWalk.Proofs.Program.Occurrences
import TileWalk.Proofs.Agent.Walker
import TileWalk.Proofs.Simulation.Flattening
import TileWalk.Proofs.Simulation.Endings
import TileWalk.Proofs.Simulation.Reports
import TileWalk.Proofs.Simulation.Faultless
import TileWalk.Proofs.Simulation.Delay
import TileWalk.Proofs.Program.Journey
import TileWalk.Proofs.Agent.Journey
import TileWalk.Proofs.Simulation.Journeys
import TileWalk.Proofs.Simulation.Runs
import TileWalk.Proofs.Simulation.Signals
import TileWalk.Proofs.Simulation.Stream
import TileWalk.Proofs.Agent.Itinerary
import TileWalk.Proofs.Agent.Control
import TileWalk.Proofs.Agent.Recurrence
import TileWalk.Proofs.Simulation.Pace
import TileWalk.Proofs.Simulation.Halting
import TileWalk.Proofs.Simulation.Settings
import TileWalk.Proofs.Simulation.Endless
import TileWalk.Proofs.Simulation.Strides
import TileWalk.Proofs.Board.Turned
import TileWalk.Proofs.Board.TurnedRows
import TileWalk.Proofs.Agent.Turned
import TileWalk.Proofs.Simulation.Visits
import TileWalk.Proofs.Simulation.Turned
import TileWalk.Proofs.Agent.Reasons
import TileWalk.Proofs.Simulation.Reasons
import TileWalk.Proofs.Board.Region
import TileWalk.Proofs.Simulation.Region
import TileWalk.Proofs.Agent.Calls
import TileWalk.Proofs.Simulation.Pending
import TileWalk.Proofs.Text.Numeral
import TileWalk.Proofs.Program.Tables
import TileWalk.Proofs.Program.Usable
import TileWalk.Proofs.Program.Redrawn
import TileWalk.Proofs.Simulation.Moments
import TileWalk.Proofs.Trace.Calls
import TileWalk.Proofs.Number.Places
import TileWalk.Proofs.Trace.Reading
import TileWalk.Proofs.Trace.Tables
import TileWalk.Proofs.Trace.Complete
import TileWalk.Proofs.Text.Bytes
import TileWalk.Proofs.Program.CallText
import TileWalk.Proofs.Program.Chain
import TileWalk.Proofs.Program.WellFormed
import TileWalk.Proofs.Program.Defects
import TileWalk.Proofs.Simulation.Delivery
import TileWalk.Proofs.Board.Reading
import TileWalk.Proofs.Board.Sides
import TileWalk.Proofs.Agent.Sides
import TileWalk.Proofs.Json.Grammar
import TileWalk.Proofs.Json.Scanning
import TileWalk.Proofs.Json.Skipping
import TileWalk.Proofs.Json.Records
import TileWalk.Proofs.Interchange
