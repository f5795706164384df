import Flowchart.Main
import Flowchart.Player.Audience
import Flowchart.Json.Reader
import Flowchart.Timeline.Session
import Flowchart.Proofs.Extent.Body
import Flowchart.Proofs.Extent.Branches
import Flowchart.Proofs.Extent.Nested
import Flowchart.Proofs.ImplicitElse.Complete
import Flowchart.Proofs.Graph.Positions
import Flowchart.Proofs.Graph.Targets
import Flowchart.Proofs.Graph.LoopEdges
import Flowchart.Proofs.Graph.LoopExits
import Flowchart.Proofs.Graph.Cycles
import Flowchart.Proofs.Graph.Decisions
import Flowchart.Proofs.Timeline.Live
import Flowchart.Proofs.Player.Stepping
import Flowchart.Proofs.Player.Plays
import Flowchart.Proofs.Player.Timer
import Flowchart.Proofs.Player.Driven
import Flowchart.Proofs.Player.Bracketed
import Flowchart.Proofs.Call.Found
import Flowchart.Proofs.Walk.Visit
import Flowchart.Proofs.Walk.Rank
import Flowchart.Proofs.Walk.Bound
import Flowchart.Proofs.Walk.Calls
import Flowchart.Proofs.Walk.Completion
import Flowchart.Proofs.Walk.Events
import Flowchart.Proofs.Walk.Speeds
import Flowchart.Proofs.Walk.Still
import Flowchart.Proofs.Structured.Shaped
import Flowchart.Proofs.Structured.Completed
import Flowchart.Proofs.Structured.Owners
import Flowchart.Proofs.Structured.Wired
import Flowchart.Proofs.Structured.Wiring
import Flowchart.Proofs.Structured.Walked
import Flowchart.Proofs.Block.Keyword
import Flowchart.Proofs.Structured.Layout
import Flowchart.Proofs.Structured.Run
import Flowchart.Proofs.Timeline.TimerSet
import Flowchart.Proofs.Session.Doing
import Flowchart.Proofs.Session.Performed
import Flowchart.Proofs.Session.Ideal
import Flowchart.Proofs.Number.Rounding
import Flowchart.Proofs.Session.Clock
import Flowchart.Proofs.Document.Shape
import Flowchart.Proofs.Procedure.Extracted
import Flowchart.Proofs.Recursion.Analyzed
import Flowchart.Proofs.Document.Written
import Flowchart.Proofs.Procedure.Cycle
import Flowchart.Proofs.Diagnosis.Conditionals
import Flowchart.Proofs.Structured.Tree
import Flowchart.Proofs.Structured.Printed
import Flowchart.Proofs.Outline.Seen
import Flowchart.Proofs.Recursion.Moved
import Flowchart.Proofs.Program.Noise
import Flowchart.Proofs.Procedure.Spaced
import Flowchart.Proofs.Program.Expanded
import Flowchart.Proofs.Recursion.BaseCases
import Flowchart.Proofs.Comparison.Literal
import Flowchart.Proofs.Recursion.Operation
import Flowchart.Proofs.Procedure.Division
import Flowchart.Proofs.Outline.Enclosing
import Flowchart.Proofs.Outline.Respelled
import Flowchart.Proofs.Timeline.InPieces
import Flowchart.Proofs.Call.Joined
import Flowchart.Proofs.CommandLine.Inputs
import Flowchart.Proofs.Program.Readable
