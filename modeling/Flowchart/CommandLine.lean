import Flowchart.CommandLine.Arguments
import Flowchart.CommandLine.Inputs
import Flowchart.CommandLine.Path
import Flowchart.Document
import Flowchart.Document.Schema
import Flowchart.Graph.Dot
import Flowchart.Player
import Flowchart.Sha256
import Flowchart.Walk.Report

/-!
What the program does with a file: it compiles it, prints and writes what was asked for, simulates
it, and leaves a receipt. A run is a value: its effects on the outside in order, and how it ended.
-/

namespace Flowchart.CommandLine

def decode? (bytes : ByteArray) : Option String :=
  (String.fromUTF8? bytes).map fun text => String.ofList (Text.unifyBreaks text.toList)

structure Stamp where
  time : String
  id : String

structure Surroundings where
  stamp : Stamp
  /-- The seed of random answers for a run that is given none. -/
  seed : Int
  /-- Why a file cannot be written at a path before the run. -/
  refusal? : Path → Option Refusal

inductive Effect
  /-- Prints a text and a line break. -/
  | print (text : String)
  | write (path : Path) (text : String)
deriving Repr

abbrev Simulator := Player Number Oracle.Adviser Unit

inductive Failure
  | unreadable (error : NumeralError)
  /-- A document holds a number of more digits than are written. -/
  | unprintable
  | invalid (error : Document.Error)
  | refused (refusal : Refusal)
  | stopped (fault : Player.Fault Number)

namespace Failure

def reason : Failure → String
  | .unreadable (.tooLong digits) => Numeral.tooLongMessage digits
  | .unreadable .malformed => "malformed number"
  | .unprintable => Numeral.tooLongToWrite
  | .invalid .shape => "the document does not have the shape of one"
  | .invalid error => error.message
  | .refused refusal => refusal.message
  | .stopped fault => fault.message Number.text

end Failure

structure Progress where
  effects : List Effect := []
  simulator : Option Simulator := none

abbrev Run := ExceptT Failure (StateM Progress)

structure Outcome where
  effects : List Effect
  /-- The exit status, unless the last receipt could not be written. -/
  ending : Except Refusal Nat

namespace Run

def perform (effect : Effect) : Run Unit :=
  modify fun progress => { progress with effects := progress.effects ++ [effect] }

def print (text : String) : Run Unit := perform (.print text)

/-- Whether a path leads through a file that was written before. -/
def leadsThroughFile (effects : List Effect) (path : Path) : Bool :=
  effects.any fun effect => match effect with
    | .write written _ => path.isBelow written
    | .print _ => false

def write (surroundings : Surroundings) (path text : String) : Run Unit := do
  let path := Path.read path
  if leadsThroughFile (← get).effects path then throw (.refused (.notDirectory path))
  match surroundings.refusal? path with
  | some refusal => throw (.refused refusal)
  | none => perform (.write path text)

def save (surroundings : Surroundings) (title : String) (path : Option String)
    (text : Run String) : Run Unit := do
  match path.filter (!·.isEmpty) with
  | none => return
  | some path =>
      write surroundings path (← text)
      print ("Wrote " ++ title ++ ": " ++ path)

end Run

/-! ## Printed parts -/

def blockLine (index : Nat) (block : Block) : String :=
  let number := toString index
  let margin := String.ofList (List.replicate (3 - number.length) ' ')
  let indent := String.ofList (List.replicate (2 * block.level.toNat) ' ')
  "  " ++ margin ++ number ++ "  " ++ indent ++ "[" ++ block.kind.name ++ "] " ++ block.content ++
    if block.recursiveCall = some true then " *" else ""

def printBlocks (program : Program) : Run Unit := do
  Run.print "main:"
  program.main.blocks.zipIdx.forM fun (block, index) => Run.print (blockLine index block)

def jsonText (program : Program) (value : Json) : Run String :=
  let hints := program.procedures.filterMap fun procedure =>
    procedure.recursion.bind (·.depthHint)
  if hints.any Numeral.isTooLong then throw .unprintable else return value.pretty

def printDiagnosis (diagnosis : Diagnosis) : Run Unit := do
  diagnosis.errors.forM fun error => Run.print ("error: " ++ error.message)
  diagnosis.warnings.forM fun warning => Run.print ("warning: " ++ warning.message)
  if diagnosis.isValid then Run.print "valid"

def checked (document : Json) : Run Unit :=
  match Document.check document with
  | .ok () => return
  | .error error => throw (.invalid error)

def present (surroundings : Surroundings) (arguments : Arguments) (path : Path)
    (program : Program) : Run Unit := do
  if arguments.has .printBlocks then printBlocks program
  if arguments.has .printFunctions then
    Run.print (← jsonText program (.array (program.procedures.map Procedure.toJson)))
  if arguments.has .validate then printDiagnosis program.diagnosis
  let document := program.toJson
  if arguments.has .printGraph then Run.print (← jsonText program document)
  Run.save surroundings "graph" arguments.emitJson (do
    checked document
    jsonText program document)
  Run.save surroundings "DOT" arguments.graphDot (return program.main.dot (some path.stem))

/-! ## The simulation -/

def adviser (arguments : Arguments) (bindings : Bindings) (seed : Int) : Oracle.Adviser :=
  let random : Oracle.Adviser := .random (.ofSeed (arguments.seed.getD seed))
  match arguments.decider with
  | .yes => .fixed Oracle.yes 0
  | .no => .fixed Oracle.no 0
  | .random => random
  | .compare => .comparing bindings (if arguments.seed.isSome then random else .agreeable)

def simulate (surroundings : Surroundings) (arguments : Arguments) (bindings : Bindings)
    (program : Program) : Run Simulator := do
  let options : Walk.Options := { speed := arguments.speed.getD 500 }
  let stage := Player.Stage.silent program.main options Oracle.advising
  let start := Player.initial options (adviser arguments bindings surroundings.seed) ()
  let (outcome, simulator) := (Player.runUntilComplete stage arguments.maxTicks).run start
  modify fun progress => { progress with simulator := some simulator }
  match outcome with
  | .ok () => return simulator
  | .error fault => throw (.stopped fault)

def simulatorFields (simulator : Simulator) : List (String × Json) :=
  [("log", .array (simulator.log.map Walk.Entry.toJson)), ("state", simulator.state.toJson)]

def simulationFields (arguments : Arguments) (bindings : Bindings) (simulator : Simulator) :
    List (String × Json) :=
  [("oracle", .text arguments.decider.name),
    ("inputs", .object (bindings.map fun (name, value) => (name, value.toJson)))] ++
    simulatorFields simulator

/-! ## Receipts -/

def baseFields (stamp : Stamp) (path : Path) (source : String) : List (String × Json) :=
  [("engine", .text "pseudoflow"),
    ("module", .object [("path", .text path.text),
      ("hash", .text ("sha256:" ++ Sha256.hexOfText source))]),
    ("run", .object [("timestamp", .text stamp.time), ("uuid", .text stamp.id)])]

def summaryFields (program : Program) : List (String × Json) :=
  [("summary", .object [("blocks", .ofNat program.main.blocks.length),
      ("edges", .ofNat program.main.edges.length),
      ("functions", .texts (program.procedures.map (·.name)))]),
    ("validation", program.diagnosis.toJson)]

def writeReceipt (surroundings : Surroundings) (arguments : Arguments)
    (fields : List (String × Json)) : Run Unit :=
  Run.save surroundings "receipt" arguments.receiptOut (return (Json.object fields).pretty)

/-! ## The run -/

def attempt (surroundings : Surroundings) (arguments : Arguments) (path : Path)
    (source : String) : Run Nat := do
  let program ← match Program.compile .standard source with
    | .ok program => pure program
    | .error error => throw (.unreadable error)
  let receipt (status : String) (fields : List (String × Json)) : Run Unit :=
    writeReceipt surroundings arguments (baseFields surroundings.stamp path source ++
      ("status", .text status) :: summaryFields program ++ fields)
  present surroundings arguments path program
  if arguments.has .strict && !program.diagnosis.isValid then
    receipt "invalid" []
    return 1
  if arguments.has .simulate then
    let bindings := inputs arguments.inputs
    let simulator ← simulate surroundings arguments bindings program
    if arguments.has .printLog then
      simulator.log.forM fun entry => Run.print entry.line
    receipt "ok" (simulationFields arguments bindings simulator)
  else receipt "ok" []
  return 0

def report (surroundings : Surroundings) (arguments : Arguments) (path : Path)
    (source : String) (failure : Failure) : Run Nat := do
  let simulation := ((← get).simulator.map simulatorFields).getD []
  let fields := baseFields surroundings.stamp path source ++
    [("status", .text "error"), ("reason", .text failure.reason)] ++ simulation
  Run.print (Json.object fields).pretty
  writeReceipt surroundings arguments fields
  return 1

def run (surroundings : Surroundings) (arguments : Arguments) (path : Path)
    (source : String) : Outcome :=
  let whole : Run Nat := tryCatch (attempt surroundings arguments path source)
    (report surroundings arguments path source)
  let (result, progress) := whole.run {}
  { effects := progress.effects
    ending := match result with
      | .ok status => .ok status
      | .error (.refused refusal) => .error refusal
      | .error _ => .ok 1 }

/-! ## The request -/

def usage : String := "usage: flowchart [options] file\n\noptions:\n" ++
  String.intercalate "\n" (Key.named.map fun (name, key) => match key with
    | .flag _ => "  " ++ name
    | .setting _ => "  " ++ name ++ " VALUE")

def usageStatus : Nat := 2

inductive Request
  | help
  | run (arguments : Arguments) (path : Path)
  /-- The file cannot be looked for. -/
  | refused (refusal : Refusal)

def request (texts : List String) (isFile : Path → Except Refusal Bool) :
    Except UsageError Request := do
  let arguments ← Arguments.read texts
  if arguments.has .help then return .help
  match arguments.file.filter (!·.isEmpty) with
  | none => throw .noFile
  | some file =>
      let path := Path.read file
      match isFile path with
      | .error refusal => return .refused refusal
      | .ok true => return .run arguments path
      | .ok false => throw (.notFound path.text)

end Flowchart.CommandLine
