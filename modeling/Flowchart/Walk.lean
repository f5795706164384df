import Flowchart.Call.Name
import Flowchart.Extent
import Flowchart.Graph
import Flowchart.Oracle

/-!
Walking through a flow graph, one block at a time.

A walk is not started, running, paused or completed. Each event takes its state to the next one and
may leave an entry in the log. At a block, the walk takes one of the outgoing edges:

* a loop is entered as often as the options say, then left from the last block of its body;
* a condition and a switch go the way that the oracle decides;
* a call remembers where to go on, and the next end or return goes there;
* an edge back to a loop that is still counted is taken before any other.
-/

namespace Flowchart

namespace Walk

/-- How far a walk is. In a phase that is not one of the known ones, which keeps its name, it takes
steps but neither pauses nor resumes. -/
inductive Phase
  | notStarted
  | running
  | paused
  | completed
  | other (name : String)
deriving DecidableEq, Repr, Inhabited

namespace Phase

def name : Phase → String
  | .notStarted => "not-started"
  | .running => "running"
  | .paused => "paused"
  | .completed => "completed"
  | .other name => name

def known : List Phase := [.notStarted, .running, .paused, .completed]

def ofName (name : String) : Phase :=
  (known.find? fun phase => phase.name == name).getD (.other name)

end Phase

structure Frame where
  functionName : String
  returnTo : Option Int
  values : List (String × Json) := []
deriving Repr, Inhabited

abbrev Counters := List (Int × Int)

namespace Counters

def put (counters : Counters) (loop count : Int) : Counters :=
  (loop, count) :: counters.filter (·.1 ≠ loop)

def clear (counters : Counters) (first stop : Int) : Counters :=
  counters.filter fun (loop, _) => !(first ≤ loop && loop < stop)

end Counters

/-- Where a walk stands. The innermost call comes first on the stack; visited positions are kept in
rising order. -/
structure State where
  current : Option Int := none
  visited : List Int := []
  path : List Int := []
  stack : List Frame := []
  counters : Counters := []
  phase : Phase := .notStarted
  speed : Int
deriving Repr, Inhabited

inductive Action
  | enter
  | exit
  | return
  | loop
  | branch
  | call
deriving DecidableEq, Repr

namespace Action

def name : Action → String
  | .enter => "enter"
  | .exit => "exit"
  | .return => "return"
  | .loop => "loop"
  | .branch => "branch"
  | .call => "call"

end Action

structure Entry (τ : Type) where
  time : τ
  index : Int
  content : String
  kind : Block.Kind
  action : Action
  details : Option String := none
deriving Repr

structure Options where
  speed : Int := 500
  iterations : Int := 3
  leastSpeed : Int := 100
  greatestSpeed : Int := 2000
deriving Repr, Inhabited

namespace Options

/-- A speed within the limits, cut to whole milliseconds. The lower limit wins. -/
def clamp (options : Options) (speed : Number) : Int :=
  (Number.greatest (.int options.leastSpeed)
    (Number.least (.int options.greatestSpeed) speed)).truncate

end Options

inductive Event
  | start (paused : Bool)
  | tick
  | pause
  | resume
  | reset
  /-- A new speed; without a value the speed is only brought within its limits. -/
  | setSpeed (value : Option Number)
  | unknown (name : String)
deriving Repr

inductive Fault
  | unknownEvent (name : String)
  | noStart
  /-- A condition holds a numeral that cannot be read. -/
  | unreadable (error : NumeralError)
deriving DecidableEq, Repr

def Fault.message : Fault → String
  | .unknownEvent name => "unknown event " ++ Text.quoted name
  | .noStart => "cannot start: the program has no START block"
  | .unreadable (.tooLong digits) => Numeral.tooLongMessage digits
  | .unreadable .malformed => ""

/-! ## Steps -/

namespace State

def initial (speed : Int) : State := { speed }

def insertPosition (position : Int) : List Int → List Int
  | [] => [position]
  | first :: rest =>
      if position < first then position :: first :: rest
      else if position = first then first :: rest
      else first :: insertPosition position rest

def visit (state : State) (index : Int) : State :=
  { state with
    visited := insertPosition index state.visited
    path := state.path ++ [index] }

def move (state : State) (target : Option Int) : State :=
  match target with
  | none => { state with phase := .completed }
  | some target => { state with current := some target }

end State

section

variable {σ τ : Type}

def deepest? : List Edge → Option Edge
  | [] => none
  | edge :: rest => match deepest? rest with
      | none => some edge
      | some other => if edge.depth.getD 0 < other.depth.getD 0 then some other else some edge

def liveLoop? (graph : Graph) (counters : Counters) (index : Int) : Option Int :=
  (deepest? ((graph.outgoing index).filter fun edge =>
    edge.kind = .loopBack ∧ (counters.lookup edge.target).isSome)).map Edge.target

def firstForward? (graph : Graph) (index : Int) : Option Int :=
  (graph.forward index).head?.map Edge.target

/-- Leaves a loop. It and the loops in its body start over the next time. The walk goes on from
the last block of the body, or from the loop itself if the body is empty. -/
def leaveLoop (graph : Graph) (state : State) (index : Nat) : State :=
  let extent := loopExtent graph.blocks index
  let state := { state with
    counters := state.counters.clear index (extent.close.getD graph.length : Nat) }
  let last : Int := (extent.last.getD index : Nat)
  match liveLoop? graph state.counters last with
  | some loop => state.move (some loop)
  | none => state.move (firstForward? graph last)

def stepLoop (graph : Graph) (options : Options) (state : State) (index : Nat) :
    State × String :=
  let count := (state.counters.lookup (index : Int)).getD 0
  if count < options.iterations then
    let state := { state with counters := state.counters.put index (count + 1) }
    let target :=
      if (loopExtent graph.blocks index).last.isSome then firstForward? graph index
      else some (index : Int)
    (state.move target, s!"iteration {count + 1}")
  else (leaveLoop graph state index, "loop complete")

def goOn (graph : Graph) (state : State) (index : Nat) (target : Option Int) : State :=
  state.move ((liveLoop? graph state.counters index).orElse fun _ => target)

def execute (oracle : Oracle σ) (options : Options) (graph : Graph) (now : τ) (state : State)
    (memory : σ) (index : Nat) (block : Block) :
    Except Fault (State × Entry τ × σ) := do
  let state := state.visit index
  let entry (action : Action) (details : Option String) : Entry τ :=
    ⟨now, index, block.content, block.kind, action, details⟩
  if block.kind = .stop ∨ block.kind = .return then
    match state.stack with
    | frame :: stack =>
        return (({ state with stack }).move frame.returnTo,
          entry .return (some ("return from " ++ frame.functionName)), memory)
    | [] => return ({ state with phase := .completed }, entry .exit none, memory)
  else if block.kind = .loop then
    let (state, details) := stepLoop graph options state index
    return (state, entry .loop (some details), memory)
  else if block.opensConditional ∨ block.kind = .elseIf then
    let edges := graph.forward index
    let (answer, memory) ← (oracle.decide memory index block).mapError Fault.unreadable
    let chosen := (edges.find? fun edge => edge.kind.name == answer).orElse fun _ => edges.head?
    return (goOn graph state index (chosen.map Edge.target),
      entry .branch (some ((chosen.map fun edge => edge.kind.name).getD answer)), memory)
  else
    let cases := (graph.outgoing index).filter fun edge => edge.kind = .case
    match block.kind, cases with
    | .switch, first :: rest =>
        let labels := cases.map fun edge => edge.label.getD ""
        let (choice, memory) ←
          (oracle.selectCase memory index block labels).mapError Fault.unreadable
        let chosen := if choice < 0 then first else (first :: rest)[choice.toNat]?.getD first
        return (goOn graph state index (some chosen.target),
          entry .branch chosen.label, memory)
    | .call, _ =>
        let callee := ((Call.callee? block.content.toList).map String.ofList).getD block.content
        let target := firstForward? graph index
        let state := { state with stack := ⟨callee, target, []⟩ :: state.stack }
        return (goOn graph state index target, entry .call (some callee), memory)
    | _, _ =>
        return (goOn graph state index (firstForward? graph index), entry .enter none, memory)

def begin (graph : Graph) (now : τ) (state : State) (paused : Bool) :
    Except Fault (State × List (Entry τ)) :=
  match graph.find? .start with
  | none => .error .noStart
  | some index =>
      let fresh : State :=
        { State.initial state.speed with
          current := some index
          phase := if paused then .paused else .running }
      let block := graph.blocks[index]?.getD default
      .ok ((fresh.visit index).move (firstForward? graph index),
        [⟨now, index, block.content, block.kind, .enter, none⟩])

def transition (oracle : Oracle σ) (options : Options) (graph : Graph) (now : τ) (state : State)
    (memory : σ) (event : Event) : Except Fault (State × List (Entry τ) × σ) :=
  match event with
  | .unknown name => .error (.unknownEvent name)
  | .reset => .ok (.initial state.speed, [], memory)
  | .setSpeed value =>
      let speed := options.clamp (value.getD (.int state.speed))
      .ok ({ state with speed }, [], memory)
  | .pause =>
      .ok (if state.phase = .running then { state with phase := .paused } else state, [], memory)
  | .resume =>
      .ok (if state.phase = .paused then { state with phase := .running } else state, [], memory)
  | .start paused =>
      if state.phase = .running then .ok (state, [], memory)
      else (begin graph now state paused).map fun (state, entries) => (state, entries, memory)
  | .tick =>
      if state.phase = .notStarted ∨ state.phase = .completed then .ok (state, [], memory)
      else match state.current.bind fun index => (graph.block? index).map (index.toNat, ·) with
        | none => .ok ({ state with phase := .completed }, [], memory)
        | some (index, block) =>
            (execute oracle options graph now state memory index block).map
              fun (state, entry, memory) => (state, [entry], memory)

end

end Walk

end Flowchart
