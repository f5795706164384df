import Flowchart.Timeline
import Flowchart.Walk

/-!
Playing a walk: a timer on a timeline takes the steps while the walk is running.

A player holds the state of the walk, its log, the memory of the oracle and the timeline. Whoever
listens to it belongs to it as well, as a value of any type; the stage says what the listeners do
with a notification. Without listeners a notification changes nothing.
-/

namespace Flowchart

open Walk

structure Player (τ σ χ : Type) where
  state : State
  log : List (Entry τ)
  memory : σ
  timeline : Timeline τ Unit
  /-- The timer of the next step. -/
  timer : Option Nat
  audience : χ

namespace Player

inductive Fault (τ : Type)
  | walk (fault : Walk.Fault)
  | timer (error : TimerError τ)
  /-- The walk was not completed in so many steps. -/
  | unfinished (steps : Int)
  /-- More timers ran than the clock may run at once. -/
  | endless
deriving Repr

inductive Notification (τ : Type)
  | entry (entry : Entry τ)
  | state (state : State)

variable {τ σ χ : Type}

structure Stage (τ σ χ : Type) where
  graph : Graph
  options : Options
  oracle : Oracle σ
  notify : Notification τ → Player τ σ χ → Player τ σ χ

def Stage.silent (graph : Graph) (options : Options) (oracle : Oracle σ) : Stage τ σ χ where
  graph := graph
  options := options
  oracle := oracle
  notify _ player := player

abbrev Play (τ σ χ α : Type) := ExceptT (Fault τ) (StateM (Player τ σ χ)) α

def initial [Zero τ] (options : Options) (memory : σ) (audience : χ) : Player τ σ χ where
  state := .initial (options.clamp (.int options.speed))
  log := []
  memory := memory
  timeline := .startingAt 0
  timer := none
  audience := audience

/-! ## Events and the timer -/

def announce (stage : Stage τ σ χ) (notification : Notification τ) : Play τ σ χ Unit :=
  modify (stage.notify notification)

/-- Takes the walk through an event. New entries are logged and announced one by one, then the
state after the event is announced. -/
def dispatch (stage : Stage τ σ χ) (event : Event) : Play τ σ χ Unit := do
  let player ← get
  match transition stage.oracle stage.options stage.graph player.timeline.clock player.state
      player.memory event with
  | .error fault => throw (.walk fault)
  | .ok (state, entries, memory) =>
      set { player with state, memory }
      for entry in entries do
        modify fun player => { player with log := player.log ++ [entry] }
        announce stage (.entry entry)
      announce stage (.state state)

def cancelTimer : Play τ σ χ Unit :=
  modify fun player => match player.timer with
    | none => player
    | some timer => { player with timer := none, timeline := player.timeline.cancel timer }

def clearLog : Play τ σ χ Unit := modify fun player => { player with log := [] }

section

variable [Zero τ] [ClockTime τ] [LE τ] [DecidableLE τ] [LT τ] [DecidableLT τ] [IntCast τ]

def schedule : Play τ σ χ Unit := do
  cancelTimer
  let player ← get
  if player.state.phase = .running then
    let (timer, timeline) ←
      (player.timeline.set (player.state.speed : τ) ()).mapError Fault.timer
    set { player with timeline, timer := some timer }

def onTimer (stage : Stage τ σ χ) : Play τ σ χ Unit := do
  modify fun player => { player with timer := none }
  if (← get).state.phase = .running then
    dispatch stage .tick
    schedule

/-! ## Controls -/

def start (stage : Stage τ σ χ) : Play τ σ χ Unit := do
  if (← get).state.phase ≠ .running then
    cancelTimer
    clearLog
    dispatch stage (.start false)
    schedule

def pause (stage : Stage τ σ χ) : Play τ σ χ Unit := do
  cancelTimer
  dispatch stage .pause

def resume (stage : Stage τ σ χ) : Play τ σ χ Unit := do
  if (← get).state.phase = .paused then
    dispatch stage .resume
    schedule

/-- Exactly one step, whether running or paused. The first is the start itself. -/
def step (stage : Stage τ σ χ) : Play τ σ χ Unit := do
  match (← get).state.phase with
  | .notStarted =>
      clearLog
      dispatch stage (.start true)
  | .completed => return
  | _ =>
      dispatch stage .tick
      if (← get).state.phase = .running then schedule

def reset (stage : Stage τ σ χ) : Play τ σ χ Unit := do
  cancelTimer
  clearLog
  dispatch stage .reset

def setSpeed (stage : Stage τ σ χ) (speed : Number) : Play τ σ χ Int := do
  dispatch stage (.setSpeed (some speed))
  return (← get).state.speed

def stepUntilComplete (stage : Stage τ σ χ) (limit : Int) : Nat → Play τ σ χ Unit
  | 0 => do
      if (← get).state.phase ≠ .completed then throw (.unfinished limit)
  | steps + 1 => do
      if (← get).state.phase ≠ .completed then
        step stage
        stepUntilComplete stage limit steps

def runUntilComplete (stage : Stage τ σ χ) (limit : Int) : Play τ σ χ Unit :=
  stepUntilComplete stage limit limit.toNat

/-! ## The clock -/

def tidy : Play τ σ χ Unit :=
  modify fun player => { player with timeline := player.timeline.cleaned }

def runNext (stage : Stage τ σ χ) : Play τ σ χ Bool := do
  match (← get).timeline.pop? with
  | none => tidy; return false
  | some (_, timeline) =>
      modify fun player => { player with timeline }
      onTimer stage
      return true

/-- Runs the timers that are not due after `target`, and counts them on. A timer that keeps setting
another for the same time would never end, so that the number of timers is limited. -/
def runDue (stage : Stage τ σ χ) (target : τ) (count : Nat) : Nat → Play τ σ χ Nat
  | 0 => throw .endless
  | limit + 1 => do
      match (← get).timeline.popDue? target with
      | none => tidy; return count
      | some (_, timeline) =>
          modify fun player => { player with timeline }
          onTimer stage
          runDue stage target (count + 1) limit

def advance (stage : Stage τ σ χ) (limit : Nat) (duration : τ) : Play τ σ χ Nat := do
  let target ← ((← get).timeline.target duration).mapError Fault.timer
  let count ← runDue stage target 0 limit
  modify fun player => { player with timeline := { player.timeline with clock := target } }
  return count

end

namespace Fault

def message (text : τ → String) : Fault τ → String
  | .walk fault => fault.message
  | .timer error => error.message text
  | .unfinished steps => s!"execution did not complete within {steps} ticks"
  | .endless => "the clock did not reach its target"

end Fault

end Player

end Flowchart
