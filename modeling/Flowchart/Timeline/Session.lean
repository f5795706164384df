import Flowchart.Timeline

/-!
Scripted use of timers: commands that set, cancel and run timers, where a timer runs further
commands when it falls due.

The timers are set on a timeline that counts milliseconds, on an event loop whose clock has a
scale of its own and which keeps failures of timers to itself, or on no loop at all. The clock of
an event loop goes to the time of every timer that it runs, back to it if need be. `seconds` is the
scale of an event loop that counts in seconds.
-/

namespace Flowchart

inductive TimerCommand (τ : Type)
  | set (tag : String) (delay : τ) (script : List (TimerCommand τ))
  | cancel (tag : String)
  | isCancelled (tag : String)
  | advance (ms : τ)
  | runNext
  | now
  /-- Fails with a message. -/
  | fail (message : String)
deriving Inhabited

namespace TimerCommand

variable {τ : Type}

mutual

def size : TimerCommand τ → Nat
  | .set _ _ script => 1 + sizeAll script
  | .cancel _ => 1
  | .isCancelled _ => 1
  | .advance _ => 1
  | .runNext => 1
  | .now => 1
  | .fail _ => 1

def sizeAll : List (TimerCommand τ) → Nat
  | [] => 0
  | command :: rest => size command + sizeAll rest

end

end TimerCommand

namespace Session

structure Scale (τ : Type) where
  /-- What is shown of a time on the clock, in milliseconds. -/
  shown : τ → τ
  /-- How long so many milliseconds are on the clock, if it can show that. -/
  length? : τ → Option τ

def seconds : Session.Scale Number where
  shown time := .float (time.toBinary64.scale 1000 1)
  length? ms := ms.toBinary64?.map fun ms => .float (ms.scale 1 1000)

inductive Keeper (τ : Type)
  | timeline
  | eventLoop (scale : Session.Scale τ)
  /-- An event loop that is not there. -/
  | missingLoop

namespace Keeper

variable {τ : Type}

def isTimeline : Keeper τ → Bool
  | .timeline => true
  | _ => false

def isEventLoop : Keeper τ → Bool
  | .eventLoop _ => true
  | _ => false

def isMissing : Keeper τ → Bool
  | .missingLoop => true
  | _ => false

def shown (time : τ) : Keeper τ → τ
  | .eventLoop scale => scale.shown time
  | _ => time

end Keeper

inductive Failure (τ : Type)
  | timer (error : TimerError τ)
  | noLoop
  | failed (message : String)

namespace Failure

def message {τ : Type} (text : τ → String) : Failure τ → String
  | .timer error => error.message text
  | .noLoop => "AsyncioScheduler needs a running event loop or an explicit loop"
  | .failed message => message

end Failure

structure Handle where
  id : Nat
  cancelled : Bool := false

structure Callback (τ : Type) where
  tag : String
  script : List (TimerCommand τ)

inductive Outcome (τ : Type)
  | nothing
  | flag (value : Bool)
  | count (value : Nat)
  | time (value : τ)

end Session

structure Session (τ : Type) where
  keeper : Session.Keeper τ
  timeline : Timeline τ (Session.Callback τ)
  handles : List (String × Session.Handle) := []
  /-- The timers that ran, with the time shown at each. -/
  fired : List (String × τ) := []

namespace Session

variable {τ : Type}

abbrev Run (τ : Type) := ExceptT (Failure τ) (StateM (Session τ))

def now (session : Session τ) : τ := session.keeper.shown session.timeline.clock

def initial [Zero τ] (keeper : Keeper τ) : Session τ where
  keeper := keeper
  timeline := .startingAt 0

def setHandle (tag : String) (handle : Handle) (handles : List (String × Handle)) :
    List (String × Handle) :=
  (tag, handle) :: handles.filter (·.1 ≠ tag)

def cancelTimer (tag : String) : Run τ Bool := do
  let session ← get
  match session.handles.lookup tag with
  | none => return false
  | some handle =>
      set { session with
        timeline := session.timeline.cancel handle.id
        handles := setHandle tag { handle with cancelled := true } session.handles }
      return true

def tidy : Run τ Unit :=
  modify fun session => { session with timeline := session.timeline.cleaned }

def guarded (run : Run τ Unit) : Run τ Unit := do
  if (← get).keeper.isEventLoop then tryCatch run fun _ => pure () else run

section

variable [Zero τ] [ClockTime τ] [LE τ] [DecidableLE τ] [LT τ] [DecidableLT τ]

def target (ms : τ) (session : Session τ) : Except (Failure τ) τ :=
  match session.keeper with
  | .missingLoop => .error .noLoop
  | .timeline => (session.timeline.target ms).mapError Failure.timer
  | .eventLoop scale =>
      match (scale.length? ms).bind (ClockTime.after? session.timeline.clock) with
      | none => .error (.timer .tooLate)
      | some target => .ok target

def pop? (session : Session τ) : Option (Timer τ (Callback τ) × Session τ) :=
  if session.keeper.isEventLoop then
    session.timeline.next?.map fun (timer, timeline) =>
      (timer, { session with timeline := { timeline with clock := timer.due } })
  else
    session.timeline.pop?.map fun (timer, timeline) => (timer, { session with timeline })

def setTimer (tag : String) (delay : τ) (script : List (TimerCommand τ)) : Run τ Unit := do
  let session ← get
  let (id, timeline) ← match session.keeper with
    | .missingLoop => throw .noLoop
    | .timeline => (session.timeline.set delay ⟨tag, script⟩).mapError Failure.timer
    | .eventLoop _ => do
        let due ← session.target delay
        pure (session.timeline.setAt due ⟨tag, script⟩)
  set { session with timeline, handles := setHandle tag ⟨id, false⟩ session.handles }

mutual

/-- Performs a command. Every command and every timer of a session is run at most once, so a few
times their number is fuel enough. -/
def perform (fuel : Nat) (command : TimerCommand τ) : Run τ (Outcome τ) := do
  match fuel with
  | 0 => return .nothing
  | fuel + 1 =>
      match command with
      | .set tag delay script => setTimer tag delay script; return .nothing
      | .cancel tag => return .flag (← cancelTimer tag)
      | .isCancelled tag =>
          return .flag (((← get).handles.lookup tag).any (·.cancelled))
      | .now => if (← get).keeper.isMissing then throw .noLoop else return .time (← get).now
      | .fail message => throw (.failed message)
      | .runNext =>
          match (← get).pop? with
          | none => tidy; return .flag false
          | some (timer, session) =>
              set session
              fire fuel timer.action
              return .flag true
      | .advance ms =>
          let target ← (← get).target ms
          let count ← runDue fuel target 0
          modify fun session =>
            { session with timeline := { session.timeline with clock := target } }
          return .count count

def runDue (fuel : Nat) (target : τ) (count : Nat) : Run τ Nat := do
  match fuel with
  | 0 => return count
  | fuel + 1 =>
      match (← get).pop?.filter fun (timer, _) => ¬target < timer.due with
      | none => tidy; return count
      | some (timer, session) =>
          set session
          fire fuel timer.action
          runDue fuel target (count + 1)

def fire (fuel : Nat) (callback : Callback τ) : Run τ Unit := do
  match fuel with
  | 0 => return
  | fuel + 1 =>
      modify fun session =>
        { session with fired := session.fired ++ [(callback.tag, session.now)] }
      guarded (performAll fuel callback.script)

def performAll (fuel : Nat) (commands : List (TimerCommand τ)) : Run τ Unit := do
  match fuel, commands with
  | fuel + 1, command :: rest =>
      let _ ← perform fuel command
      performAll fuel rest
  | _, _ => return

end

def command (total : Nat) (command : TimerCommand τ) (session : Session τ) :
    Except (Failure τ) (Outcome τ) × Session τ :=
  (perform (8 * total + 8) command).run session

end

end Session

end Flowchart
