import Flowchart.Number

/-!
Timers on a clock that moves only when it is told to.

A timeline keeps its timers in the order in which they fall due, those due at once in the order in
which they were set, and beside them the numbers of those that are in the queue. A cancelled timer
stays in the queue, marked, until it comes to the front.
Times are of any type with an order in which one can tell what is so much later.
-/

namespace Flowchart

/-- Times of a clock. There may be none that is so much later than another. -/
class ClockTime (τ : Type) where
  after? (time duration : τ) : Option τ

instance {τ : Type} [Add τ] : ClockTime τ := ⟨fun time duration => some (time + duration)⟩

instance : ClockTime Number := ⟨Number.add?⟩

structure Timer (τ α : Type) where
  due : τ
  id : Nat
  action : α
deriving Repr

structure Timeline (τ α : Type) where
  clock : τ
  nextId : Nat
  queue : List (Timer τ α)
  /-- The numbers of the timers in the queue. -/
  queued : List Nat
  /-- Those of them that have been cancelled. -/
  cancelled : List Nat
deriving Repr

inductive TimerError (τ : Type)
  | negativeDelay (delay : τ)
  /-- The clock was told to go back. -/
  | backwards
  /-- The clock cannot show a time that late. -/
  | tooLate
deriving Repr

namespace TimerError

def message {τ : Type} (text : τ → String) : TimerError τ → String
  | .negativeDelay delay => "delay must be >= 0 ms, got " ++ text delay
  | .backwards => "cannot move the clock backwards"
  | .tooLate => "int too large to convert to float"

end TimerError

namespace Timeline

variable {τ α : Type}

def startingAt (clock : τ) : Timeline τ α := ⟨clock, 0, [], [], []⟩

def pending (timeline : Timeline τ α) : Nat :=
  (timeline.queued.filter fun id => !timeline.cancelled.contains id).length

section

variable [LE τ] [DecidableLE τ]

def insert (timer : Timer τ α) : List (Timer τ α) → List (Timer τ α)
  | [] => [timer]
  | first :: rest =>
      if first.due ≤ timer.due then first :: insert timer rest else timer :: first :: rest

def setAt (timeline : Timeline τ α) (due : τ) (action : α) : Nat × Timeline τ α :=
  (timeline.nextId,
    { timeline with
      nextId := timeline.nextId + 1
      queue := insert ⟨due, timeline.nextId, action⟩ timeline.queue
      queued := timeline.nextId :: timeline.queued })

def set [Zero τ] [ClockTime τ] [LT τ] [DecidableLT τ] (timeline : Timeline τ α) (delay : τ)
    (action : α) : Except (TimerError τ) (Nat × Timeline τ α) :=
  if delay < 0 then .error (.negativeDelay delay)
  else match ClockTime.after? timeline.clock delay with
    | none => .error .tooLate
    | some due => .ok (timeline.setAt due action)

end

/-- Marks a timer as cancelled. One that has already run leaves nothing to mark. -/
def cancel (timeline : Timeline τ α) (id : Nat) : Timeline τ α :=
  if id ∈ timeline.queued ∧ id ∉ timeline.cancelled then
    { timeline with cancelled := id :: timeline.cancelled }
  else timeline

def dropCancelled (queued cancelled : List Nat) :
    List (Timer τ α) → List (Timer τ α) × List Nat × List Nat
  | [] => ([], queued, cancelled)
  | timer :: rest =>
      if cancelled.contains timer.id then
        dropCancelled (queued.erase timer.id) (cancelled.erase timer.id) rest
      else (timer :: rest, queued, cancelled)

def cleaned (timeline : Timeline τ α) : Timeline τ α :=
  let (queue, queued, cancelled) :=
    dropCancelled timeline.queued timeline.cancelled timeline.queue
  { timeline with queue, queued, cancelled }

def next? (timeline : Timeline τ α) : Option (Timer τ α × Timeline τ α) :=
  match timeline.cleaned.queue with
  | [] => none
  | timer :: queue =>
      some (timer, { timeline.cleaned with
        queue
        queued := timeline.cleaned.queued.erase timer.id })

def target [Zero τ] [ClockTime τ] [LT τ] [DecidableLT τ] (timeline : Timeline τ α)
    (duration : τ) : Except (TimerError τ) τ :=
  if duration < 0 then .error .backwards
  else match ClockTime.after? timeline.clock duration with
    | none => .error .tooLate
    | some target => .ok target

section

variable [LT τ] [DecidableLT τ]

def later (left right : τ) : τ := if left < right then right else left

def pop? (timeline : Timeline τ α) : Option (Timer τ α × Timeline τ α) :=
  timeline.next?.map fun (timer, timeline) =>
    (timer, { timeline with clock := later timeline.clock timer.due })

def popDue? (timeline : Timeline τ α) (target : τ) : Option (Timer τ α × Timeline τ α) :=
  timeline.pop?.filter fun (timer, _) => ¬target < timer.due

end

end Timeline

end Flowchart
