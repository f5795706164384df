import Flowchart.Proofs.Timeline.TimerSet
import Flowchart.Timeline.Session

/-!
What commands do, told without fuel and over any store of timers.

A task is a command, the script of a callback or the timers that are due by some time. Doing a task
leads from one state to another, comes to an answer, and is told as a list of events: which timers
were set, cancelled and run, and what was seen of the clock. The stores are timelines and the maps
that they stand for; what is done over one that represents the other is done over the other too.
-/

namespace Flowchart

namespace TimerCommand

variable {τ : Type}

mutual

def every (test : TimerCommand τ → Bool) : TimerCommand τ → Bool
  | .set tag delay script => test (.set tag delay script) && everyOf test script
  | other => test other

def everyOf (test : TimerCommand τ → Bool) : List (TimerCommand τ) → Bool
  | [] => true
  | command :: rest => every test command && everyOf test rest

end

def setsOnly (test : TimerCommand τ → Bool) : TimerCommand τ → Bool
  | .set _ _ script => everyOf test script
  | _ => true

end TimerCommand

class TimerStore (κ : Type) (τ α : outParam Type) where
  clock : κ → τ
  withClock : κ → τ → κ
  setAt : κ → τ → α → Nat × κ
  cancel : κ → Nat → κ
  /-- The store without what it still keeps of cancelled timers. -/
  tidied : κ → κ
  /-- Whether this is the next timer, with the store that is left without it, or whether there is
  none. -/
  Next : κ → Option (Timer τ α × κ) → Prop

section

variable {τ α : Type}

instance [LE τ] [DecidableLE τ] : TimerStore (Timeline τ α) τ α where
  clock := Timeline.clock
  withClock timeline clock := { timeline with clock }
  setAt := Timeline.setAt
  cancel := Timeline.cancel
  tidied := Timeline.cleaned
  Next timeline next := timeline.next? = next

instance [LT τ] : TimerStore (TimerSet τ α) τ α where
  clock := TimerSet.clock
  withClock set clock := { set with clock }
  setAt := TimerSet.setAt
  cancel := TimerSet.remove
  tidied set := set
  Next set next := match next with
    | none => ∀ id, set.timers id = none
    | some (timer, rest) => set.IsNext timer ∧ rest = set.remove timer.id

end

namespace Session

structure State (κ τ : Type) where
  timers : κ
  handles : List (String × Handle)
  fired : List (String × τ)

inductive Task (τ : Type)
  | command (command : TimerCommand τ)
  | script (commands : List (TimerCommand τ))
  /-- Runs the timers that are due by a time. -/
  | due (target : τ)

inductive Event (τ : Type)
  | set (timer : Timer τ (Callback τ))
  | cancelled (id : Nat)
  | ran (timer : Timer τ (Callback τ)) (time : τ)
  /-- The clock was read. -/
  | read (time : τ)
  /-- A move of the clock ends: its timers have left the clock at the first time, and it is put to
  the second. -/
  | arrived (reached target : τ)

def Event.record? {τ : Type} : Event τ → Option (String × τ)
  | .ran timer time => some (timer.action.tag, time)
  | _ => none

def records {τ : Type} (events : List (Event τ)) : List (String × τ) :=
  events.filterMap Event.record?

theorem records_append {τ : Type} (events more : List (Event τ)) :
    records (events ++ more) = records events ++ records more :=
  List.filterMap_append

abbrev Answer (τ : Type) := Except (Failure τ) (Outcome τ)

def Answer.plus {τ : Type} (count : Nat) : Answer τ → Answer τ
  | .ok (.count more) => .ok (.count (count + more))
  | other => other

theorem Answer.plus_zero {τ : Type} (answer : Answer τ) : answer.plus 0 = answer := by
  rcases answer with failure | (_ | _ | more | _)
  case ok.count => simp only [plus, Nat.zero_add]
  all_goals rfl

theorem Answer.plus_plus {τ : Type} (answer : Answer τ) (left right : Nat) :
    (answer.plus right).plus left = answer.plus (left + right) := by
  rcases answer with failure | (_ | _ | more | _)
  case ok.count => simp only [plus, Nat.add_assoc]
  all_goals rfl

section

variable {τ : Type} [Zero τ] [LT τ] [DecidableLT τ] [ClockTime τ]

def timeAfter (clock duration : τ) (negative : TimerError τ) : Except (Failure τ) τ :=
  if duration < 0 then .error (.timer negative)
  else match ClockTime.after? clock duration with
    | none => .error (.timer .tooLate)
    | some time => .ok time

variable {κ : Type} [TimerStore κ τ (Callback τ)]

open TimerStore

def State.running (state : State κ τ) (timer : Timer τ (Callback τ)) (rest : κ) : State κ τ :=
  let time := Timeline.later (clock state.timers) timer.due
  { state with
    timers := withClock rest time
    fired := state.fired ++ [(timer.action.tag, time)] }

def State.tidied (state : State κ τ) : State κ τ :=
  { state with timers := TimerStore.tidied state.timers }

def State.event (state : State κ τ) (timer : Timer τ (Callback τ)) : Event τ :=
  .ran timer (Timeline.later (clock state.timers) timer.due)

/-- What doing a task comes to. -/
inductive Does : Task τ → State κ τ → List (Event τ) → Answer τ → State κ τ → Prop
  | set {tag : String} {delay due : τ} {script : List (TimerCommand τ)} {state : State κ τ}
      {id : Nat} {timers : κ}
      (later : timeAfter (clock state.timers) delay (.negativeDelay delay) = .ok due)
      (isSet : setAt state.timers due ⟨tag, script⟩ = (id, timers)) :
      Does (.command (.set tag delay script)) state [.set ⟨due, id, tag, script⟩] (.ok .nothing)
        { state with timers, handles := setHandle tag ⟨id, false⟩ state.handles }
  | setFails {tag : String} {delay : τ} {script : List (TimerCommand τ)} {state : State κ τ}
      {failure : Failure τ}
      (refused : timeAfter (clock state.timers) delay (.negativeDelay delay) = .error failure) :
      Does (.command (.set tag delay script)) state [] (.error failure) state
  | cancel {tag : String} {state : State κ τ} {handle : Handle}
      (known : state.handles.lookup tag = some handle) :
      Does (.command (.cancel tag)) state [.cancelled handle.id] (.ok (.flag true))
        { state with
          timers := TimerStore.cancel state.timers handle.id
          handles := setHandle tag { handle with cancelled := true } state.handles }
  | cancelUnknown {tag : String} {state : State κ τ} (unknown : state.handles.lookup tag = none) :
      Does (.command (.cancel tag)) state [] (.ok (.flag false)) state
  | isCancelled {tag : String} {state : State κ τ} :
      Does (.command (.isCancelled tag)) state []
        (.ok (.flag ((state.handles.lookup tag).any (·.cancelled)))) state
  | now {state : State κ τ} :
      Does (.command .now) state [.read (clock state.timers)] (.ok (.time (clock state.timers)))
        state
  | fail {message : String} {state : State κ τ} :
      Does (.command (.fail message)) state [] (.error (.failed message)) state
  | runNextIdle {state : State κ τ} (idle : Next state.timers none) :
      Does (.command .runNext) state [] (.ok (.flag false)) state.tidied
  | runNext {state after : State κ τ} {timer : Timer τ (Callback τ)} {rest : κ}
      {events : List (Event τ)} {answer : Answer τ}
      (next : Next state.timers (some (timer, rest)))
      (callback : Does (.script timer.action.script) (state.running timer rest) events answer
        after) :
      Does (.command .runNext) state (state.event timer :: events)
        (answer.map fun _ => .flag true) after
  | advanceFails {duration : τ} {state : State κ τ} {failure : Failure τ}
      (refused : timeAfter (clock state.timers) duration .backwards = .error failure) :
      Does (.command (.advance duration)) state [] (.error failure) state
  | advance {duration target : τ} {state after : State κ τ} {events : List (Event τ)}
      {outcome : Outcome τ}
      (later : timeAfter (clock state.timers) duration .backwards = .ok target)
      (runs : Does (.due target) state events (.ok outcome) after) :
      Does (.command (.advance duration)) state
        (events ++ [.arrived (clock after.timers) target]) (.ok outcome)
        { after with timers := withClock after.timers target }
  | advanceStops {duration target : τ} {state after : State κ τ} {events : List (Event τ)}
      {failure : Failure τ}
      (later : timeAfter (clock state.timers) duration .backwards = .ok target)
      (runs : Does (.due target) state events (.error failure) after) :
      Does (.command (.advance duration)) state events (.error failure) after
  | dueIdle {target : τ} {state : State κ τ} (idle : Next state.timers none) :
      Does (.due target) state [] (.ok (.count 0)) state.tidied
  | dueDone {target : τ} {state : State κ τ} {timer : Timer τ (Callback τ)} {rest : κ}
      (next : Next state.timers (some (timer, rest))) (notDue : target < timer.due) :
      Does (.due target) state [] (.ok (.count 0)) state.tidied
  | dueRuns {target : τ} {state middle after : State κ τ} {timer : Timer τ (Callback τ)} {rest : κ}
      {events more : List (Event τ)} {outcome : Outcome τ} {answer : Answer τ}
      (next : Next state.timers (some (timer, rest))) (isDue : ¬target < timer.due)
      (callback : Does (.script timer.action.script) (state.running timer rest) events
        (.ok outcome) middle)
      (others : Does (.due target) middle more answer after) :
      Does (.due target) state (state.event timer :: (events ++ more)) (answer.plus 1) after
  | dueStops {target : τ} {state after : State κ τ} {timer : Timer τ (Callback τ)} {rest : κ}
      {events : List (Event τ)} {failure : Failure τ}
      (next : Next state.timers (some (timer, rest))) (isDue : ¬target < timer.due)
      (callback : Does (.script timer.action.script) (state.running timer rest) events
        (.error failure) after) :
      Does (.due target) state (state.event timer :: events) (.error failure) after
  | scriptEnds {state : State κ τ} : Does (.script []) state [] (.ok .nothing) state
  | scriptGoesOn {command : TimerCommand τ} {commands : List (TimerCommand τ)}
      {state middle after : State κ τ} {events more : List (Event τ)} {outcome : Outcome τ}
      {answer : Answer τ}
      (first : Does (.command command) state events (.ok outcome) middle)
      (others : Does (.script commands) middle more answer after) :
      Does (.script (command :: commands)) state (events ++ more) answer after
  | scriptStops {command : TimerCommand τ} {commands : List (TimerCommand τ)}
      {state after : State κ τ} {events : List (Event τ)} {failure : Failure τ}
      (first : Does (.command command) state events (.error failure) after) :
      Does (.script (command :: commands)) state events (.error failure) after

theorem Does.recorded {task : Task τ} {state after : State κ τ} {events : List (Event τ)}
    {answer : Answer τ} (does : Does task state events answer after) :
    after.fired = state.fired ++ records events := by
  have ran (state : State κ τ) (timer : Timer τ (Callback τ)) (rest : κ)
      (events : List (Event τ)) :
      state.fired ++ records (state.event timer :: events) =
        (state.running timer rest).fired ++ records events :=
    (List.append_assoc state.fired [_] _).symm
  induction does with
  | runNext next callback induction => rw [induction, ran]
  | advance later runs induction =>
      rw [records_append]
      exact induction.trans (congrArg _ (List.append_nil _).symm)
  | advanceStops later runs induction => exact induction
  | dueRuns next isDue callback others callbackInduction othersInduction =>
      rw [othersInduction, callbackInduction, ran, records_append, List.append_assoc]
  | dueStops next isDue callback induction => rw [induction, ran]
  | scriptGoesOn first others firstInduction othersInduction =>
      rw [othersInduction, firstInduction, records_append, List.append_assoc]
  | scriptStops first induction => exact induction
  | _ => exact (List.append_nil _).symm

end

/-! ## Stores that represent others -/

/-- A view of the well-kept stores of one kind as stores of another. -/
structure Represents {κ ι τ α : Type} [TimerStore κ τ α] [TimerStore ι τ α] (kept : κ → Prop)
    (view : κ → ι) : Prop where
  clock (store : κ) : TimerStore.clock (view store) = TimerStore.clock store
  withClock {store : κ} (good : kept store) (time : τ) :
    kept (TimerStore.withClock store time) ∧
      TimerStore.withClock (view store) time = view (TimerStore.withClock store time)
  setAt {store after : κ} {due : τ} {action : α} {id : Nat} (good : kept store)
    (isSet : TimerStore.setAt store due action = (id, after)) :
    kept after ∧ TimerStore.setAt (view store) due action = (id, view after)
  cancel {store : κ} (good : kept store) (id : Nat) :
    kept (TimerStore.cancel store id) ∧
      TimerStore.cancel (view store) id = view (TimerStore.cancel store id)
  tidied {store : κ} (good : kept store) :
    kept (TimerStore.tidied store) ∧
      TimerStore.tidied (view store) = view (TimerStore.tidied store)
  idle {store : κ} (good : kept store) (idle : TimerStore.Next store none) :
    TimerStore.Next (view store) none
  next {store rest : κ} {timer : Timer τ α} (good : kept store)
    (next : TimerStore.Next store (some (timer, rest))) :
    kept rest ∧ TimerStore.Next (view store) (some (timer, view rest))

def State.through {κ ι τ : Type} (view : κ → ι) (state : State κ τ) : State ι τ :=
  ⟨view state.timers, state.handles, state.fired⟩

section

variable {τ κ ι : Type} [LT τ] [DecidableLT τ]
variable [TimerStore κ τ (Callback τ)] [TimerStore ι τ (Callback τ)]
variable {kept : κ → Prop} {view : κ → ι}

theorem Represents.running (represents : Represents kept view) {state : State κ τ} {rest : κ}
    (good : kept rest) (timer : Timer τ (Callback τ)) :
    kept (state.running timer rest).timers ∧
      (state.through view).running timer (view rest) = (state.running timer rest).through view := by
  rcases represents.withClock good (Timeline.later (TimerStore.clock state.timers) timer.due) with
    ⟨goodThen, same⟩
  refine ⟨goodThen, ?_⟩
  simp only [State.running, State.through, represents.clock, same]

theorem Represents.event (represents : Represents kept view) (state : State κ τ)
    (timer : Timer τ (Callback τ)) : (state.through view).event timer = state.event timer := by
  simp only [State.event, State.through, represents.clock]

omit [LT τ] [DecidableLT τ] in
theorem Represents.state_tidied (represents : Represents kept view) {state : State κ τ}
    (good : kept state.timers) :
    kept state.tidied.timers ∧ (state.through view).tidied = state.tidied.through view := by
  rcases represents.tidied good with ⟨goodThen, same⟩
  refine ⟨goodThen, ?_⟩
  simp only [State.tidied, State.through, same]

variable [Zero τ] [ClockTime τ]

/-- What is done over stores that represent others is done over the others too. -/
theorem Represents.does (represents : Represents kept view) {task : Task τ}
    {state after : State κ τ} {events : List (Event τ)} {answer : Answer τ}
    (does : Does task state events answer after) (good : kept state.timers) :
    kept after.timers ∧ Does task (state.through view) events answer (after.through view) := by
  have clock (state : State κ τ) : TimerStore.clock (state.through view).timers =
      TimerStore.clock state.timers := represents.clock state.timers
  induction does with
  | set later isSet =>
      rcases represents.setAt good isSet with ⟨goodThen, isSet⟩
      exact ⟨goodThen, .set (by rwa [clock]) isSet⟩
  | setFails refused => exact ⟨good, .setFails (by rwa [clock])⟩
  | cancel known =>
      rcases represents.cancel good _ with ⟨goodThen, same⟩
      refine ⟨goodThen, ?_⟩
      have done : Does _ (State.through view _) _ _ _ := .cancel known
      rwa [State.through, same] at done
  | cancelUnknown unknown => exact ⟨good, .cancelUnknown unknown⟩
  | isCancelled => exact ⟨good, .isCancelled⟩
  | now =>
      rw [← clock]
      exact ⟨good, .now⟩
  | fail => exact ⟨good, .fail⟩
  | runNextIdle idle =>
      rcases represents.state_tidied good with ⟨goodThen, same⟩
      exact ⟨goodThen, same ▸ .runNextIdle (represents.idle good idle)⟩
  | runNext next callback induction =>
      rcases represents.next good next with ⟨goodRest, next⟩
      rcases represents.running goodRest _ with ⟨goodRunning, running⟩
      rcases induction goodRunning with ⟨goodThen, callback⟩
      rw [← represents.event]
      exact ⟨goodThen, .runNext next (running ▸ callback)⟩
  | advanceFails refused => exact ⟨good, .advanceFails (by rwa [clock])⟩
  | advance later runs induction =>
      rcases induction good with ⟨goodThen, runs⟩
      rcases represents.withClock goodThen _ with ⟨goodMoved, same⟩
      refine ⟨goodMoved, ?_⟩
      have done := Does.advance (by rwa [clock]) runs
      rw [clock] at done
      simp only [State.through, same] at done
      exact done
  | advanceStops later runs induction =>
      rcases induction good with ⟨goodThen, runs⟩
      exact ⟨goodThen, .advanceStops (by rwa [clock]) runs⟩
  | dueIdle idle =>
      rcases represents.state_tidied good with ⟨goodThen, same⟩
      exact ⟨goodThen, same ▸ .dueIdle (represents.idle good idle)⟩
  | dueDone next notDue =>
      rcases represents.state_tidied good with ⟨goodThen, same⟩
      exact ⟨goodThen, same ▸ .dueDone (represents.next good next).2 notDue⟩
  | dueRuns next isDue callback others callbackInduction othersInduction =>
      rcases represents.next good next with ⟨goodRest, next⟩
      rcases represents.running goodRest _ with ⟨goodRunning, running⟩
      rcases callbackInduction goodRunning with ⟨goodMiddle, callback⟩
      rcases othersInduction goodMiddle with ⟨goodThen, others⟩
      rw [← represents.event]
      exact ⟨goodThen, .dueRuns next isDue (running ▸ callback) others⟩
  | dueStops next isDue callback induction =>
      rcases represents.next good next with ⟨goodRest, next⟩
      rcases represents.running goodRest _ with ⟨goodRunning, running⟩
      rcases induction goodRunning with ⟨goodThen, callback⟩
      rw [← represents.event]
      exact ⟨goodThen, .dueStops next isDue (running ▸ callback)⟩
  | scriptEnds => exact ⟨good, .scriptEnds⟩
  | scriptGoesOn first others firstInduction othersInduction =>
      rcases firstInduction good with ⟨goodMiddle, first⟩
      rcases othersInduction goodMiddle with ⟨goodThen, others⟩
      exact ⟨goodThen, .scriptGoesOn first others⟩
  | scriptStops first induction =>
      rcases induction good with ⟨goodThen, first⟩
      exact ⟨goodThen, .scriptStops first⟩

end

theorem represents_timerSet {τ α : Type} [LinearOrder τ] :
    Represents (Timeline.Ordered (τ := τ) (α := α)) Timeline.timerSet where
  clock _ := rfl
  withClock good time := ⟨good.withClock time, rfl⟩
  setAt := by
    rintro store after due action id good isSet
    cases isSet
    exact ⟨good.setAt due action, Prod.ext rfl (Timeline.timerSet_setAt good due action).symm⟩
  cancel good id := ⟨good.cancel id, (Timeline.timerSet_cancel good.toWellFormed id).symm⟩
  tidied good := ⟨good.cleaned, (Timeline.timerSet_cleaned good.toWellFormed).symm⟩
  idle good idle := Timeline.timerSet_idle good.toWellFormed idle
  next good next := by
    rcases Timeline.timerSet_next good next with ⟨goodRest, isNext, same⟩
    exact ⟨goodRest, isNext, same⟩

end Session

end Flowchart
