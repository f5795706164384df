import Flowchart.Proofs.Session.Performed
import Flowchart.Proofs.Number.Rounding

/-!
The clock of a session, told by the times that it shows.

A timer that runs moves the clock on or leaves it alone; only the end of a move of the clock puts it
anywhere, and that is back if the timers that ran have moved it past. So the clock rises over a
history exactly when each of its moves finds it no later than where the move is to end. Callbacks
that neither move the clock nor run timers see to that.
-/

namespace Flowchart

def TimerCommand.isQuiet {τ : Type} : TimerCommand τ → Bool
  | .advance _ | .runNext => false
  | _ => true

namespace Session

open TimerCommand

/-! ## Times -/

def Event.times {τ : Type} : Event τ → List τ
  | .set _ | .cancelled _ => []
  | .ran _ time | .read time => [time]
  | .arrived reached target => [reached, target]

def Event.seen? {τ : Type} : Event τ → Option τ
  | .ran _ time | .read time => some time
  | _ => none

def timesOf {τ : Type} (events : List (Event τ)) : List τ := events.flatMap Event.times

def seenOf {τ : Type} (events : List (Event τ)) : List τ := events.filterMap Event.seen?

theorem timesOf_append {τ : Type} (events more : List (Event τ)) :
    timesOf (events ++ more) = timesOf events ++ timesOf more :=
  List.flatMap_append

theorem seenOf_sublist {τ : Type} (events : List (Event τ)) :
    (seenOf events).Sublist (timesOf events) := by
  induction events with
  | nil => exact .slnil
  | cons event events induction =>
      cases event with
      | set | cancelled => exact induction
      | ran | read => exact induction.cons_cons _
      | arrived => exact (induction.cons _).cons _

def Rises (start : Number) (times : List Number) (stop : Number) : Prop :=
  (start :: times ++ [stop]).Pairwise Number.NotBefore

namespace Rises

variable {start middle stop : Number} {times more : List Number}

theorem still (time : Number) : Rises time [] time :=
  List.pairwise_pair.mpr (.refl time)

theorem once (notBefore : start.NotBefore stop) : Rises start [stop] stop := by
  refine List.pairwise_cons.mpr ⟨?_, List.pairwise_pair.mpr (.refl stop)⟩
  simpa using notBefore

theorem trans (first : Rises start times middle) (rest : Rises middle more stop) :
    Rises start (times ++ more) stop := by
  rcases List.pairwise_append.mp first with ⟨rising, _, upTo⟩
  rcases List.pairwise_cons.mp rest with ⟨onward, risingRest⟩
  rw [Rises, ← List.cons_append, List.append_assoc]
  refine List.pairwise_append.mpr ⟨rising, risingRest, fun earlier before later after => ?_⟩
  exact (upTo earlier before middle (List.mem_singleton_self middle)).trans (onward later after)

theorem pairwise (rises : Rises start times stop) : times.Pairwise Number.NotBefore :=
  (List.pairwise_cons.mp (List.pairwise_append.mp rises).1).2

end Rises

theorem notBefore_later (clock due : Number) : clock.NotBefore (Timeline.later clock due) := by
  rw [Timeline.later]
  split
  · rename_i less
    exact Number.notBefore_of_lt less
  · exact .refl clock

/-! ## Moves that keep to their ends -/

variable {state after : State (Timeline Number (Callback Number)) Number}
variable {events : List (Event Number)} {answer : Answer Number}

/-- No move of the clock puts it back. -/
def KeepsOn (events : List (Event Number)) : Prop :=
  ∀ reached target, .arrived reached target ∈ events → reached.NotBefore target

theorem keepsOn_append {more : List (Event Number)} :
    KeepsOn (events ++ more) ↔ KeepsOn events ∧ KeepsOn more := by
  constructor
  · exact fun keepsOn => ⟨fun _ _ member => keepsOn _ _ (List.mem_append_left _ member),
      fun _ _ member => keepsOn _ _ (List.mem_append_right _ member)⟩
  · rintro ⟨first, rest⟩ reached target member
    exact (List.mem_append.mp member).elim (first reached target) (rest reached target)

theorem KeepsOn.of_cons {event : Event Number} (keepsOn : KeepsOn (event :: events)) :
    KeepsOn events :=
  fun _ _ member => keepsOn _ _ (List.mem_cons_of_mem _ member)

theorem keepsOn_cons {event : Event Number}
    (isNone : ∀ reached target, event ≠ .arrived reached target) (rest : KeepsOn events) :
    KeepsOn (event :: events) := fun reached target member =>
  (List.mem_cons.mp member).elim (fun same => absurd same.symm (isNone reached target))
    (rest reached target)

theorem rises_running (timer : Timer Number (Callback Number))
    (rest : Timeline Number (Callback Number)) :
    Rises state.timers.clock (timesOf [state.event timer])
      (state.running timer rest).timers.clock :=
  .once (notBefore_later _ _)

/-- Whatever is done, the clock rises if no move puts it back. -/
theorem rises_of_does {task : Task Number} (does : Does task state events answer after)
    (keepsOn : KeepsOn events) :
    Rises state.timers.clock (timesOf events) after.timers.clock := by
  induction does with
  | set later isSet =>
      cases isSet
      exact .still _
  | @cancel tag state handle known =>
      have same : (state.timers.cancel handle.id).clock = state.timers.clock := by
        unfold Timeline.cancel
        split <;> rfl
      change Rises state.timers.clock [] (state.timers.cancel handle.id).clock
      rw [same]
      exact .still _
  | now => exact .once (.refl _)
  | runNext next callback induction =>
      exact (rises_running _ _).trans (induction keepsOn.of_cons)
  | @advance duration target state after events outcome later runs induction =>
      rcases keepsOn_append.mp keepsOn with ⟨inside, atEnd⟩
      have notBefore := atEnd _ _ (List.mem_singleton_self _)
      rw [timesOf_append]
      exact (induction inside).trans ((Rises.once (.refl _)).trans (.once notBefore))
  | advanceStops later runs induction => exact induction keepsOn
  | dueRuns next isDue callback others callbackInduction othersInduction =>
      rcases keepsOn_append.mp keepsOn.of_cons with ⟨first, rest⟩
      have rises := (callbackInduction first).trans (othersInduction rest)
      rw [← timesOf_append] at rises
      exact (rises_running _ _).trans rises
  | dueStops next isDue callback induction =>
      exact (rises_running _ _).trans (induction keepsOn.of_cons)
  | scriptGoesOn first others firstInduction othersInduction =>
      rcases keepsOn_append.mp keepsOn with ⟨inFirst, inOthers⟩
      rw [timesOf_append]
      exact (firstInduction inFirst).trans (othersInduction inOthers)
  | scriptStops first induction => exact induction keepsOn
  | _ => exact .still _

/-! ## Quiet callbacks -/

structure Quiet (state : State (Timeline Number (Callback Number)) Number) : Prop where
  shown : state.timers.clock.IsShown
  due : ∀ timer ∈ state.timers.queue, timer.due.IsShown
  quiet : ∀ timer ∈ state.timers.queue, everyOf isQuiet timer.action.script

namespace Quiet

theorem withClock (quiet : Quiet state) {clock : Number} (shown : clock.IsShown)
    {fired : List (String × Number)} :
    Quiet { state with timers := { state.timers with clock }, fired } :=
  ⟨shown, quiet.due, quiet.quiet⟩

theorem set (quiet : Quiet state) {due : Number} (shown : due.IsShown)
    {callback : Callback Number} (quietThen : everyOf isQuiet callback.script)
    (handles : List (String × Handle)) :
    Quiet { state with timers := (state.timers.setAt due callback).2, handles } := by
  have member (timer : Timer Number (Callback Number))
      (queued : timer ∈ (state.timers.setAt due callback).2.queue) :
      timer = ⟨due, state.timers.nextId, callback⟩ ∨ timer ∈ state.timers.queue :=
    List.mem_cons.mp ((Timeline.insert_perm _ _).mem_iff.mp queued)
  refine ⟨quiet.shown, fun timer queued => ?_, fun timer queued => ?_⟩
  · rcases member timer queued with rfl | earlier
    · exact shown
    · exact quiet.due timer earlier
  · rcases member timer queued with rfl | earlier
    · exact quietThen
    · exact quiet.quiet timer earlier

theorem cancel (quiet : Quiet state) (id : Nat) (handles : List (String × Handle)) :
    Quiet { state with timers := state.timers.cancel id, handles } := by
  have same : (state.timers.cancel id).clock = state.timers.clock ∧
      (state.timers.cancel id).queue = state.timers.queue := by
    unfold Timeline.cancel
    split <;> exact ⟨rfl, rfl⟩
  refine ⟨?_, ?_, ?_⟩
  · rw [same.1]
    exact quiet.shown
  · rw [same.2]
    exact quiet.due
  · rw [same.2]
    exact quiet.quiet

theorem tidied (quiet : Quiet state) : Quiet state.tidied :=
  ⟨quiet.shown, fun timer member => quiet.due timer (state.timers.cleaned_suffix.subset member),
    fun timer member => quiet.quiet timer (state.timers.cleaned_suffix.subset member)⟩

theorem running (quiet : Quiet state) {timer : Timer Number (Callback Number)}
    {rest : Timeline Number (Callback Number)}
    (next : state.timers.next? = some (timer, rest)) :
    everyOf isQuiet timer.action.script ∧ Quiet (state.running timer rest) := by
  rcases Timeline.exists_of_next? next with ⟨_, _, tail⟩
  have first : timer ∈ state.timers.queue := tail.subset List.mem_cons_self
  refine ⟨quiet.quiet timer first, ?_, ?_, ?_⟩
  · change (Timeline.later state.timers.clock timer.due).IsShown
    rw [Timeline.later]
    split
    · exact quiet.due timer first
    · exact quiet.shown
  · exact fun other member => quiet.due other (tail.subset (List.mem_cons_of_mem _ member))
  · exact fun other member => quiet.quiet other (tail.subset (List.mem_cons_of_mem _ member))

end Quiet

theorem shown_of_timeAfter {clock duration time : Number} {negative : TimerError Number}
    (shown : clock.IsShown) (later : timeAfter clock duration negative = .ok time) :
    time.IsShown ∧ clock.NotBefore time := by
  rw [timeAfter] at later
  split at later
  · cases later
  · rename_i notNegative
    cases after : ClockTime.after? clock duration with
    | none =>
        rw [after] at later
        cases later
    | some time' =>
        rw [after] at later
        cases later
        exact Number.notBefore_after? shown notNegative after

def Task.IsQuiet (state : State (Timeline Number (Callback Number)) Number) :
    Task Number → Prop
  | .command asked => asked.every isQuiet
  | .script commands => everyOf isQuiet commands
  | .due target => state.timers.clock.NotBefore target

/-- A quiet callback leaves the clock alone, and running quiet timers does not pass the end. -/
def Stays (state after : State (Timeline Number (Callback Number)) Number) : Task Number → Prop
  | .due target => after.timers.clock.NotBefore target
  | _ => after.timers.clock = state.timers.clock

theorem notBefore_running {timer : Timer Number (Callback Number)} {target : Number}
    (rest : Timeline Number (Callback Number)) (notPast : state.timers.clock.NotBefore target)
    (isDue : ¬target < timer.due) :
    (state.running timer rest).timers.clock.NotBefore target := by
  change (Timeline.later state.timers.clock timer.due).NotBefore target
  rw [Timeline.later]
  split
  · rename_i less
    exact Number.notBefore_of_not_lt less isDue
  · exact notPast

theorem stays_of_does {task : Task Number} (does : Does task state events answer after)
    (quiet : Quiet state) (calm : task.IsQuiet state) :
    Quiet after ∧ KeepsOn events ∧ Stays state after task := by
  have none : KeepsOn [] := nofun
  induction does with
  | @set tag delay due script state id timers later isSet =>
      cases isSet
      have quietThen : everyOf isQuiet script := calm
      exact ⟨quiet.set (shown_of_timeAfter quiet.shown later).1 quietThen _,
        keepsOn_cons nofun none, rfl⟩
  | @cancel tag state handle known =>
      refine ⟨quiet.cancel handle.id _, keepsOn_cons nofun none, ?_⟩
      change (state.timers.cancel handle.id).clock = state.timers.clock
      unfold Timeline.cancel
      split <;> rfl
  | now => exact ⟨quiet, keepsOn_cons nofun none, rfl⟩
  | runNextIdle idle => cases calm
  | runNext next callback => cases calm
  | advanceFails refused => cases calm
  | advance later runs => cases calm
  | advanceStops later runs => cases calm
  | dueIdle idle => exact ⟨quiet.tidied, none, calm⟩
  | dueDone next notDue => exact ⟨quiet.tidied, none, calm⟩
  | @dueRuns target state middle after timer rest events more outcome answer next isDue callback
      others callbackInduction othersInduction =>
      rcases quiet.running next with ⟨quietCallback, quietRunning⟩
      rcases callbackInduction quietRunning quietCallback with ⟨quietThen, keepsOn, still⟩
      have notPast : middle.timers.clock.NotBefore target := by
        rw [still]
        exact notBefore_running rest calm isDue
      rcases othersInduction quietThen notPast with ⟨quietAfter, keepsOnThen, stays⟩
      exact ⟨quietAfter, keepsOn_cons nofun (keepsOn_append.mpr ⟨keepsOn, keepsOnThen⟩), stays⟩
  | @dueStops target state after timer rest events failure next isDue callback induction =>
      rcases quiet.running next with ⟨quietCallback, quietRunning⟩
      rcases induction quietRunning quietCallback with ⟨quietThen, keepsOn, still⟩
      refine ⟨quietThen, keepsOn_cons nofun keepsOn, ?_⟩
      rw [Stays, still]
      exact notBefore_running rest calm isDue
  | scriptGoesOn first others firstInduction othersInduction =>
      rcases Bool.and_eq_true_iff.mp calm with ⟨calmFirst, calmOthers⟩
      rcases firstInduction quiet calmFirst with ⟨quietThen, keepsOn, still⟩
      rcases othersInduction quietThen calmOthers with ⟨quietAfter, keepsOnThen, stillThen⟩
      exact ⟨quietAfter, keepsOn_append.mpr ⟨keepsOn, keepsOnThen⟩, stillThen.trans still⟩
  | scriptStops first induction =>
      exact induction quiet (Bool.and_eq_true_iff.mp calm).1
  | _ => exact ⟨quiet, none, rfl⟩

theorem Quiet.command {asked : TimerCommand Number}
    (does : Does (.command asked) state events answer after) (quiet : Quiet state)
    (setsQuiet : asked.setsOnly isQuiet) : Quiet after ∧ KeepsOn events := by
  cases does with
  | runNextIdle idle => exact ⟨quiet.tidied, nofun⟩
  | runNext next callback =>
      rcases quiet.running next with ⟨quietCallback, quietRunning⟩
      rcases stays_of_does callback quietRunning quietCallback with ⟨quietThen, keepsOn, _⟩
      exact ⟨quietThen, keepsOn_cons nofun keepsOn⟩
  | advanceFails refused => exact ⟨quiet, nofun⟩
  | advance later runs =>
      rcases shown_of_timeAfter quiet.shown later with ⟨shown, notPast⟩
      rcases stays_of_does runs quiet notPast with ⟨quietThen, keepsOn, stays⟩
      refine ⟨quietThen.withClock shown, keepsOn_append.mpr ⟨keepsOn, ?_⟩⟩
      rintro reached target member
      cases List.mem_singleton.mp member
      exact stays
  | advanceStops later runs =>
      rcases shown_of_timeAfter quiet.shown later with ⟨_, notPast⟩
      rcases stays_of_does runs quiet notPast with ⟨quietThen, keepsOn, _⟩
      exact ⟨quietThen, keepsOn⟩
  | @set tag delay due script _ _ _ later isSet =>
      rcases stays_of_does (.set later isSet) quiet setsQuiet with ⟨quietThen, keepsOn, _⟩
      exact ⟨quietThen, keepsOn⟩
  | setFails refused => exact ⟨quiet, nofun⟩
  | cancel known =>
      rcases stays_of_does (.cancel known) quiet rfl with ⟨quietThen, keepsOn, _⟩
      exact ⟨quietThen, keepsOn⟩
  | now => exact ⟨quiet, keepsOn_cons nofun nofun⟩
  | _ => exact ⟨quiet, nofun⟩

/-! ## Histories -/

theorem History.rises {total : Nat} {session last : Session Number}
    {commands : List (TimerCommand Number)} {entries : List (Entry Number)}
    (history : History total session commands entries last)
    (keepsOn : KeepsOn (eventsOf entries)) :
    Rises session.timeline.clock (timesOf (eventsOf entries)) last.timeline.clock := by
  induction history with
  | nil session => exact .still _
  | cons performed does rest induction =>
      rw [eventsOf_cons] at keepsOn
      rcases keepsOn_append.mp keepsOn with ⟨first, others⟩
      rw [eventsOf_cons, timesOf_append]
      exact (rises_of_does does first).trans (induction others)

theorem History.keepsOn {total : Nat} {session last : Session Number}
    {commands : List (TimerCommand Number)} {entries : List (Entry Number)}
    (history : History total session commands entries last) (quiet : Quiet session.state)
    (setsQuiet : ∀ asked ∈ commands, asked.setsOnly isQuiet) : KeepsOn (eventsOf entries) := by
  induction history with
  | nil session => exact nofun
  | cons performed does rest induction =>
      rcases List.forall_mem_cons.mp setsQuiet with ⟨first, others⟩
      rcases quiet.command does first with ⟨quietNext, keepsOn⟩
      rw [eventsOf_cons]
      exact keepsOn_append.mpr ⟨keepsOn, induction quietNext others⟩

/-- The clock of a session rises exactly when each of its moves finds it no later than where the
move ends. Then no one sees an earlier time after a later one. Quiet callbacks see to it. -/
theorem rises_iff_keepsOn (commands : List (TimerCommand Number)) (entries : List (Entry Number))
    (last : Session Number)
    (history : History (sizeAll commands) (.initial .timeline) commands entries last) :
    ((timesOf (eventsOf entries)).Pairwise Number.NotBefore ↔ KeepsOn (eventsOf entries)) ∧
      (KeepsOn (eventsOf entries) → (seenOf (eventsOf entries)).Pairwise Number.NotBefore) ∧
      ((∀ asked ∈ commands, asked.setsOnly isQuiet) → KeepsOn (eventsOf entries)) := by
  refine ⟨⟨fun rising reached target member => ?_, fun keepsOn => (history.rises keepsOn).pairwise⟩,
    fun keepsOn => (history.rises keepsOn).pairwise.sublist (seenOf_sublist _), ?_⟩
  · have pair := (List.pairwise_flatMap.mp rising).1 _ member
    exact (List.pairwise_cons.mp pair).1 target (List.mem_singleton_self target)
  · exact history.keepsOn ⟨Number.isShown_zero, nofun, nofun⟩

theorem rises_of_setting :
    ∃ entries last, History 4 (.initial .timeline)
      [.set "a" (.int 10) [.set "b" (.int 50) []], .advance (.int 20), .now] entries last ∧
      (seenOf (eventsOf entries)).Pairwise Number.NotBefore := by
  rcases exists_history [.set "a" (Number.int 10) [.set "b" (.int 50) []], .advance (.int 20), .now]
    with ⟨entries, last, history⟩
  have rises := rises_iff_keepsOn _ entries last history
  exact ⟨entries, last, history, rises.2.1 (rises.2.2 (by decide))⟩

theorem mem_seenOf_of_records {tag : String} {time : Number} {events : List (Event Number)}
    (recorded : (tag, time) ∈ records events) : time ∈ seenOf events := by
  rcases List.mem_filterMap.mp recorded with ⟨event, member, isRecord⟩
  refine List.mem_filterMap.mpr ⟨event, member, ?_⟩
  cases event <;> cases isRecord
  rfl

theorem events_of_now (does : Does (.command .now) state events answer after) :
    events = [.read state.timers.clock] := by
  cases does
  rfl

def racing : List (TimerCommand Number) := [.set "b" (.int 50) [], .advance (.int 100)]

/-- A callback moves the clock past the end of the move that runs it, which then puts it back. -/
theorem exists_sets_back :
    ¬∀ (commands : List (TimerCommand Number)) (entries : List (Entry Number))
      (last : Session Number),
      History (sizeAll commands) (.initial .timeline) commands entries last →
        (seenOf (eventsOf entries)).Pairwise Number.NotBefore := by
  intro always
  rcases exists_history [.set "a" (Number.int 10) racing, .advance (.int 20), .now] with
    ⟨entries, last, history⟩
  have rising := always _ entries last history
  cases history with
  | @cons _ first _ _ _ setEvents _ _ isSet sets history =>
  cases history with
  | @cons _ second _ _ _ moveEvents _ _ isMoved moves history =>
  cases history with
  | @cons _ _ _ _ _ _ _ _ _ reads history =>
  cases history
  -- The second timer is on record at a time after the one that is read in the end.
  have firstIs : ((Session.initial .timeline).command 5 (.set "a" (.int 10) racing)).2 = first :=
    congrArg Prod.snd isSet
  have secondIs : (first.command 5 (.advance (.int 20))).2 = second := congrArg Prod.snd isMoved
  rw [← firstIs] at secondIs
  have fired : second.fired = records (setEvents ++ moveEvents) := by
    have recorded : first.fired = [] ++ records setEvents := sets.recorded
    rw [records_append, ← List.nil_append (records setEvents), ← recorded]
    exact moves.recorded
  have ran : ("b", .float (.ofInt 60)) ∈ records (setEvents ++ moveEvents) := by
    rw [← fired, ← secondIs]
    decide +kernel
  have read : second.timeline.clock = .float (.ofInt 20) := by
    rw [← secondIs]
    decide +kernel
  have setsBack : (Number.float (.ofInt 60)).NotBefore (.float (.ofInt 20)) := by
    have split : seenOf (setEvents ++ (moveEvents ++ ([.read second.timeline.clock] ++ []))) =
        seenOf (setEvents ++ moveEvents) ++ [second.timeline.clock] := by
      rw [← List.append_assoc, List.append_nil]
      exact List.filterMap_append
    rw [events_of_now reads] at rising
    change (seenOf (setEvents ++ (moveEvents ++ ([.read second.timeline.clock] ++ [])))).Pairwise _
      at rising
    rw [split, read] at rising
    exact (List.pairwise_append.mp rising).2.2 _ (mem_seenOf_of_records ran) _
      (List.mem_singleton_self _)
  revert setsBack
  unfold Number.NotBefore
  decide +kernel

end Session

end Flowchart
