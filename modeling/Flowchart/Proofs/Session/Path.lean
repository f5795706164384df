import Flowchart.Proofs.Session.Doing
import Mathlib.Data.List.Basic

/-!
The life of a set of timers, step by step.

A step is one event: a timer is set for a time to come, one that was set is cancelled, the next one
runs when the clock shows its time, or the clock is read or moved on to a time before any timer. A
path is a row of steps. Whatever path is taken, the timers of the set are those that were set and
neither cancelled nor run, and no timer runs that is behind one that has run.
-/

namespace Flowchart

namespace Session

variable {τ : Type}

/-! ## What is told of timers -/

namespace Event

def set? : Event τ → Option (Timer τ (Callback τ))
  | .set timer => some timer
  | _ => none

def run? : Event τ → Option (Timer τ (Callback τ))
  | .ran timer _ => some timer
  | _ => none

def ended? : Event τ → Option Nat
  | .ran timer _ => some timer.id
  | .cancelled id => some id
  | _ => none

end Event

def scheduled (events : List (Event τ)) : List (Timer τ (Callback τ)) :=
  events.filterMap Event.set?

def runs (events : List (Event τ)) : List (Timer τ (Callback τ)) := events.filterMap Event.run?

def ended (events : List (Event τ)) : List Nat := events.filterMap Event.ended?

def unsettled (events : List (Event τ)) : List (Timer τ (Callback τ)) :=
  (scheduled events).filter fun timer => timer.id ∉ ended events

@[simp] theorem scheduled_append (events more : List (Event τ)) :
    scheduled (events ++ more) = scheduled events ++ scheduled more :=
  List.filterMap_append

@[simp] theorem runs_append (events more : List (Event τ)) :
    runs (events ++ more) = runs events ++ runs more :=
  List.filterMap_append

@[simp] theorem ended_append (events more : List (Event τ)) :
    ended (events ++ more) = ended events ++ ended more :=
  List.filterMap_append

@[simp] theorem runs_cons_ran (timer : Timer τ (Callback τ)) (time : τ) (events : List (Event τ)) :
    runs (.ran timer time :: events) = timer :: runs events :=
  rfl

theorem mem_ended_of_mem_runs {timer : Timer τ (Callback τ)} {events : List (Event τ)}
    (ran : timer ∈ runs events) : timer.id ∈ ended events := by
  rcases List.mem_filterMap.mp ran with ⟨event, member, isRun⟩
  refine List.mem_filterMap.mpr ⟨event, member, ?_⟩
  cases event <;> cases isRun
  rfl

/-! ## Steps -/

variable [LinearOrder τ]

inductive Step : TimerSet τ (Callback τ) → Event τ → TimerSet τ (Callback τ) → Prop
  | set {set : TimerSet τ (Callback τ)} {due : τ} (notPast : set.clock ≤ due)
      (callback : Callback τ) :
      Step set (.set ⟨due, set.nextId, callback⟩) (set.setAt due callback).2
  | cancelled {set : TimerSet τ (Callback τ)} {id : Nat} (known : id < set.nextId) :
      Step set (.cancelled id) (set.remove id)
  | ran {set : TimerSet τ (Callback τ)} {timer : Timer τ (Callback τ)}
      (next : set.IsNext timer) (notPast : set.clock ≤ timer.due) :
      Step set (.ran timer timer.due) { set.remove timer.id with clock := timer.due }
  | read {set : TimerSet τ (Callback τ)} : Step set (.read set.clock) set
  | arrived {set : TimerSet τ (Callback τ)} {target : τ} (notBack : set.clock ≤ target)
      (noneDue : ∀ id due action, set.timers id = some (due, action) → target < due) :
      Step set (.arrived set.clock target) { set with clock := target }

inductive Path : TimerSet τ (Callback τ) → List (Event τ) → TimerSet τ (Callback τ) → Prop
  | nil {set : TimerSet τ (Callback τ)} : Path set [] set
  | cons {set middle after : TimerSet τ (Callback τ)} {event : Event τ} {events : List (Event τ)}
      (step : Step set event middle) (rest : Path middle events after) :
      Path set (event :: events) after

theorem Path.append {set middle after : TimerSet τ (Callback τ)} {events more : List (Event τ)}
    (path : Path set events middle) (rest : Path middle more after) :
    Path set (events ++ more) after := by
  induction path with
  | nil => exact rest
  | cons step _ induction => exact .cons step (induction rest)

theorem Path.single {set after : TimerSet τ (Callback τ)} {event : Event τ}
    (step : Step set event after) : Path set [event] after :=
  .cons step .nil

/-! ## What holds after a path -/

/-- The timers of a set are those that are not settled by what has happened. -/
structure Accounted (past : List (Event τ)) (set : TimerSet τ (Callback τ)) : Prop where
  scheduled_lt : ∀ timer ∈ scheduled past, timer.id < set.nextId
  ended_lt : ∀ id ∈ ended past, id < set.nextId
  distinct : ((scheduled past).map Timer.id).Nodup
  entries (id : Nat) (due : τ) (action : Callback τ) :
    set.timers id = some (due, action) ↔ ⟨due, id, action⟩ ∈ scheduled past ∧ id ∉ ended past

namespace Accounted

variable {past : List (Event τ)} {set after : TimerSet τ (Callback τ)}

omit [LinearOrder τ] in
theorem startingAt (clock : τ) : Accounted [] (.startingAt clock : TimerSet τ (Callback τ)) where
  scheduled_lt := nofun
  ended_lt := nofun
  distinct := .nil
  entries _ _ _ := ⟨nofun, nofun⟩

omit [LinearOrder τ] in
theorem id_lt (accounted : Accounted past set) {id : Nat} {due : τ} {action : Callback τ}
    (found : set.timers id = some (due, action)) : id < set.nextId :=
  accounted.scheduled_lt _ ((accounted.entries id due action).mp found).1

omit [LinearOrder τ] in
theorem of_silent (accounted : Accounted past set) {event : Event τ}
    (setsNone : event.set? = none) (endsNone : event.ended? = none)
    (sameNext : after.nextId = set.nextId) (sameTimers : after.timers = set.timers) :
    Accounted (past ++ [event]) after := by
  have scheduledSame : scheduled (past ++ [event]) = scheduled past := by
    simp [scheduled, setsNone]
  have endedSame : ended (past ++ [event]) = ended past := by
    simp [ended, endsNone]
  constructor
  · simpa [scheduledSame, sameNext] using accounted.scheduled_lt
  · simpa [endedSame, sameNext] using accounted.ended_lt
  · simpa [scheduledSame] using accounted.distinct
  · simpa [scheduledSame, endedSame, sameTimers] using accounted.entries

omit [LinearOrder τ] in
theorem of_ended (accounted : Accounted past set) {event : Event τ} {id : Nat}
    (known : id < set.nextId) (setsNone : event.set? = none) (ends : event.ended? = some id)
    (sameNext : after.nextId = set.nextId) (removed : after.timers = (set.remove id).timers) :
    Accounted (past ++ [event]) after := by
  have scheduledSame : scheduled (past ++ [event]) = scheduled past := by
    simp [scheduled, setsNone]
  have endedMore : ended (past ++ [event]) = ended past ++ [id] := by
    simp [ended, ends]
  constructor
  · simpa [scheduledSame, sameNext] using accounted.scheduled_lt
  · rw [endedMore, sameNext]
    intro other member
    rcases List.mem_append.mp member with earlier | last
    · exact accounted.ended_lt other earlier
    · exact List.mem_singleton.mp last ▸ known
  · simpa [scheduledSame] using accounted.distinct
  · intro other due action
    rw [removed, TimerSet.timers_remove, scheduledSame, endedMore]
    by_cases same : other = id
    · simp [same]
    · simp [same, accounted.entries]

omit [LinearOrder τ] in
theorem of_set (accounted : Accounted past set) (due : τ) (callback : Callback τ) :
    Accounted (past ++ [.set ⟨due, set.nextId, callback⟩]) (set.setAt due callback).2 := by
  have scheduledMore : scheduled (past ++ [.set ⟨due, set.nextId, callback⟩]) =
      scheduled past ++ [⟨due, set.nextId, callback⟩] := by
    simp [scheduled, Event.set?]
  have endedSame : ended (past ++ [.set ⟨due, set.nextId, callback⟩]) = ended past := by
    simp [ended, Event.ended?]
  -- The number of the new timer was never used.
  have unused (timer : Timer τ (Callback τ)) (member : timer ∈ scheduled past) :
      timer.id ≠ set.nextId :=
    Nat.ne_of_lt (accounted.scheduled_lt timer member)
  have notEnded : set.nextId ∉ ended past := fun member =>
    Nat.lt_irrefl _ (accounted.ended_lt _ member)
  constructor
  · rw [scheduledMore]
    intro timer member
    rcases List.mem_append.mp member with earlier | last
    · exact Nat.lt_succ_of_lt (accounted.scheduled_lt timer earlier)
    · rw [List.mem_singleton.mp last]
      exact Nat.lt_succ_self _
  · rw [endedSame]
    exact fun id member => Nat.lt_succ_of_lt (accounted.ended_lt id member)
  · rw [scheduledMore, List.map_append, List.nodup_append]
    refine ⟨accounted.distinct, List.nodup_singleton _, ?_⟩
    rintro id member _ last
    rcases List.mem_map.mp member with ⟨timer, earlier, rfl⟩
    rw [List.mem_singleton.mp last]
    exact unused timer earlier
  · intro id dueThen action
    rw [TimerSet.timers_setAt, scheduledMore, endedSame, List.mem_append, List.mem_singleton]
    by_cases same : id = set.nextId
    · subst same
      have fresh : ⟨dueThen, set.nextId, action⟩ ∉ scheduled past := fun member =>
        unused _ member rfl
      simp [fresh, notEnded, eq_comm]
    · simp [same, accounted.entries]

theorem step (accounted : Accounted past set) {event : Event τ} (step : Step set event after) :
    Accounted (past ++ [event]) after := by
  cases step with
  | set notPast callback => exact accounted.of_set _ callback
  | cancelled known => exact accounted.of_ended known rfl rfl rfl rfl
  | ran next notPast => exact accounted.of_ended (accounted.id_lt next.here) rfl rfl rfl rfl
  | read => exact accounted.of_silent rfl rfl rfl rfl
  | arrived notBack noneDue => exact accounted.of_silent rfl rfl rfl rfl

omit [LinearOrder τ] in
theorem pending_eq (accounted : Accounted past set) : set.pending = (unsettled past).length := by
  refine TimerSet.pending_eq_length ?_ ?_ fun id due action => ?_
  · exact accounted.distinct.sublist (List.filter_sublist.map Timer.id)
  · exact fun timer member => accounted.scheduled_lt timer (List.mem_filter.mp member).1
  · rw [accounted.entries, unsettled, List.mem_filter, decide_eq_true_iff]

end Accounted

structure InOrder (past : List (Event τ)) (set : TimerSet τ (Callback τ)) : Prop
    extends Accounted past set where
  onTime : ∀ timer time, .ran timer time ∈ past → time = timer.due
  sorted : (runs past).Pairwise Timer.Before
  once : past.Pairwise fun earlier later => ∀ timer ∈ later.run?, earlier.ended? ≠ some timer.id
  reached : ∀ timer ∈ runs past, timer.due ≤ set.clock
  behind : ∀ timer ∈ runs past, ∀ id due action, set.timers id = some (due, action) →
    timer.Before ⟨due, id, action⟩

namespace InOrder

variable {past : List (Event τ)} {set after : TimerSet τ (Callback τ)}

theorem startingAt (clock : τ) : InOrder [] (.startingAt clock : TimerSet τ (Callback τ)) where
  toAccounted := .startingAt clock
  onTime := nofun
  sorted := .nil
  once := .nil
  reached := nofun
  behind := nofun

theorem of_unrun (inOrder : InOrder past set) {event : Event τ}
    (accounted : Accounted (past ++ [event]) after) (runsNone : event.run? = none)
    (notBack : set.clock ≤ after.clock)
    (entries : ∀ id due action, after.timers id = some (due, action) →
      set.timers id = some (due, action) ∨ id = set.nextId ∧ set.clock ≤ due) :
    InOrder (past ++ [event]) after := by
  have runsSame : runs (past ++ [event]) = runs past := by
    simp [runs, runsNone]
  have notRan (timer : Timer τ (Callback τ)) (time : τ) : event ≠ .ran timer time := by
    rintro rfl
    cases runsNone
  constructor
  · exact accounted
  · intro timer time member
    rcases List.mem_append.mp member with earlier | last
    · exact inOrder.onTime timer time earlier
    · exact absurd (List.mem_singleton.mp last).symm (notRan timer time)
  · rw [runsSame]
    exact inOrder.sorted
  · refine List.pairwise_append.mpr ⟨inOrder.once, List.pairwise_singleton _ _, ?_⟩
    intro earlier _ later last timer ran
    rw [List.mem_singleton.mp last, runsNone] at ran
    cases ran
  · rw [runsSame]
    exact fun timer ran => (inOrder.reached timer ran).trans notBack
  · rw [runsSame]
    intro timer ran id due action found
    rcases entries id due action found with earlier | ⟨rfl, notPast⟩
    · exact inOrder.behind timer ran id due action earlier
    · have idLess := inOrder.ended_lt timer.id (mem_ended_of_mem_runs ran)
      rcases lt_or_eq_of_le ((inOrder.reached timer ran).trans notPast) with earlier | same
      · exact .inl earlier
      · exact .inr ⟨same, idLess⟩

theorem of_ran (inOrder : InOrder past set) {timer : Timer τ (Callback τ)}
    (next : set.IsNext timer) (notPast : set.clock ≤ timer.due) :
    InOrder (past ++ [.ran timer timer.due])
      { set.remove timer.id with clock := timer.due } := by
  have runsMore : runs (past ++ [.ran timer timer.due]) = runs past ++ [timer] := by
    simp [runs, Event.run?]
  constructor
  · exact inOrder.toAccounted.step (.ran next notPast)
  · intro other time member
    rcases List.mem_append.mp member with earlier | last
    · exact inOrder.onTime other time earlier
    · cases List.mem_singleton.mp last
      rfl
  · rw [runsMore, List.pairwise_append]
    refine ⟨inOrder.sorted, List.pairwise_singleton _ _, fun earlier ran _ last => ?_⟩
    rw [List.mem_singleton.mp last]
    exact inOrder.behind earlier ran _ _ _ next.here
  · refine List.pairwise_append.mpr ⟨inOrder.once, List.pairwise_singleton _ _, ?_⟩
    intro earlier member _ last other ran ends
    rw [List.mem_singleton.mp last] at ran
    cases ran
    exact ((inOrder.entries _ _ _).mp next.here).2 (List.mem_filterMap.mpr ⟨earlier, member, ends⟩)
  · rw [runsMore]
    intro other ran
    rcases List.mem_append.mp ran with earlier | last
    · exact (inOrder.reached other earlier).trans notPast
    · exact le_of_eq (congrArg Timer.due (List.mem_singleton.mp last))
  · rw [runsMore]
    intro other ran id due action found
    rcases TimerSet.of_timers_remove found with ⟨different, found⟩
    rcases List.mem_append.mp ran with earlier | last
    · exact inOrder.behind other earlier id due action found
    · rw [List.mem_singleton.mp last]
      exact next.least ⟨due, id, action⟩ found different

theorem step (inOrder : InOrder past set) {event : Event τ} (step : Step set event after) :
    InOrder (past ++ [event]) after := by
  have accounted := inOrder.toAccounted.step step
  cases step with
  | set notPast callback =>
      refine inOrder.of_unrun accounted rfl le_rfl fun id due action found => ?_
      rw [TimerSet.timers_setAt] at found
      split at found
      · rename_i same
        cases found
        exact .inr ⟨same, notPast⟩
      · exact .inl found
  | cancelled known =>
      exact inOrder.of_unrun accounted rfl le_rfl fun _ _ _ found =>
        .inl (TimerSet.of_timers_remove found).2
  | ran next notPast => exact inOrder.of_ran next notPast
  | read => exact inOrder.of_unrun accounted rfl le_rfl fun _ _ _ found => .inl found
  | arrived notBack noneDue =>
      exact inOrder.of_unrun accounted rfl notBack fun _ _ _ found => .inl found

theorem path {events : List (Event τ)} (path : Path set events after)
    (inOrder : InOrder past set) : InOrder (past ++ events) after := by
  induction path generalizing past with
  | nil => rwa [List.append_nil]
  | cons step _ induction =>
      rw [List.append_cons]
      exact induction (inOrder.step step)

end InOrder

end Session

end Flowchart
