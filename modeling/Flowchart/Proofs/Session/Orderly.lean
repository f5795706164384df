import Flowchart.Proofs.Session.Path
import Flowchart.Proofs.Session.Performed
import Mathlib.Algebra.Order.Monoid.Defs

/-!
Sessions on a clock of exact times whose callbacks only set and cancel timers.

What such a session does takes the set of its timers along a path: it answers every command, and a
move of the clock runs all timers that fall due on the way, each at its time.
-/

namespace Flowchart

namespace TimerCommand

variable {τ : Type}

def isOrderly [Zero τ] [LT τ] [DecidableLT τ] : TimerCommand τ → Bool
  | .set _ delay _ => !decide (delay < 0)
  | .cancel _ | .isCancelled _ | .now => true
  | .advance _ | .runNext | .fail _ => false

end TimerCommand

namespace Session

open TimerCommand

variable {τ : Type} [AddCommMonoid τ] [LinearOrder τ]

theorem timeAfter_of_nonneg {duration : τ} (nonneg : 0 ≤ duration) (clock : τ)
    (negative : TimerError τ) : timeAfter clock duration negative = .ok (clock + duration) := by
  rw [timeAfter, if_neg (not_lt_of_ge nonneg)]
  rfl

theorem timeAfter_of_neg {duration : τ} (isNegative : duration < 0) (clock : τ)
    (negative : TimerError τ) :
    timeAfter clock duration negative = .error (.timer negative) :=
  if_pos isNegative

omit [AddCommMonoid τ] in
theorem later_of_le {left right : τ} (le : left ≤ right) : Timeline.later left right = right := by
  rw [Timeline.later]
  split
  · rfl
  · rename_i notLess
    exact le_antisymm le (not_lt.mp notLess)

/-! ## States -/

structure Sound (state : State (TimerSet τ (Callback τ)) τ) : Prop where
  notPast : ∀ id due action, state.timers.timers id = some (due, action) →
    state.timers.clock ≤ due
  orderly : ∀ id due action, state.timers.timers id = some (due, action) →
    everyOf isOrderly action.script
  handled : ∀ tag handle, (tag, handle) ∈ state.handles → handle.id < state.timers.nextId

structure Proceeds (state : State (TimerSet τ (Callback τ)) τ) (events : List (Event τ))
    (after : State (TimerSet τ (Callback τ)) τ) : Prop where
  path : Path state.timers events after.timers
  sound : Sound after

namespace Proceeds

variable {state middle after : State (TimerSet τ (Callback τ)) τ} {events more : List (Event τ)}

theorem nothing (sound : Sound state) : Proceeds state [] state where
  path := .nil
  sound := sound

theorem trans (first : Proceeds state events middle) (rest : Proceeds middle more after) :
    Proceeds state (events ++ more) after where
  path := first.path.append rest.path
  sound := rest.sound

theorem set [IsOrderedAddMonoid τ] (sound : Sound state) {delay : τ} (nonneg : 0 ≤ delay)
    (tag : String) {script : List (TimerCommand τ)} (orderly : everyOf isOrderly script) :
    Proceeds state
      [.set ⟨state.timers.clock + delay, state.timers.nextId, tag, script⟩]
      { state with
        timers := (state.timers.setAt (state.timers.clock + delay) ⟨tag, script⟩).2
        handles := setHandle tag ⟨state.timers.nextId, false⟩ state.handles } := by
  have notPast : state.timers.clock ≤ state.timers.clock + delay := le_add_of_nonneg_right nonneg
  refine ⟨.single (.set notPast _), ?_, ?_, ?_⟩
  · intro id due action found
    rw [TimerSet.timers_setAt] at found
    split at found
    · cases found
      exact notPast
    · exact sound.notPast id due action found
  · intro id due action found
    rw [TimerSet.timers_setAt] at found
    split at found
    · cases found
      exact orderly
    · exact sound.orderly id due action found
  · intro other handle member
    rcases List.mem_cons.mp member with same | kept
    · cases same
      exact Nat.lt_succ_self _
    · exact Nat.lt_succ_of_lt (sound.handled other handle (List.mem_filter.mp kept).1)

theorem cancel (sound : Sound state) {tag : String} {handle : Handle}
    (known : state.handles.lookup tag = some handle) :
    Proceeds state [.cancelled handle.id]
      { state with
        timers := state.timers.remove handle.id
        handles := setHandle tag { handle with cancelled := true } state.handles } := by
  have isSet : handle.id < state.timers.nextId := by
    rcases List.lookup_eq_some_iff.mp known with ⟨front, back, same, _⟩
    exact sound.handled tag handle (same ▸ List.mem_append_right front List.mem_cons_self)
  refine ⟨.single (.cancelled isSet), ?_, ?_, ?_⟩
  · exact fun id due action found => sound.notPast id due action (TimerSet.of_timers_remove found).2
  · exact fun id due action found => sound.orderly id due action (TimerSet.of_timers_remove found).2
  · intro other handle' member
    rcases List.mem_cons.mp member with same | kept
    · cases same
      exact isSet
    · exact sound.handled other handle' (List.mem_filter.mp kept).1

theorem read (sound : Sound state) : Proceeds state [.read state.timers.clock] state :=
  ⟨.single .read, sound⟩

theorem running (sound : Sound state) {timer : Timer τ (Callback τ)}
    (next : state.timers.IsNext timer) :
    Proceeds state [state.event timer] (state.running timer (state.timers.remove timer.id)) ∧
      (state.running timer (state.timers.remove timer.id)).timers.clock = timer.due ∧
      state.event timer = .ran timer timer.due := by
  have notPast := sound.notPast timer.id timer.due timer.action next.here
  have time : Timeline.later (TimerStore.clock state.timers) timer.due = timer.due :=
    later_of_le notPast
  rw [State.running, State.event, time]
  refine ⟨⟨.single (.ran next notPast), ?_, ?_, sound.handled⟩, rfl, rfl⟩
  · exact fun id due action found => next.due_le (TimerSet.of_timers_remove found).2
  · exact fun id due action found => sound.orderly id due action (TimerSet.of_timers_remove found).2

theorem arrived (sound : Sound state) {target : τ} (notBack : state.timers.clock ≤ target)
    (noneDue : ∀ id due action, state.timers.timers id = some (due, action) → target < due) :
    Proceeds state [.arrived state.timers.clock target]
      { state with timers := { state.timers with clock := target } } where
  path := .single (.arrived notBack noneDue)
  sound := ⟨fun id due action found => le_of_lt (noneDue id due action found), sound.orderly,
    sound.handled⟩

end Proceeds

/-! ## Orderly tasks -/

def Task.IsOrderly (state : State (TimerSet τ (Callback τ)) τ) : Task τ → Prop
  | .command asked => asked.every isOrderly
  | .script commands => everyOf isOrderly commands
  | .due target => state.timers.clock ≤ target

/-- A callback leaves the clock alone and runs nothing. The timers that are due are run and counted
until all that is left is due later. -/
def Settles (state : State (TimerSet τ (Callback τ)) τ) (events : List (Event τ))
    (answer : Answer τ) (after : State (TimerSet τ (Callback τ)) τ) : Task τ → Prop
  | .due target =>
      answer = .ok (.count (runs events).length) ∧ after.timers.clock ≤ target ∧
      (∀ timer ∈ runs events, timer.due ≤ target) ∧
      ∀ id due action, after.timers.timers id = some (due, action) → target < due
  | _ => (∃ outcome, answer = .ok outcome) ∧ after.timers.clock = state.timers.clock ∧
      runs events = []

theorem settles_of_does [IsOrderedAddMonoid τ] {task : Task τ}
    {state after : State (TimerSet τ (Callback τ)) τ} {events : List (Event τ)}
    {answer : Answer τ} (does : Does task state events answer after) (sound : Sound state)
    (orderly : task.IsOrderly state) :
    Proceeds state events after ∧ Settles state events answer after task := by
  induction does with
  | @set tag delay due script state id timers later isSet =>
      rcases Bool.and_eq_true_iff.mp orderly with ⟨notNegative, orderly⟩
      have nonneg : 0 ≤ delay := by simpa [isOrderly] using notNegative
      cases later.symm.trans (timeAfter_of_nonneg nonneg _ _)
      cases isSet
      exact ⟨.set sound nonneg tag orderly, ⟨_, rfl⟩, rfl, rfl⟩
  | @setFails tag delay script state failure refused =>
      rcases Bool.and_eq_true_iff.mp orderly with ⟨notNegative, _⟩
      have nonneg : 0 ≤ delay := by simpa [isOrderly] using notNegative
      cases refused.symm.trans (timeAfter_of_nonneg nonneg _ _)
  | cancel known => exact ⟨.cancel sound known, ⟨_, rfl⟩, rfl, rfl⟩
  | cancelUnknown unknown => exact ⟨.nothing sound, ⟨_, rfl⟩, rfl, rfl⟩
  | isCancelled => exact ⟨.nothing sound, ⟨_, rfl⟩, rfl, rfl⟩
  | now => exact ⟨.read sound, ⟨_, rfl⟩, rfl, rfl⟩
  | fail => cases orderly
  | runNextIdle idle => cases orderly
  | runNext next callback => cases orderly
  | advanceFails refused => cases orderly
  | advance later runs => cases orderly
  | advanceStops later runs => cases orderly
  | dueIdle idle =>
      refine ⟨.nothing sound, rfl, orderly, nofun, fun id due action found => ?_⟩
      cases (idle id).symm.trans found
  | @dueDone target state timer rest next notDue =>
      refine ⟨.nothing sound, rfl, orderly, nofun, fun id due action found => ?_⟩
      exact notDue.trans_le (next.1.due_le found)
  | @dueRuns target state middle after timer rest events more outcome answer next notLater callback
      others callbackInduction othersInduction =>
      have isDue := le_of_not_gt notLater
      rcases next with ⟨next, rfl⟩
      rcases Proceeds.running sound next with ⟨start, clock, isRun⟩
      rcases callbackInduction start.sound (sound.orderly _ _ _ next.here) with
        ⟨runs, _, still, ranNone⟩
      rcases othersInduction runs.sound (by rw [Task.IsOrderly, still, clock]; exact isDue) with
        ⟨goesOn, counted, notAfter, due, none⟩
      have ran : Session.runs (state.event timer :: (events ++ more)) =
          timer :: Session.runs more := by
        rw [isRun, runs_cons_ran, runs_append, ranNone, List.nil_append]
      refine ⟨start.trans (runs.trans goesOn), ?_, notAfter, ?_, none⟩
      · rw [ran, counted, Answer.plus, List.length_cons, Nat.add_comm]
      · rw [ran]
        exact List.forall_mem_cons.mpr ⟨isDue, due⟩
  | @dueStops target state after timer rest events failure next isDue callback induction =>
      rcases next with ⟨next, rfl⟩
      rcases Proceeds.running sound next with ⟨start, _, _⟩
      rcases induction start.sound (sound.orderly _ _ _ next.here) with ⟨_, ⟨_, answered⟩, _⟩
      cases answered
  | scriptEnds => exact ⟨.nothing sound, ⟨_, rfl⟩, rfl, rfl⟩
  | scriptGoesOn first others firstInduction othersInduction =>
      rcases Bool.and_eq_true_iff.mp orderly with ⟨firstOrderly, othersOrderly⟩
      rcases firstInduction sound firstOrderly with ⟨start, _, stillFirst, noneFirst⟩
      rcases othersInduction start.sound othersOrderly with ⟨goesOn, answered, still, none⟩
      refine ⟨start.trans goesOn, answered, still.trans stillFirst, ?_⟩
      rw [runs_append, noneFirst, none, List.nil_append]
  | scriptStops first induction =>
      rcases Bool.and_eq_true_iff.mp orderly with ⟨firstOrderly, _⟩
      rcases induction sound firstOrderly with ⟨_, ⟨_, answered⟩, _⟩
      cases answered

/-! ## Commands -/

/-- What a command reports: what it refuses, it leaves as it was; a move of the clock counts what it
ran, which is all that fell due. -/
def Reports (state : State (TimerSet τ (Callback τ)) τ) (events : List (Event τ))
    (answer : Answer τ) (after : State (TimerSet τ (Callback τ)) τ) : TimerCommand τ → Prop
  | .set _ delay _ =>
      runs events = [] ∧
      (delay < 0 → answer = .error (.timer (.negativeDelay delay)) ∧ after = state)
  | .advance duration =>
      (duration < 0 → answer = .error (.timer .backwards) ∧ after = state) ∧
      (0 ≤ duration →
        answer = .ok (.count (runs events).length) ∧
        after.timers.clock = state.timers.clock + duration ∧
        (∀ timer ∈ runs events, timer.due ≤ after.timers.clock) ∧
        ∀ id due action, after.timers.timers id = some (due, action) → after.timers.clock < due)
  | .runNext => answer = .ok (.flag !(runs events).isEmpty) ∧ (runs events).length ≤ 1
  | _ => runs events = []

theorem reports_of_does [IsOrderedAddMonoid τ] {asked : TimerCommand τ}
    {state after : State (TimerSet τ (Callback τ)) τ} {events : List (Event τ)}
    {answer : Answer τ} (does : Does (.command asked) state events answer after)
    (sound : Sound state) (orderly : asked.setsOnly isOrderly) :
    Proceeds state events after ∧ Reports state events answer after asked := by
  cases does with
  | @set tag delay due script _ _ _ later isSet =>
      rcases lt_or_ge delay 0 with isNegative | nonneg
      · cases later.symm.trans (timeAfter_of_neg isNegative _ _)
      · cases later.symm.trans (timeAfter_of_nonneg nonneg _ _)
        cases isSet
        exact ⟨.set sound nonneg tag orderly, rfl, fun isNegative =>
          absurd isNegative (not_lt_of_ge nonneg)⟩
  | @setFails tag delay script _ _ refused =>
      rcases lt_or_ge delay 0 with isNegative | nonneg
      · cases refused.symm.trans (timeAfter_of_neg isNegative _ _)
        exact ⟨.nothing sound, rfl, fun _ => ⟨rfl, rfl⟩⟩
      · cases refused.symm.trans (timeAfter_of_nonneg nonneg _ _)
  | cancel known => exact ⟨.cancel sound known, rfl⟩
  | cancelUnknown unknown => exact ⟨.nothing sound, rfl⟩
  | isCancelled => exact ⟨.nothing sound, rfl⟩
  | now => exact ⟨.read sound, rfl⟩
  | fail => exact ⟨.nothing sound, rfl⟩
  | runNextIdle idle => exact ⟨.nothing sound, rfl, Nat.zero_le 1⟩
  | @runNext _ _ timer rest events answer next callback =>
      rcases next with ⟨next, rfl⟩
      rcases Proceeds.running sound next with ⟨start, _, isRun⟩
      rcases settles_of_does callback start.sound (sound.orderly _ _ _ next.here) with
        ⟨goesOn, ⟨outcome, rfl⟩, _, ranNone⟩
      have ran : runs (state.event timer :: events) = [timer] := by
        rw [isRun, runs_cons_ran, ranNone]
      rw [Reports, ran]
      exact ⟨start.trans goesOn, rfl, le_rfl⟩
  | @advanceFails duration _ _ refused =>
      rcases lt_or_ge duration 0 with isNegative | nonneg
      · cases refused.symm.trans (timeAfter_of_neg isNegative _ _)
        exact ⟨.nothing sound, fun _ => ⟨rfl, rfl⟩, fun nonneg =>
          absurd isNegative (not_lt_of_ge nonneg)⟩
      · cases refused.symm.trans (timeAfter_of_nonneg nonneg _ _)
  | @advance duration target _ middle events outcome later dueRuns =>
      rcases lt_or_ge duration 0 with isNegative | nonneg
      · cases later.symm.trans (timeAfter_of_neg isNegative _ _)
      · cases later.symm.trans (timeAfter_of_nonneg nonneg _ _)
        rcases settles_of_does dueRuns sound (le_add_of_nonneg_right nonneg) with
          ⟨goesOn, counted, notAfter, due, noneDue⟩
        have ran (reached target : τ) :
            runs (events ++ [.arrived reached target]) = runs events := by
          rw [runs_append]
          exact List.append_nil _
        refine ⟨goesOn.trans (.arrived goesOn.sound notAfter noneDue), fun isNegative =>
          absurd isNegative (not_lt_of_ge nonneg), fun _ => ⟨?_, rfl, ?_, noneDue⟩⟩
        · rwa [ran]
        · rwa [ran]
  | @advanceStops duration target _ _ _ _ later dueRuns =>
      rcases lt_or_ge duration 0 with isNegative | nonneg
      · cases later.symm.trans (timeAfter_of_neg isNegative _ _)
      · cases later.symm.trans (timeAfter_of_nonneg nonneg _ _)
        rcases settles_of_does dueRuns sound (le_add_of_nonneg_right nonneg) with ⟨_, stopped, _⟩
        cases stopped

end Session

end Flowchart
