import Flowchart.Proofs.Session.Orderly
import Mathlib.Algebra.Order.Group.Int

/-!
A session on a clock of exact times keeps an ideal set of timers, as long as the callbacks only set
and cancel timers.
-/

namespace Flowchart

namespace Session

open TimerCommand

variable {τ : Type} [AddCommMonoid τ] [LinearOrder τ]

structure Entry.Ideal (entry : Entry τ) : Prop where
  does : Does (.command entry.command) (entry.before.state.through Timeline.timerSet) entry.events
    entry.answer (entry.after.state.through Timeline.timerSet)
  reports : Reports (entry.before.state.through Timeline.timerSet) entry.events entry.answer
    (entry.after.state.through Timeline.timerSet) entry.command
  /-- What fails changes nothing. -/
  refused : ∀ failure, entry.answer = .error failure → entry.after.state = entry.before.state
  noneDue : ∀ duration, entry.command = .advance duration → 0 ≤ duration →
    ∀ timer ∈ entry.after.timeline.live, entry.after.timeline.clock < timer.due

structure Kept (past : List (Event τ)) (session : Session τ) : Prop where
  ordered : session.timeline.Ordered
  sound : Sound (session.state.through Timeline.timerSet)
  inOrder : InOrder past session.timeline.timerSet
  recorded : session.fired = records past

namespace Kept

variable {past : List (Event τ)} {session next : Session τ}

theorem initial : Kept [] (.initial .timeline : Session τ) where
  ordered := Timeline.ordered_startingAt 0
  sound := ⟨nofun, nofun, nofun⟩
  inOrder := .startingAt 0
  recorded := rfl

theorem pending_eq (kept : Kept past session) :
    session.timeline.pending = (unsettled past).length :=
  (Timeline.pending_timerSet kept.ordered.toWellFormed).symm.trans kept.inOrder.pending_eq

end Kept

/-- A command whose callbacks are orderly fails only if it is refused, and then nothing has
changed. -/
theorem eq_of_error {κ : Type} [TimerStore κ τ (Callback τ)] {asked : TimerCommand τ}
    {state after : State κ τ} {viewed viewedAfter : State (TimerSet τ (Callback τ)) τ}
    {events : List (Event τ)} {answer : Answer τ} {failure : Failure τ}
    (does : Does (.command asked) state events answer after)
    (reports : Reports viewed events answer viewedAfter asked)
    (failed : answer = .error failure) : after = state := by
  cases does with
  | runNext next callback => cases failed.symm.trans reports.1
  | @advanceStops duration target _ _ _ _ later runs =>
      rcases lt_or_ge duration 0 with isNegative | nonneg
      · cases later.symm.trans (timeAfter_of_neg isNegative _ _)
      · cases (reports.2 nonneg).1
  | set => cases failed
  | runNextIdle => cases failed
  | cancel => cases failed
  | now => cases failed
  | advance => cases failed
  | _ => rfl

namespace Kept

variable {past : List (Event τ)} {session next : Session τ}

theorem command [IsOrderedAddMonoid τ] (kept : Kept past session) {asked : TimerCommand τ}
    {events : List (Event τ)} {answer : Answer τ}
    (does : Does (.command asked) session.state events answer next.state)
    (orderly : asked.setsOnly isOrderly) :
    Kept (past ++ events) next ∧ (⟨asked, session, answer, events, next⟩ : Entry τ).Ideal := by
  rcases represents_timerSet.does does kept.ordered with ⟨ordered, viewed⟩
  rcases reports_of_does viewed kept.sound orderly with ⟨proceeds, reports⟩
  have recorded : next.fired = session.fired ++ records events := does.recorded
  refine ⟨⟨ordered, proceeds.sound, kept.inOrder.path proceeds.path, ?_⟩, viewed, reports,
    fun _ => eq_of_error does reports, ?_⟩
  · rw [recorded, kept.recorded, records_append]
  · rintro duration rfl nonneg timer live
    have found := (Timeline.timers_eq_some_iff ordered.toWellFormed).mpr live
    exact (reports.2 nonneg).2.2.2 timer.id timer.due timer.action found

end Kept

theorem History.kept [IsOrderedAddMonoid τ] {total : Nat} {session last : Session τ}
    {commands : List (TimerCommand τ)} {entries : List (Entry τ)}
    (history : History total session commands entries last) {past : List (Event τ)}
    (kept : Kept past session) (orderly : ∀ asked ∈ commands, asked.setsOnly isOrderly) :
    Kept (past ++ eventsOf entries) last ∧
      ∀ front entry back, entries = front ++ entry :: back →
        Kept (past ++ eventsOf (front ++ [entry])) entry.after ∧ entry.Ideal := by
  induction history generalizing past with
  | nil session =>
      refine ⟨by rwa [eventsOf, List.flatMap_nil, List.append_nil], fun front entry back same => ?_⟩
      cases front <;> cases same
  | @cons session next last asked answer events commands entries performed does rest induction =>
      rcases List.forall_mem_cons.mp orderly with ⟨first, others⟩
      rcases kept.command does first with ⟨keptNext, ideal⟩
      rcases induction keptNext others with ⟨keptLast, later⟩
      refine ⟨by rwa [eventsOf_cons, ← List.append_assoc], fun front entry back same => ?_⟩
      cases front with
      | nil =>
          cases same
          refine ⟨?_, ideal⟩
          rwa [List.nil_append, eventsOf_cons, eventsOf, List.flatMap_nil, List.append_nil]
      | cons earlier front =>
          cases same
          rw [List.cons_append, eventsOf_cons, ← List.append_assoc]
          exact later front entry back rfl

/-- The entries of a history in which timers behave as a map from numbers to due times and
callbacks. -/
structure IsIdeal (entries : List (Entry τ)) : Prop where
  each : ∀ entry ∈ entries, entry.Ideal
  /-- No timer runs that was cancelled or has run. -/
  once : (eventsOf entries).Pairwise fun earlier later =>
    ∀ timer ∈ later.run?, earlier.ended? ≠ some timer.id
  onTime : ∀ timer time, .ran timer time ∈ eventsOf entries → time = timer.due
  sorted : (runs (eventsOf entries)).Pairwise Timer.Before
  recorded : ∀ front entry back, entries = front ++ entry :: back →
    entry.after.fired = records (eventsOf (front ++ [entry]))
  pending : ∀ front entry back, entries = front ++ entry :: back →
    entry.after.timeline.pending = (unsettled (eventsOf (front ++ [entry]))).length

/-- Whatever a session is asked, as long as callbacks only set and cancel timers, it answers, and
its timers behave as such a map. -/
theorem isIdeal_of_orderly [IsOrderedAddMonoid τ] (commands : List (TimerCommand τ))
    (orderly : ∀ asked ∈ commands, asked.setsOnly isOrderly) :
    (∃ entries last, History (sizeAll commands) (.initial .timeline) commands entries last) ∧
      ∀ entries last, History (sizeAll commands) (.initial .timeline) commands entries last →
        IsIdeal entries := by
  refine ⟨exists_history commands, fun entries last history => ?_⟩
  rcases history.kept .initial orderly with ⟨kept, later⟩
  refine ⟨fun entry member => ?_, kept.inOrder.once, kept.inOrder.onTime, kept.inOrder.sorted,
    fun front entry back same => (later front entry back same).1.recorded,
    fun front entry back same => (later front entry back same).1.pending_eq⟩
  rcases List.append_of_mem member with ⟨front, back, same⟩
  exact (later front entry back same).2

theorem isIdeal_of_cancelling :
    ∃ entries last, History 7 (.initial .timeline)
      [.set "a" (10 : ℤ) [.set "b" 0 [], .cancel "c"], .set "c" 20 [], .advance 30, .cancel "a",
        .advance (-1)] entries last ∧ IsIdeal entries := by
  rcases isIdeal_of_orderly [.set "a" (10 : ℤ) [.set "b" 0 [], .cancel "c"], .set "c" 20 [],
    .advance 30, .cancel "a", .advance (-1)] (by decide) with ⟨⟨entries, last, history⟩, ideal⟩
  exact ⟨entries, last, history, ideal entries last history⟩

end Session

end Flowchart
