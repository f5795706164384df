import Flowchart.Proofs.Session.Ideal
import Flowchart.Proofs.Timeline.Clockwork

/-!
Moves of the clock of a session, made at once or in pieces.

A callback that only sets and cancels timers changes a state in one way, which is told here as a
function. So a session on a timeline with such callbacks is a clockwork, and it has the fuel for
every move of its clock.
-/

namespace Flowchart

namespace Session

open TimerCommand

variable {τ : Type} [AddCommMonoid τ] [LinearOrder τ]

/-! ## Callbacks -/

def State.obeying (state : State (Timeline τ (Callback τ)) τ) :
    TimerCommand τ → State (Timeline τ (Callback τ)) τ
  | .set tag delay script =>
      match timeAfter state.timers.clock delay (.negativeDelay delay) with
      | .error _ => state
      | .ok due =>
          { state with
            timers := (state.timers.setAt due ⟨tag, script⟩).2
            handles := setHandle tag ⟨state.timers.nextId, false⟩ state.handles }
  | .cancel tag =>
      match state.handles.lookup tag with
      | none => state
      | some handle =>
          { state with
            timers := state.timers.cancel handle.id
            handles := setHandle tag { handle with cancelled := true } state.handles }
  | _ => state

def State.obeyingAll (state : State (Timeline τ (Callback τ)) τ)
    (commands : List (TimerCommand τ)) : State (Timeline τ (Callback τ)) τ :=
  commands.foldl State.obeying state

theorem State.clock_obeying (state : State (Timeline τ (Callback τ)) τ)
    (asked : TimerCommand τ) : (state.obeying asked).timers.clock = state.timers.clock := by
  unfold State.obeying
  split
  · split <;> rfl
  · split
    · rfl
    · dsimp only
      unfold Timeline.cancel
      split <;> rfl
  · rfl

theorem State.clock_obeyingAll (state : State (Timeline τ (Callback τ)) τ)
    (commands : List (TimerCommand τ)) :
    (state.obeyingAll commands).timers.clock = state.timers.clock := by
  induction commands generalizing state with
  | nil => rfl
  | cons asked commands induction => exact (induction _).trans (state.clock_obeying asked)

variable {state after : State (Timeline τ (Callback τ)) τ} {events : List (Event τ)}
variable {answer : Answer τ}

theorem eq_obeying_of_does {asked : TimerCommand τ}
    (does : Does (.command asked) state events answer after) (orderly : asked.every isOrderly) :
    after = state.obeying asked ∧ ∃ outcome, answer = .ok outcome := by
  cases does with
  | @set tag delay due script _ _ _ later isSet =>
      cases isSet
      have later : timeAfter state.timers.clock delay (.negativeDelay delay) = .ok due := later
      refine ⟨?_, _, rfl⟩
      rw [State.obeying, later]
      rfl
  | @setFails tag delay script _ _ refused =>
      obtain ⟨notNegative, _⟩ := Bool.and_eq_true_iff.mp orderly
      have nonneg : 0 ≤ delay := by simpa [isOrderly] using notNegative
      cases refused.symm.trans (timeAfter_of_nonneg nonneg _ _)
  | cancel known =>
      refine ⟨?_, _, rfl⟩
      rw [State.obeying, known]
      rfl
  | cancelUnknown unknown =>
      refine ⟨?_, _, rfl⟩
      rw [State.obeying, unknown]
  | isCancelled => exact ⟨rfl, _, rfl⟩
  | now => exact ⟨rfl, _, rfl⟩
  | _ => cases orderly

theorem eq_obeyingAll_of_does {commands : List (TimerCommand τ)}
    (does : Does (.script commands) state events answer after)
    (orderly : everyOf isOrderly commands) :
    after = state.obeyingAll commands ∧ ∃ outcome, answer = .ok outcome := by
  induction commands generalizing state events answer with
  | nil =>
      cases does
      exact ⟨rfl, _, rfl⟩
  | cons asked commands induction =>
      obtain ⟨firstOrderly, othersOrderly⟩ := Bool.and_eq_true_iff.mp orderly
      cases does with
      | scriptGoesOn first others =>
          obtain ⟨rfl, _⟩ := eq_obeying_of_does first firstOrderly
          exact induction others othersOrderly
      | scriptStops first =>
          obtain ⟨_, _, succeeds⟩ := eq_obeying_of_does first firstOrderly
          cases succeeds

/-! ## The clockwork of a session -/

def clockwork : Clockwork (State (Timeline τ (Callback τ)) τ) τ (Callback τ) where
  timeline state := state.timers
  withTimeline state timers := { state with timers }
  fire callback state := some (State.obeyingAll
    { state with fired := state.fired ++ [(callback.tag, state.timers.clock)] } callback.script)
  timeline_withTimeline _ _ := rfl
  withTimeline_withTimeline _ _ _ := rfl
  clock_of_fire := by
    rintro callback state after fired
    cases fired
    exact State.clock_obeyingAll _ _

theorem Sound.callback [IsOrderedAddMonoid τ] (ordered : state.timers.Ordered)
    (sound : Sound (state.through Timeline.timerSet)) {timer : Timer τ (Callback τ)}
    {rest : Timeline τ (Callback τ)} (next : state.timers.next? = some (timer, rest))
    (does : Does (.script timer.action.script) (state.running timer rest) events answer after) :
    everyOf isOrderly timer.action.script ∧ after.timers.Ordered ∧
      Sound (after.through Timeline.timerSet) := by
  obtain ⟨orderedRest, isNext, same⟩ := represents_timerSet.next ordered next
  obtain ⟨orderedRunning, running⟩ :
      (state.running timer rest).timers.Ordered ∧ _ = (state.running timer rest).through _ :=
    represents_timerSet.running orderedRest timer
  obtain ⟨orderedAfter, viewed⟩ := represents_timerSet.does does orderedRunning
  have orderly := sound.orderly _ _ _ isNext.here
  rw [← running, same] at viewed
  obtain ⟨start, _, _⟩ := Proceeds.running sound isNext
  obtain ⟨goesOn, _⟩ := settles_of_does viewed start.sound orderly
  exact ⟨orderly, orderedAfter, goesOn.sound⟩

/-- Running what is due is running the clockwork, and succeeds. -/
theorem reaches_of_does [IsOrderedAddMonoid τ] {target : τ}
    (does : Does (.due target) state events answer after) (ordered : state.timers.Ordered)
    (sound : Sound (state.through Timeline.timerSet)) :
    ∃ ran, clockwork.Reaches target state ran (clockwork.withClock after target) ∧
      answer = .ok (.count ran.length) := by
  generalize isTask : Task.due target = task at does
  induction does with
  | dueIdle idle =>
      cases isTask
      refine ⟨[], .arrives (Timeline.popDue?_eq_none_iff.mpr fun timer rest taken => ?_), rfl⟩
      cases taken.symm.trans idle
  | dueDone next notDue =>
      cases isTask
      refine ⟨[], .arrives (Timeline.popDue?_eq_none_iff.mpr fun timer rest taken => ?_), rfl⟩
      cases taken.symm.trans next
      exact notDue
  | @dueRuns target state middle after timer rest events more outcome answer next isDue callback
      others _ induction =>
      cases isTask
      obtain ⟨orderly, orderedThen, soundThen⟩ := Sound.callback ordered sound next callback
      obtain ⟨ran, reaches, rfl⟩ := induction orderedThen soundThen rfl
      obtain ⟨rfl, _⟩ := eq_obeyingAll_of_does callback orderly
      have taken := Timeline.popDue?_eq_some_iff.mpr ⟨le_of_not_gt isDue, rest, next, rfl⟩
      refine ⟨_, .fires taken (congrArg some ?_) reaches, ?_⟩
      · rw [State.running, Timeline.later_eq_max]
        rfl
      · rw [Answer.plus, List.length_cons, Nat.add_comm]
  | dueStops next isDue callback _ =>
      cases isTask
      obtain ⟨orderly, _⟩ := Sound.callback ordered sound next callback
      obtain ⟨_, _, succeeds⟩ := eq_obeyingAll_of_does callback orderly
      cases succeeds
  | _ => cases isTask

theorem advances_of_does [IsOrderedAddMonoid τ] {duration : τ} (nonneg : 0 ≤ duration)
    (does : Does (.command (.advance duration)) state events answer after)
    (ordered : state.timers.Ordered) (sound : Sound (state.through Timeline.timerSet)) :
    ∃ ran, clockwork.Advances duration state ran after ∧ answer = .ok (.count ran.length) := by
  cases does with
  | advanceFails refused => cases refused.symm.trans (timeAfter_of_nonneg nonneg _ _)
  | advance later dueRuns =>
      cases later.symm.trans (timeAfter_of_nonneg nonneg _ _)
      exact reaches_of_does dueRuns ordered sound
  | advanceStops later dueRuns =>
      cases later.symm.trans (timeAfter_of_nonneg nonneg _ _)
      obtain ⟨_, _, succeeds⟩ := reaches_of_does dueRuns ordered sound
      cases succeeds

/-! ## Sessions -/

omit [AddCommMonoid τ] [LinearOrder τ] in
theorem eq_of_state {left right : Session τ} (sameKeeper : left.keeper = right.keeper)
    (sameState : left.state = right.state) : left = right := by
  cases left
  cases right
  cases sameKeeper
  cases sameState
  rfl

structure Going (most : Nat) (session : Session τ) : Prop where
  onTimeline : session.keeper = .timeline
  work : session.work ≤ most
  ordered : session.timeline.Ordered
  sound : Sound (session.state.through Timeline.timerSet)

omit [AddCommMonoid τ] in
theorem History.work [Zero τ] [ClockTime τ] {total : Nat} {session last : Session τ}
    {commands : List (TimerCommand τ)} {entries : List (Entry τ)}
    (history : History total session commands entries last)
    (onTimeline : session.keeper = .timeline)
    (within : 2 * sizeAll commands + session.work ≤ 2 * total) :
    last.keeper = .timeline ∧ last.work ≤ 2 * total := by
  induction history with
  | nil session => exact ⟨onTimeline, (Nat.le_add_left _ _).trans within⟩
  | @cons session next last asked answer events commands entries performed does rest induction =>
      rw [sizeAll] at within
      have positive := size_pos asked
      have comes := (enough (8 * total + 8)).perform asked session onTimeline (by omega)
      rw [Session.command] at performed
      rw [performed] at comes
      have left := comes.work
      dsimp only at left
      exact induction comes.onTimeline (by omega)

theorem History.going [IsOrderedAddMonoid τ] {total : Nat} {commands : List (TimerCommand τ)}
    {entries : List (Entry τ)} {session : Session τ}
    (history : History total (.initial .timeline) commands entries session)
    (orderly : ∀ asked ∈ commands, asked.setsOnly isOrderly)
    (within : sizeAll commands ≤ total) : Going (2 * total) session := by
  obtain ⟨onTimeline, left⟩ := history.work rfl (Nat.mul_le_mul_left 2 within)
  obtain ⟨kept, _⟩ := history.kept .initial orderly
  exact ⟨onTimeline, left, kept.ordered, kept.sound⟩

theorem Going.exists_advance [IsOrderedAddMonoid τ] {total most : Nat} {session : Session τ}
    (going : Going most session) (fuel : most ≤ 2 * total + 1) {duration : τ}
    (nonneg : 0 ≤ duration) :
    ∃ ran next, session.command total (.advance duration) = (.ok (.count ran.length), next) ∧
      clockwork.Advances duration session.state ran next.state ∧ Going (most + 1) next := by
  have worth : (TimerCommand.advance duration).size = 1 := rfl
  have little := going.work
  have comes := (enough (8 * total + 8)).perform (.advance duration) session going.onTimeline
    (by omega)
  rcases performed : session.command total (.advance duration) with ⟨answer, next⟩
  rw [Session.command] at performed
  rw [performed] at comes
  obtain ⟨onTimeline, left, events, does⟩ := comes
  obtain ⟨ran, advances, rfl⟩ := advances_of_does nonneg does going.ordered going.sound
  obtain ⟨ordered, viewed⟩ := represents_timerSet.does does going.ordered
  obtain ⟨proceeds, _⟩ := reports_of_does viewed going.sound rfl
  refine ⟨ran, next, rfl, advances, onTimeline, ?_, ordered, proceeds.sound⟩
  dsimp only at left
  omega

/-- Moving the clock of a session in two pieces is moving it at once: the counts add up, and the
sessions that are left are the same, with all that they have recorded. -/
theorem exists_advance_add [IsOrderedAddMonoid τ] {total : Nat} {commands : List (TimerCommand τ)}
    {entries : List (Entry τ)} {session : Session τ}
    (history : History total (.initial .timeline) commands entries session)
    (orderly : ∀ asked ∈ commands, asked.setsOnly isOrderly)
    (within : sizeAll commands ≤ total) {duration more : τ} (nonneg : 0 ≤ duration)
    (nonnegMore : 0 ≤ more) :
    ∃ first second middle last,
      session.command total (.advance duration) = (.ok (.count first), middle) ∧
      middle.command total (.advance more) = (.ok (.count second), last) ∧
      session.command total (.advance (duration + more)) =
        (.ok (.count (first + second)), last) := by
  have going := history.going orderly within
  obtain ⟨first, middle, performed, advances, goingMiddle⟩ :=
    going.exists_advance (Nat.le_succ _) nonneg
  obtain ⟨second, last, performedMore, advancesMore, goingLast⟩ :=
    goingMiddle.exists_advance le_rfl nonnegMore
  obtain ⟨ran, whole, performedWhole, advancesWhole, goingWhole⟩ :=
    going.exists_advance (Nat.le_succ _) (add_nonneg nonneg nonnegMore)
  have together := (Clockwork.advances_add_iff nonneg nonnegMore).mpr
    ⟨first, second, middle.state, rfl, advances, advancesMore⟩
  obtain ⟨rfl, sameState⟩ := advancesWhole.unique together
  cases eq_of_state (goingWhole.onTimeline.trans goingLast.onTimeline.symm) sameState
  refine ⟨first.length, second.length, middle, last, performed, performedMore, ?_⟩
  rw [performedWhole, List.length_append]

end Session

end Flowchart
