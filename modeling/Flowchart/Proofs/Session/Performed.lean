import Flowchart.Proofs.Session.Doing

/-!
A session on a timeline does what its commands say.

The fuel of a session bounds how deep its commands nest. Each command and each timer is worth some
fuel; a command that is performed and a timer that runs is used up, and what it sets is worth less
than itself. So the fuel that a session with so many commands begins with is enough.
-/

namespace Flowchart

namespace TimerCommand

def workOf {τ : Type} : List (Timer τ (Session.Callback τ)) → Nat
  | [] => 0
  | timer :: rest => 1 + 2 * sizeAll timer.action.script + workOf rest

theorem workOf_append {τ : Type} (left right : List (Timer τ (Session.Callback τ))) :
    workOf (left ++ right) = workOf left + workOf right := by
  induction left with
  | nil => exact (Nat.zero_add _).symm
  | cons timer rest induction => simp only [List.cons_append, workOf, induction, Nat.add_assoc]

theorem workOf_suffix {τ : Type} {part whole : List (Timer τ (Session.Callback τ))}
    (suffix : part <:+ whole) : workOf part ≤ workOf whole := by
  rcases suffix with ⟨front, rfl⟩
  rw [workOf_append]
  exact Nat.le_add_left _ _

theorem workOf_insert {τ : Type} [LE τ] [DecidableLE τ] (timer : Timer τ (Session.Callback τ))
    (queue : List (Timer τ (Session.Callback τ))) :
    workOf (Timeline.insert timer queue) = workOf (timer :: queue) := by
  induction queue with
  | nil => rfl
  | cons first rest induction =>
      rw [Timeline.insert]
      split
      · rw [workOf, induction]
        simp only [workOf]
        omega
      · rfl

theorem size_pos {τ : Type} (command : TimerCommand τ) : 0 < command.size := by
  cases command <;> simp only [size] <;> omega

end TimerCommand

namespace Session

open TimerCommand

variable {τ α β : Type}

def state (session : Session τ) : State (Timeline τ (Callback τ)) τ :=
  ⟨session.timeline, session.handles, session.fired⟩

def work (session : Session τ) : Nat := workOf session.timeline.queue

def recorded (callback : Callback τ) (session : Session τ) : Session τ :=
  { session with fired := session.fired ++ [(callback.tag, session.now)] }

theorem work_setAt [LE τ] [DecidableLE τ] (session : Session τ) (due : τ) (callback : Callback τ) :
    workOf (session.timeline.setAt due callback).2.queue =
      1 + 2 * sizeAll callback.script + session.work :=
  workOf_insert _ _

theorem work_cancel (session : Session τ) (id : Nat) :
    workOf (session.timeline.cancel id).queue = session.work := by
  unfold Timeline.cancel
  split <;> rfl

theorem work_cleaned (session : Session τ) :
    workOf session.timeline.cleaned.queue ≤ session.work :=
  workOf_suffix session.timeline.cleaned_suffix

/-! ## Runs -/

theorem run_bind (first : Run τ α) (next : α → Run τ β) (session : Session τ) :
    (first >>= next).run session = match first.run session with
      | (.ok value, middle) => (next value).run middle
      | (.error failure, middle) => (.error failure, middle) := by
  rw [ExceptT.run_bind]
  simp only [bind, StateT.bind]
  rcases first.run session with ⟨_ | _, _⟩ <;> rfl

theorem run_lift (result : Except (Failure τ) α) (next : α → Run τ β) (session : Session τ) :
    (do let value ← result; next value : Run τ β).run session = match result with
      | .ok value => (next value).run session
      | .error failure => (.error failure, session) := by
  cases result <;> rfl

theorem run_get (next : Session τ → Run τ α) (session : Session τ) :
    (do let session ← get; next session : Run τ α).run session = (next session).run session :=
  run_bind _ _ session

theorem run_set (after : Session τ) (next : Run τ α) (session : Session τ) :
    (do set after; next : Run τ α).run session = next.run after :=
  run_bind _ _ session

theorem guarded_run (run : Run τ Unit) {session : Session τ}
    (onTimeline : session.keeper = .timeline) : (guarded run).run session = run.run session := by
  rw [guarded, run_get, onTimeline]
  rfl

theorem target_eq [Zero τ] [ClockTime τ] [LT τ] [DecidableLT τ] (duration : τ)
    {session : Session τ} (onTimeline : session.keeper = .timeline) :
    session.target duration = timeAfter session.timeline.clock duration .backwards := by
  rw [target, onTimeline, timeAfter]
  dsimp only
  rw [Timeline.target]
  by_cases negative : duration < 0
  · rw [if_pos negative, if_pos negative]
    rfl
  · rw [if_neg negative, if_neg negative]
    cases ClockTime.after? session.timeline.clock duration <;> rfl

section

variable [LE τ] [DecidableLE τ] [LT τ] [DecidableLT τ]

theorem pop?_cases (session : Session τ) (onTimeline : session.keeper = .timeline) :
    (session.timeline.next? = none ∧ session.pop? = none) ∨
      ∃ timer rest popped, session.timeline.next? = some (timer, rest) ∧
        session.pop? = some (timer, popped) ∧ popped.keeper = .timeline ∧
        1 + 2 * sizeAll timer.action.script + popped.work ≤ session.work ∧
        (popped.recorded timer.action).state = session.state.running timer rest := by
  have popped? : session.pop? = session.timeline.pop?.map fun next =>
      (next.1, { session with timeline := next.2 }) := by
    rw [pop?, onTimeline]
    rfl
  rw [popped?, Timeline.pop?]
  cases taken : session.timeline.next? with
  | none => exact .inl ⟨rfl, rfl⟩
  | some next =>
      rcases next with ⟨timer, rest⟩
      rcases Timeline.exists_of_next? taken with ⟨sameClock, _, tail⟩
      refine .inr ⟨timer, rest, _, rfl, rfl, onTimeline, workOf_suffix tail, ?_⟩
      simp only [recorded, state, now, onTimeline, Keeper.shown, State.running, sameClock]
      rfl

variable [Zero τ] [ClockTime τ]

structure Comes (task : Task τ) (session : Session τ) (most : Nat) (answer : Answer τ)
    (after : Session τ) : Prop where
  onTimeline : after.keeper = .timeline
  work : after.work ≤ most
  does : ∃ events, Does task session.state events answer after.state

structure Enough (fuel : Nat) : Prop where
  perform (command : TimerCommand τ) (session : Session τ) (onTimeline : session.keeper = .timeline)
    (enough : 2 * (2 * command.size + session.work) + 1 ≤ fuel) :
    Comes (.command command) session (2 * command.size + session.work - 1)
      ((perform fuel command).run session).1 ((perform fuel command).run session).2
  runDue (target : τ) (count : Nat) (session : Session τ) (onTimeline : session.keeper = .timeline)
    (enough : 2 * session.work + 2 ≤ fuel) :
    ∃ answer : Answer τ, ((runDue fuel target count).run session).1.map .count = answer.plus count ∧
      Comes (.due target) session session.work answer ((runDue fuel target count).run session).2
  fire (callback : Callback τ) (session : Session τ) (onTimeline : session.keeper = .timeline)
    (enough : 2 * (2 * sizeAll callback.script + session.work) + 3 ≤ fuel) :
    Comes (.script callback.script) (session.recorded callback)
      (2 * sizeAll callback.script + session.work)
      (((fire fuel callback).run session).1.map fun _ => .nothing)
      ((fire fuel callback).run session).2
  performAll (commands : List (TimerCommand τ)) (session : Session τ)
    (onTimeline : session.keeper = .timeline)
    (enough : 2 * (2 * sizeAll commands + session.work) + 2 ≤ fuel) :
    Comes (.script commands) session (2 * sizeAll commands + session.work)
      (((performAll fuel commands).run session).1.map fun _ => .nothing)
      ((performAll fuel commands).run session).2

namespace Enough

variable {fuel : Nat} {session : Session τ}

theorem performAll_succ (before : Enough (τ := τ) fuel) (commands : List (TimerCommand τ))
    (onTimeline : session.keeper = .timeline)
    (enough : 2 * (2 * sizeAll commands + session.work) + 2 ≤ fuel + 1) :
    Comes (.script commands) session (2 * sizeAll commands + session.work)
      (((Session.performAll (fuel + 1) commands).run session).1.map fun _ => .nothing)
      ((Session.performAll (fuel + 1) commands).run session).2 := by
  cases commands with
  | nil => exact ⟨onTimeline, Nat.le_add_left _ _, [], .scriptEnds⟩
  | cons command rest =>
      rw [sizeAll] at enough ⊢
      have positive := size_pos command
      have first := before.perform command session onTimeline (by omega)
      rw [Session.performAll, run_bind]
      generalize (Session.perform fuel command).run session = result at first ⊢
      rcases result with ⟨failure | outcome, middle⟩
      all_goals
        rcases first with ⟨onTimeline, work, events, does⟩
        dsimp only at onTimeline work does ⊢
      · exact ⟨onTimeline, by omega, events, .scriptStops does⟩
      · rcases before.performAll rest middle onTimeline (by omega) with
          ⟨onTimeline, work, more, others⟩
        exact ⟨onTimeline, by omega, events ++ more, .scriptGoesOn does others⟩

theorem fire_succ (before : Enough (τ := τ) fuel) (callback : Callback τ)
    (onTimeline : session.keeper = .timeline)
    (enough : 2 * (2 * sizeAll callback.script + session.work) + 3 ≤ fuel + 1) :
    Comes (.script callback.script) (session.recorded callback)
      (2 * sizeAll callback.script + session.work)
      (((Session.fire (fuel + 1) callback).run session).1.map fun _ => .nothing)
      ((Session.fire (fuel + 1) callback).run session).2 := by
  have ran : (Session.fire (fuel + 1) callback).run session =
      (Session.performAll fuel callback.script).run (session.recorded callback) := by
    rw [Session.fire, run_bind]
    have onTimelineThen : (session.recorded callback).keeper = .timeline := onTimeline
    exact guarded_run _ onTimelineThen
  have same : (session.recorded callback).work = session.work := rfl
  rw [ran, ← same]
  exact before.performAll callback.script (session.recorded callback) onTimeline (by omega)

theorem runDue_succ (before : Enough (τ := τ) fuel) (target : τ) (count : Nat)
    (onTimeline : session.keeper = .timeline) (enough : 2 * session.work + 2 ≤ fuel + 1) :
    ∃ answer : Answer τ,
      ((Session.runDue (fuel + 1) target count).run session).1.map .count = answer.plus count ∧
      Comes (.due target) session session.work answer
        ((Session.runDue (fuel + 1) target count).run session).2 := by
  rw [Session.runDue, run_get]
  rcases pop?_cases session onTimeline with
    ⟨idle, none⟩ | ⟨timer, rest, popped, next, some, onTimelineThen, work, running⟩
  · rw [none]
    exact ⟨.ok (.count 0), rfl, onTimeline, work_cleaned session, [], .dueIdle idle⟩
  · rw [some]
    by_cases notDue : target < timer.due
    · rw [Option.filter_some, if_neg (by simpa using notDue)]
      exact ⟨.ok (.count 0), rfl, onTimeline, work_cleaned session, [], .dueDone next notDue⟩
    · have isDue : ¬target < timer.due := notDue
      rw [Option.filter_some, if_pos (by simpa using isDue)]
      have fired := before.fire timer.action popped onTimelineThen (by omega)
      dsimp only
      rw [run_set, run_bind]
      generalize (Session.fire fuel timer.action).run popped = result at fired ⊢
      rcases result with ⟨failure | outcome, middle⟩
      all_goals
        rcases fired with ⟨onTimeline, left, events, callback⟩
        rw [running] at callback
        dsimp only [Except.map] at onTimeline left callback ⊢
      · exact ⟨.error failure, rfl, onTimeline, by omega, _, .dueStops next isDue callback⟩
      · rcases before.runDue target (count + 1) middle onTimeline (by omega) with
          ⟨answer, same, onTimeline, left, more, others⟩
        exact ⟨answer.plus 1, same.trans (answer.plus_plus count 1).symm, onTimeline, by omega, _,
          .dueRuns next isDue callback others⟩

theorem setTimer_run (tag : String) (delay : τ) (script : List (TimerCommand τ))
    (onTimeline : session.keeper = .timeline) :
    (setTimer tag delay script).run session =
      match timeAfter session.timeline.clock delay (.negativeDelay delay) with
      | .error failure => (.error failure, session)
      | .ok due => (.ok (), { session with
          timeline := (session.timeline.setAt due ⟨tag, script⟩).2
          handles := setHandle tag ⟨session.timeline.nextId, false⟩ session.handles }) := by
  rw [setTimer, run_get, onTimeline, timeAfter]
  dsimp only
  rw [Timeline.set]
  by_cases negative : delay < 0
  · rw [if_pos negative, if_pos negative]
    rfl
  · rw [if_neg negative, if_neg negative]
    cases ClockTime.after? session.timeline.clock delay <;> rfl

/-! ### One command at a time -/

theorem set_comes (tag : String) (delay : τ) (script : List (TimerCommand τ))
    (onTimeline : session.keeper = .timeline) :
    Comes (.command (.set tag delay script)) session
      (2 * (TimerCommand.set tag delay script).size + session.work - 1)
      ((Session.perform (fuel + 1) (.set tag delay script)).run session).1
      ((Session.perform (fuel + 1) (.set tag delay script)).run session).2 := by
  rw [Session.perform, run_bind, setTimer_run tag delay script onTimeline, size]
  cases due : timeAfter session.timeline.clock delay (.negativeDelay delay) with
  | error failure => exact ⟨onTimeline, by dsimp only; omega, [], .setFails due⟩
  | ok due' =>
      refine ⟨onTimeline, ?_, _, .set due rfl⟩
      have left := work_setAt session due' ⟨tag, script⟩
      dsimp only [work] at left ⊢
      exact le_of_eq_of_le left (by omega)

theorem cancel_comes (tag : String) (onTimeline : session.keeper = .timeline) :
    Comes (.command (.cancel tag)) session (2 * 1 + session.work - 1)
      ((Session.perform (fuel + 1) (.cancel tag)).run session).1
      ((Session.perform (fuel + 1) (.cancel tag)).run session).2 := by
  have unchanged : session.work ≤ 2 * 1 + session.work - 1 := by omega
  cases known : session.handles.lookup tag with
  | none =>
      have ran : (Session.perform (fuel + 1) (.cancel tag)).run session =
          (.ok (.flag false), session) := by
        rw [Session.perform, run_bind, cancelTimer, run_get, known]
        rfl
      rw [ran]
      exact ⟨onTimeline, unchanged, [], .cancelUnknown known⟩
  | some handle =>
      have ran : (Session.perform (fuel + 1) (.cancel tag)).run session =
          (.ok (.flag true), { session with
            timeline := session.timeline.cancel handle.id
            handles := setHandle tag { handle with cancelled := true } session.handles }) := by
        rw [Session.perform, run_bind, cancelTimer, run_get, known]
        rfl
      rw [ran]
      exact ⟨onTimeline, le_of_eq_of_le (work_cancel session handle.id) unchanged, _,
        .cancel known⟩

theorem now_comes (onTimeline : session.keeper = .timeline) :
    Comes (.command .now) session (2 * 1 + session.work - 1)
      ((Session.perform (fuel + 1) .now).run session).1
      ((Session.perform (fuel + 1) .now).run session).2 := by
  have present : ¬session.keeper.isMissing = true := by
    rw [onTimeline]
    exact Bool.false_ne_true
  have ran : (Session.perform (fuel + 1) .now).run session =
      (.ok (.time session.timeline.clock), session) := by
    rw [Session.perform, run_get, if_neg present, run_get, Session.now, onTimeline]
    rfl
  have unchanged : session.work ≤ 2 * 1 + session.work - 1 := by omega
  rw [ran]
  exact ⟨onTimeline, unchanged, _, .now⟩

theorem runNext_comes (before : Enough (τ := τ) fuel) (onTimeline : session.keeper = .timeline)
    (enough : 2 * (2 * 1 + session.work) + 1 ≤ fuel + 1) :
    Comes (.command .runNext) session (2 * 1 + session.work - 1)
      ((Session.perform (fuel + 1) .runNext).run session).1
      ((Session.perform (fuel + 1) .runNext).run session).2 := by
  have tidied := work_cleaned session
  rw [Session.perform, run_get]
  rcases pop?_cases session onTimeline with
    ⟨idle, none⟩ | ⟨timer, rest, popped, next, some, onTimelineThen, left, running⟩
  · rw [none]
    exact ⟨onTimeline, le_trans tidied (by omega), [], .runNextIdle idle⟩
  · rw [some]
    have fired := before.fire timer.action popped onTimelineThen (by omega)
    dsimp only
    rw [run_set, run_bind]
    generalize (Session.fire fuel timer.action).run popped = result at fired ⊢
    rcases result with ⟨failure | outcome, middle⟩
    all_goals
      rcases fired with ⟨onTimeline, work, events, callback⟩
      rw [running] at callback
      have left : middle.work ≤ 2 * 1 + session.work - 1 := by
        dsimp only at work
        omega
      exact ⟨onTimeline, left, _, .runNext next callback⟩

theorem advance_comes (before : Enough (τ := τ) fuel) (duration : τ)
    (onTimeline : session.keeper = .timeline)
    (enough : 2 * (2 * 1 + session.work) + 1 ≤ fuel + 1) :
    Comes (.command (.advance duration)) session (2 * 1 + session.work - 1)
      ((Session.perform (fuel + 1) (.advance duration)).run session).1
      ((Session.perform (fuel + 1) (.advance duration)).run session).2 := by
  have unchanged : session.work ≤ 2 * 1 + session.work - 1 := by omega
  rw [Session.perform, run_get, target_eq duration onTimeline, run_lift]
  cases later : timeAfter session.timeline.clock duration .backwards with
  | error failure => exact ⟨onTimeline, unchanged, [], .advanceFails later⟩
  | ok target =>
      rcases before.runDue target 0 session onTimeline (by omega) with ⟨answer, same, ran⟩
      dsimp only
      rw [run_bind]
      generalize (Session.runDue fuel target 0).run session = result at same ran ⊢
      rcases result with ⟨failure | count, middle⟩
      all_goals
        rcases ran with ⟨onTimeline, work, events, runs⟩
        have left : middle.work ≤ 2 * 1 + session.work - 1 := Nat.le_trans work unchanged
        cases same.trans answer.plus_zero
      · exact ⟨onTimeline, left, events, .advanceStops later runs⟩
      · exact ⟨onTimeline, left, _, .advance later runs⟩

theorem perform_succ (before : Enough (τ := τ) fuel) (command : TimerCommand τ)
    (onTimeline : session.keeper = .timeline)
    (enough : 2 * (2 * command.size + session.work) + 1 ≤ fuel + 1) :
    Comes (.command command) session (2 * command.size + session.work - 1)
      ((Session.perform (fuel + 1) command).run session).1
      ((Session.perform (fuel + 1) command).run session).2 := by
  have unchanged : session.work ≤ 2 * 1 + session.work - 1 := by omega
  cases command with
  | set tag delay script => exact set_comes tag delay script onTimeline
  | cancel tag => exact cancel_comes tag onTimeline
  | isCancelled tag => exact ⟨onTimeline, unchanged, [], .isCancelled⟩
  | now => exact now_comes onTimeline
  | fail message => exact ⟨onTimeline, unchanged, [], .fail⟩
  | runNext => exact before.runNext_comes onTimeline enough
  | advance duration => exact before.advance_comes duration onTimeline enough

end Enough

theorem enough (fuel : Nat) : Enough (τ := τ) fuel := by
  induction fuel with
  | zero =>
      constructor
      all_goals
        intros
        omega
  | succ fuel before =>
      exact ⟨fun command _ => before.perform_succ command,
        fun target count _ => before.runDue_succ target count,
        fun callback _ => before.fire_succ callback,
        fun commands _ => before.performAll_succ commands⟩

/-! ## Histories -/

structure Entry (τ : Type) where
  command : TimerCommand τ
  before : Session τ
  answer : Answer τ
  events : List (Event τ)
  after : Session τ

/-- The commands of a session that has so many in all, one after another. Each is performed on the
session that the one before it has left, and its events are those of what it does. -/
inductive History (total : Nat) :
    Session τ → List (TimerCommand τ) → List (Entry τ) → Session τ → Prop
  | nil (session : Session τ) : History total session [] [] session
  | cons {session next last : Session τ} {command : TimerCommand τ} {answer : Answer τ}
      {events : List (Event τ)} {commands : List (TimerCommand τ)} {entries : List (Entry τ)}
      (performed : session.command total command = (answer, next))
      (does : Does (.command command) session.state events answer next.state)
      (rest : History total next commands entries last) :
      History total session (command :: commands)
        (⟨command, session, answer, events, next⟩ :: entries) last

def eventsOf (entries : List (Entry τ)) : List (Event τ) := entries.flatMap Entry.events

omit [LE τ] [DecidableLE τ] [LT τ] [DecidableLT τ] [Zero τ] [ClockTime τ] in
theorem eventsOf_cons (entry : Entry τ) (entries : List (Entry τ)) :
    eventsOf (entry :: entries) = entry.events ++ eventsOf entries :=
  List.flatMap_cons

theorem exists_history_of_work {total : Nat} (commands : List (TimerCommand τ))
    (session : Session τ) (onTimeline : session.keeper = .timeline)
    (within : 2 * sizeAll commands + session.work ≤ 2 * total) :
    ∃ entries last, History total session commands entries last := by
  induction commands generalizing session with
  | nil => exact ⟨[], session, .nil session⟩
  | cons command commands induction =>
      rw [sizeAll] at within
      have positive := size_pos command
      have comes := (enough (8 * total + 8)).perform command session onTimeline (by omega)
      rcases performed : session.command total command with ⟨answer, next⟩
      rw [Session.command] at performed
      rw [performed] at comes
      rcases comes with ⟨onTimeline, work, events, does⟩
      dsimp only at onTimeline work does
      rcases induction next onTimeline (by omega) with ⟨entries, last, rest⟩
      exact ⟨_, last, .cons performed does rest⟩

theorem exists_history (commands : List (TimerCommand τ)) :
    ∃ entries last, History (sizeAll commands) (.initial .timeline) commands entries last :=
  exists_history_of_work commands _ rfl (Nat.le_of_eq rfl)

end

end Session

end Flowchart
