import Flowchart.Proofs.Player.Plays
import Flowchart.Proofs.Timeline.Live
import Flowchart.Proofs.Program.Compiled
import Flowchart.Proofs.Walk.Events
import Flowchart.Proofs.Walk.Speeds

/-!
The timer of a player.

A player has at most one timer, the one it knows of. It ought to be set exactly while the walk is
running. All controls but those that step by hand see to that; a step by hand that completes a
running walk leaves its timer behind.
-/

namespace Flowchart

open Walk Std.Do

set_option mvcgen.warning false

namespace Player

variable {τ σ χ : Type}

structure Attended (timeline : Timeline τ Unit) (timer : Option Nat) : Prop where
  wellFormed : timeline.WellFormed
  live : timeline.live.map Timer.id = timer.toList

variable {timeline : Timeline τ Unit} {timer : Option Nat}

theorem Attended.pending_eq (attended : Attended timeline timer) :
    timeline.pending = if timer.isSome then 1 else 0 := by
  rw [attended.wellFormed.pending_eq, ← List.length_map Timer.id, attended.live]
  cases timer <;> rfl

theorem Attended.cancel {id : Nat} (attended : Attended timeline (some id)) :
    Attended (timeline.cancel id) none := by
  refine ⟨attended.wellFormed.cancel id, ?_⟩
  rw [Timeline.live_cancel attended.wellFormed, List.filter_eq_nil_iff.mpr]
  · rfl
  · intro timer member
    have known := List.mem_map_of_mem (f := Timer.id) member
    rw [attended.live] at known
    simpa using known

theorem Attended.setAt [LE τ] [DecidableLE τ] (attended : Attended timeline none) (due : τ) :
    Attended (timeline.setAt due ()).2 (some (timeline.setAt due ()).1) := by
  have live := Timeline.live_setAt attended.wellFormed due ()
  rw [List.map_eq_nil_iff.mp attended.live, List.perm_singleton] at live
  exact ⟨attended.wellFormed.setAt due (), congrArg (List.map Timer.id) live⟩

theorem Attended.next? (attended : Attended timeline timer) {first : Timer τ Unit}
    {rest : Timeline τ Unit} (isNext : timeline.next? = some (first, rest)) :
    Attended rest none := by
  rcases Timeline.next?_eq attended.wellFormed with ⟨idle, _⟩ | ⟨_, _, again, wellFormed, live⟩
  · cases idle.symm.trans isNext
  · cases again.symm.trans isNext
    have known := attended.live
    rw [live] at known
    cases timer with
    | none => cases known
    | some id => exact ⟨wellFormed, (List.cons.inj known).2⟩

theorem Attended.next?_of_mem (attended : Attended timeline timer) {first : Timer τ Unit}
    (member : first ∈ timeline.live) : ∃ rest, timeline.next? = some (first, rest) := by
  rcases Timeline.next?_eq attended.wellFormed with ⟨_, noneLive⟩ | ⟨next, rest, isNext, _, live⟩
  · rw [noneLive] at member
    cases member
  · have noneBehind := List.map_eq_nil_iff.mp (attended.next? isNext).live
    rw [live, noneBehind, List.mem_singleton] at member
    exact ⟨rest, member ▸ isNext⟩

theorem Attended.withClock (attended : Attended timeline timer) (clock : τ) :
    Attended { timeline with clock } timer where
  wellFormed := attended.wellFormed.withClock clock
  live := attended.live

theorem Attended.cleaned (attended : Attended timeline timer) :
    Attended timeline.cleaned timer := by
  rcases attended.wellFormed.cleaned with ⟨wellFormed, same, _⟩
  exact ⟨wellFormed, same ▸ attended.live⟩

abbrev IsAttended (player : Player τ σ χ) : Prop := Attended player.timeline player.timer

theorem IsAttended.withoutTimer {player : Player τ σ χ} (attended : player.IsAttended) :
    player.withoutTimer.IsAttended := by
  unfold Player.withoutTimer
  split
  · exact attended
  · rename_i isTimer
    rw [IsAttended, isTimer] at attended
    exact attended.cancel

theorem IsAttended.popped [LT τ] [DecidableLT τ] {player : Player τ σ χ}
    (attended : player.IsAttended) {timer : Timer τ Unit} {timeline : Timeline τ Unit}
    (popped : player.timeline.pop? = some (timer, timeline)) : Attended timeline none := by
  obtain ⟨⟨next, rest⟩, isNext, same⟩ := Option.map_eq_some_iff.mp popped
  cases same
  exact (attended.next? isNext).withClock _

structure Ready (options : Options) (knows : σ → Prop) (player : Player τ σ χ) : Prop where
  attended : Attended player.timeline player.timer
  remembers : knows player.memory
  speed : ∃ value, player.state.speed = options.clamp value

structure Timed (options : Options) (knows : σ → Prop) (player : Player τ σ χ) : Prop
    extends Ready options knows player where
  timer : player.timer.isSome ↔ player.state.phase = .running

/-- What steps by hand keep: a timer is set if the walk was running, which it then is until it is
completed. -/
structure Handled (options : Options) (knows : σ → Prop) (running : Prop)
    (player : Player τ σ χ) : Prop extends Ready options knows player where
  timer : player.timer.isSome ↔ running
  phase : player.state.phase ≠ .completed → (player.state.phase = .running ↔ running)

variable {options : Options} {knows : σ → Prop} {running : Prop} {player : Player τ σ χ}

theorem Ready.withoutTimer (ready : Ready options knows player) :
    Ready options knows player.withoutTimer where
  attended := IsAttended.withoutTimer ready.attended
  remembers := by
    rw [withoutTimer_memory]
    exact ready.remembers
  speed := by
    rw [withoutTimer_state]
    exact ready.speed

theorem Ready.pending_eq_iff (ready : Ready options knows player) :
    (player.timeline.pending = if player.state.phase = .running then 1 else 0) ↔
      (player.timer.isSome ↔ player.state.phase = .running) := by
  rw [ready.attended.pending_eq]
  by_cases running : player.state.phase = .running <;> cases player.timer <;> simp [running]

theorem Ready.moved (ready : Ready options knows player) {state : State} {memory : σ}
    (log : List (Entry τ)) (audience : χ) (remembers : knows memory)
    (speed : ∃ value, state.speed = options.clamp value) :
    Ready options knows { player with state, memory, log, audience } where
  attended := ready.attended
  remembers := remembers
  speed := speed

theorem Ready.timed_of_stopped (ready : Ready options knows player) (free : player.timer = none)
    (stopped : player.state.phase ≠ .running) : Timed options knows player :=
  ⟨ready, by simp [free, stopped]⟩

theorem Ready.popped [LT τ] [DecidableLT τ] (ready : Ready options knows player)
    {first : Timer τ Unit} {timeline : Timeline τ Unit}
    (popped : player.timeline.pop? = some (first, timeline)) :
    Ready options knows { player with timeline, timer := none } where
  attended := IsAttended.popped ready.attended popped
  remembers := ready.remembers
  speed := ready.speed

theorem Timed.tidied (timed : Timed options knows player) :
    Timed options knows { player with timeline := player.timeline.cleaned } where
  attended := timed.attended.cleaned
  remembers := timed.remembers
  speed := timed.speed
  timer := timed.timer

theorem timed_initial [Zero τ] (options : Options) (memory : σ) (audience : χ)
    (remembers : knows memory) :
    Timed options knows (initial options memory audience : Player τ σ χ) where
  attended := ⟨Timeline.wellFormed_startingAt 0, rfl⟩
  remembers := remembers
  speed := ⟨_, rfl⟩
  timer := by simp [initial, State.initial]

section

variable [Zero τ] [ClockTime τ] [LT τ] [IntCast τ]

structure Stage.Orderly (stage : Stage τ σ χ) (knows : σ → Prop) : Prop where
  quiet : stage.Quiet
  answers : stage.oracle.Answers knows
  waits : stage.options.Awaitable τ

variable {stage : Stage τ σ χ} (orderly : stage.Orderly knows)

/-! ## Events -/

include orderly in
theorem dispatch_tick_ready :
    ⦃fun player : Player τ σ χ => ⌜Ready stage.options knows player⌝⦄
    dispatch stage .tick
    ⦃post⟨fun _ player => ⌜Ready stage.options knows player⌝, fun _ _ => ⌜False⌝⟩⦄ := by
  refine dispatch_spec orderly.quiet ?_ ?_
  · intro player state entries memory audience ready ticked
    rcases exists_tick stage.options stage.graph player.timeline.clock player.state
      orderly.answers ready.remembers with
      ⟨_, _, _, again, remembers, speed, _⟩
    cases ticked.symm.trans again
    exact ready.moved _ _ remembers (ready.speed.imp fun _ => speed.trans)
  · intro player fault ready failed
    rcases exists_tick stage.options stage.graph player.timeline.clock player.state
      orderly.answers ready.remembers with
      ⟨_, _, _, again, _⟩
    cases failed.symm.trans again

variable (running) in
include orderly in
theorem dispatch_tick_handled :
    ⦃fun player : Player τ σ χ =>
      ⌜Handled stage.options knows running player ∧ player.state.phase ≠ .completed⌝⦄
    dispatch stage .tick
    ⦃leaves (Handled stage.options knows running)⦄ := by
  refine dispatch_spec orderly.quiet ?_ fun player _ handled _ => handled.1
  rintro player state entries memory audience ⟨handled, goesOn⟩ ticked
  rcases exists_tick stage.options stage.graph player.timeline.clock player.state
      orderly.answers handled.remembers with
    ⟨_, _, _, again, remembers, speed, phase⟩
  cases ticked.symm.trans again
  refine ⟨handled.moved _ _ remembers (handled.speed.imp fun _ => speed.trans), handled.timer, ?_⟩
  intro still
  rw [show state.phase = player.state.phase from phase.resolve_right still]
  exact handled.phase goesOn

include orderly in
theorem dispatch_start_ready :
    ⦃fun player : Player τ σ χ => ⌜Ready stage.options knows player ∧ player.timer = none ∧
      player.state.phase ≠ .running⌝⦄
    dispatch stage (.start false)
    ⦃post⟨fun _ player => ⌜Ready stage.options knows player⌝,
      fun _ player => ⌜Timed stage.options knows player⌝⟩⦄ := by
  refine dispatch_spec orderly.quiet ?_ ?_
  · rintro player state entries memory audience ⟨ready, free, stopped⟩ moved
    rcases start_cases moved stopped with ⟨speed, same, _⟩
    exact ready.moved _ _ (same ▸ ready.remembers) (ready.speed.imp fun _ => speed.trans)
  · rintro player fault ⟨ready, free, stopped⟩ _
    exact ⟨ready, by simp [free, stopped]⟩

variable (running) in
include orderly in
theorem dispatch_start_handled :
    ⦃fun player : Player τ σ χ => ⌜Handled stage.options knows running player ∧
      player.state.phase = .notStarted⌝⦄
    dispatch stage (.start true)
    ⦃leaves (Handled stage.options knows running)⦄ := by
  refine dispatch_spec orderly.quiet ?_ fun player _ handled _ => handled.1
  rintro player state entries memory audience ⟨handled, fresh⟩ moved
  rcases start_cases moved (by simp [fresh]) with ⟨speed, same, phase⟩
  refine ⟨handled.moved _ _ (same ▸ handled.remembers) (handled.speed.imp fun _ => speed.trans),
    handled.timer, fun still => ?_⟩
  have stopped := handled.phase (by simp [fresh])
  rw [phase.resolve_right still, ← stopped, fresh]
  simp

include orderly in
theorem dispatch_pause_timed :
    ⦃fun player : Player τ σ χ => ⌜Ready stage.options knows player ∧ player.timer = none⌝⦄
    dispatch stage .pause
    ⦃leaves (Timed stage.options knows)⦄ := by
  refine dispatch_spec orderly.quiet ?_ ?_
  · rintro player state entries memory audience ⟨ready, free⟩ moved
    cases moved
    split
    · exact ⟨ready.moved _ _ ready.remembers ready.speed, by simp [free]⟩
    · rename_i stopped
      exact ⟨ready.moved _ _ ready.remembers ready.speed, by simp [free, stopped]⟩
  · rintro player fault _ failed
    cases failed

include orderly in
theorem dispatch_resume_ready :
    ⦃fun player : Player τ σ χ => ⌜Ready stage.options knows player⌝⦄
    dispatch stage .resume
    ⦃post⟨fun _ player => ⌜Ready stage.options knows player⌝, fun _ _ => ⌜False⌝⟩⦄ := by
  refine dispatch_spec orderly.quiet ?_ ?_
  · intro player state entries memory audience ready moved
    cases moved
    refine ready.moved _ _ ready.remembers ?_
    split <;> exact ready.speed
  · rintro player fault _ failed
    cases failed

include orderly in
theorem dispatch_reset_timed :
    ⦃fun player : Player τ σ χ => ⌜Ready stage.options knows player ∧ player.timer = none⌝⦄
    dispatch stage .reset
    ⦃leaves (Timed stage.options knows)⦄ := by
  refine dispatch_spec orderly.quiet ?_ ?_
  · rintro player state entries memory audience ⟨ready, free⟩ moved
    cases moved
    exact ⟨ready.moved _ _ ready.remembers ready.speed, by simp [free, State.initial]⟩
  · rintro player fault _ failed
    cases failed

include orderly in
theorem dispatch_setSpeed_timed (speed : Number) :
    ⦃fun player : Player τ σ χ => ⌜Timed stage.options knows player⌝⦄
    dispatch stage (.setSpeed (some speed))
    ⦃leaves (Timed stage.options knows)⦄ := by
  refine dispatch_spec orderly.quiet ?_ fun player _ timed _ => timed
  intro player state entries memory audience timed moved
  cases moved
  exact ⟨timed.moved _ _ timed.remembers ⟨speed, rfl⟩, timed.timer⟩

/-! ## Controls without a timer to set -/

include orderly in
theorem pause_timed :
    ⦃fun player : Player τ σ χ => ⌜Timed stage.options knows player⌝⦄
    pause stage
    ⦃leaves (Timed stage.options knows)⦄ := by
  have pauses := dispatch_pause_timed orderly
  mvcgen [pause, pauses]
  rename_i timed
  exact ⟨timed.withoutTimer, withoutTimer_timer _⟩

include orderly in
theorem reset_timed :
    ⦃fun player : Player τ σ χ => ⌜Timed stage.options knows player⌝⦄
    reset stage
    ⦃leaves (Timed stage.options knows)⦄ := by
  have resets := dispatch_reset_timed orderly
  mvcgen [reset, resets]
  rename_i timed
  exact ⟨timed.withoutTimer.moved [] _ timed.withoutTimer.remembers timed.withoutTimer.speed,
    withoutTimer_timer _⟩

include orderly in
theorem setSpeed_timed (speed : Number) :
    ⦃fun player : Player τ σ χ => ⌜Timed stage.options knows player⌝⦄
    setSpeed stage speed
    ⦃leaves (Timed stage.options knows)⦄ := by
  have sets := dispatch_setSpeed_timed orderly
  mvcgen [setSpeed, sets]

/-! ## The next timer -/

variable [LE τ] [DecidableLE τ] [DecidableLT τ]

theorem exists_schedule_run (waits : options.Awaitable τ) (ready : Ready options knows player) :
    ∃ next, schedule.run player = (.ok (), next) ∧ Ready options knows next ∧
      next.state = player.state ∧ (next.timer.isSome ↔ next.state.phase = .running) := by
  have cancelled : (cancelTimer : Play τ σ χ Unit).run player = (.ok (), player.withoutTimer) := rfl
  have free := withoutTimer_timer player
  have ready := ready.withoutTimer
  unfold schedule
  rw [run_bind_of_ok cancelled, run_bind_of_ok (get_run _), ← withoutTimer_state player]
  generalize player.withoutTimer = idle at ready free ⊢
  split
  · rename_i running
    rcases ready.speed with ⟨value, speed⟩
    rcases waits value idle.timeline.clock with ⟨positive, waiting⟩
    rcases Option.isSome_iff_exists.mp waiting with ⟨due, after⟩
    have isSet : idle.timeline.set (idle.state.speed : τ) () =
        .ok (idle.timeline.setAt due ()) := by
      rw [Timeline.set, speed, if_neg positive, after]
    rw [isSet]
    have attended := ready.attended
    rw [free] at attended
    exact ⟨_, rfl, ⟨attended.setAt due, ready.remembers, ready.speed⟩, rfl, by simp [running]⟩
  · rename_i stopped
    exact ⟨idle, rfl, ready, rfl, by simp [free, stopped]⟩

include orderly in
theorem schedule_timed :
    ⦃fun player : Player τ σ χ => ⌜Ready stage.options knows player⌝⦄
    schedule
    ⦃leaves (Timed stage.options knows)⦄ := by
  intro player ready
  rcases exists_schedule_run orderly.waits ready with ⟨next, ran, ready, _, timer⟩
  rw [wp_eq_run, ran]
  exact ⟨ready, timer⟩

variable (running) in
include orderly in
theorem schedule_handled :
    ⦃fun player : Player τ σ χ =>
      ⌜Handled stage.options knows running player ∧ player.state.phase = .running⌝⦄
    schedule
    ⦃leaves (Handled stage.options knows running)⦄ := by
  rintro player ⟨handled, phase⟩
  rcases exists_schedule_run orderly.waits handled.toReady with ⟨next, ran, ready, same, timer⟩
  rw [wp_eq_run, ran]
  have still := handled.phase (by simp [phase])
  rw [← same] at still
  exact ⟨ready, timer.trans still, fun _ => still⟩

/-! ## Controls -/

include orderly in
theorem start_timed :
    ⦃fun player : Player τ σ χ => ⌜Timed stage.options knows player⌝⦄
    start stage
    ⦃leaves (Timed stage.options knows)⦄ := by
  have starts := dispatch_start_ready orderly
  have schedules := schedule_timed orderly
  mvcgen [start, starts, schedules]
  rename_i timed stopped
  refine ⟨?_, withoutTimer_timer _, by simpa using stopped⟩
  exact timed.withoutTimer.moved [] _ timed.withoutTimer.remembers timed.withoutTimer.speed

include orderly in
theorem resume_timed :
    ⦃fun player : Player τ σ χ => ⌜Timed stage.options knows player⌝⦄
    resume stage
    ⦃leaves (Timed stage.options knows)⦄ := by
  have resumes := dispatch_resume_ready orderly
  have schedules := schedule_timed orderly
  mvcgen [resume, resumes, schedules]
  rename_i timed _
  exact timed.toReady

include orderly in
theorem onTimer_timed :
    ⦃fun player : Player τ σ χ => ⌜Ready stage.options knows { player with timer := none }⌝⦄
    onTimer stage
    ⦃leaves (Timed stage.options knows)⦄ := by
  have ticks := dispatch_tick_ready orderly
  have schedules := schedule_timed orderly
  mvcgen [onTimer, ticks, schedules]
  rename_i ready _ stopped
  exact ready.timed_of_stopped rfl stopped

include orderly in
theorem runNext_timed :
    ⦃fun player : Player τ σ χ => ⌜Timed stage.options knows player⌝⦄
    runNext stage
    ⦃leaves (Timed stage.options knows)⦄ := by
  have timer := onTimer_timed orderly
  mvcgen [runNext, tidy, timer]
  case vc1.h_1 timed _ _ => exact timed.tidied
  case vc2.h_2.pre timed _ _ popped _ => exact timed.popped popped

include orderly in
theorem runDue_timed (target : τ) (limit : Nat) :
    ∀ count, ⦃fun player : Player τ σ χ => ⌜Timed stage.options knows player⌝⦄
      runDue stage target count limit
      ⦃leaves (Timed stage.options knows)⦄ := by
  induction limit with
  | zero =>
      intro count
      mvcgen [runDue]
  | succ limit induction =>
      intro count
      have timer := onTimer_timed orderly
      mvcgen [runDue, tidy, timer, induction]
      case vc1.succ.h_1 timed _ _ => exact timed.tidied
      case vc2.succ.h_2.pre timed _ _ popped _ =>
        exact timed.popped (Option.filter_eq_some_iff.mp popped).1

include orderly in
theorem advance_timed (limit : Nat) (duration : τ) :
    ⦃fun player : Player τ σ χ => ⌜Timed stage.options knows player⌝⦄
    advance stage limit duration
    ⦃leaves (Timed stage.options knows)⦄ := by
  mvcgen [advance]
  rename_i timed
  split
  · have runs := runDue_timed orderly
    mvcgen [runs]
    rename_i timed _
    exact ⟨⟨timed.attended.withClock _, timed.remembers, timed.speed⟩, timed.timer⟩
  · exact timed

variable (running) in
include orderly in
theorem step_handled :
    ⦃fun player : Player τ σ χ => ⌜Handled stage.options knows running player⌝⦄
    step stage
    ⦃leaves (Handled stage.options knows running)⦄ := by
  have starts := dispatch_start_handled running orderly
  have ticks := dispatch_tick_handled running orderly
  have schedules := schedule_handled running orderly
  refine step_rule ?_ (fun _ handled _ => handled) ?_
  · mvcgen [starts]
    rename_i given
    rcases given with ⟨handled, fresh⟩
    exact ⟨⟨handled.moved [] _ handled.remembers handled.speed, handled.timer, handled.phase⟩,
      fresh⟩
  · mvcgen [ticks, schedules]
    rename_i given
    exact ⟨given.1, fun completed => given.2 (.inr completed)⟩

variable (running) in
include orderly in
theorem stepUntilComplete_handled (limit : Int) (steps : Nat) :
    ⦃fun player : Player τ σ χ => ⌜Handled stage.options knows running player⌝⦄
    stepUntilComplete stage limit steps
    ⦃leaves (Handled stage.options knows running)⦄ := by
  induction steps with
  | zero => mvcgen [stepUntilComplete]
  | succ steps induction =>
      have taken := step_handled running orderly
      mvcgen [stepUntilComplete, taken, induction]

def Control.byHand : Control τ → Bool
  | .step => true
  | .run _ => true
  | _ => false

include orderly in
theorem perform_timed (limit : Nat) (control : Control τ) (byTimer : control.byHand = false) :
    ⦃fun player : Player τ σ χ => ⌜Timed stage.options knows player⌝⦄
    perform stage limit control
    ⦃leaves (Timed stage.options knows)⦄ := by
  cases control with
  | start =>
      have starts := start_timed orderly
      mvcgen [perform, starts]
  | pause =>
      have pauses := pause_timed orderly
      mvcgen [perform, pauses]
  | resume =>
      have resumes := resume_timed orderly
      mvcgen [perform, resumes]
  | reset =>
      have resets := reset_timed orderly
      mvcgen [perform, resets]
  | setSpeed speed =>
      have sets := setSpeed_timed orderly
      mvcgen [perform, sets]
  | advance duration =>
      have advances := advance_timed orderly
      mvcgen [perform, advances]
  | runNext =>
      have runs := runNext_timed orderly
      mvcgen [perform, runs]
  | step | run => cases byTimer

variable (running) in
include orderly in
theorem perform_handled (limit : Nat) (control : Control τ) (byHand : control.byHand = true) :
    ⦃fun player : Player τ σ χ => ⌜Handled stage.options knows running player⌝⦄
    perform stage limit control
    ⦃leaves (Handled stage.options knows running)⦄ := by
  cases control with
  | step =>
      have taken := step_handled running orderly
      mvcgen [perform, taken]
  | run steps =>
      have runs := stepUntilComplete_handled running orderly
      mvcgen [perform, runUntilComplete, runs]
  | _ => cases byHand

include orderly in
/-- Only a step by hand that completes a running walk leaves a timer behind. -/
theorem Timed.perform (timed : Timed stage.options knows player) (limit : Nat) (control : Control τ)
    {next : Player τ σ χ}
    (used : ((perform stage limit control).run player).2 = next) :
    Ready stage.options knows next ∧
      ((next.timer.isSome ↔ next.state.phase = .running) ↔
        ¬(control.byHand = true ∧ player.state.phase = .running ∧
          next.state.phase = .completed)) := by
  cases byHand : control.byHand with
  | false =>
      have timed := run_of_triple (perform_timed orderly limit control byHand) timed
      rw [used] at timed
      exact ⟨timed.toReady, iff_of_true timed.timer fun left => Bool.noConfusion left.1⟩
  | true =>
      have handled := run_of_triple
        (perform_handled (player.state.phase = .running) orderly limit control byHand)
        ⟨timed.toReady, timed.timer, fun _ => .rfl⟩
      rw [used] at handled
      refine ⟨handled.toReady, ?_⟩
      by_cases completed : next.state.phase = .completed
      · rw [handled.timer, completed]
        simp
      · exact iff_of_true (handled.timer.trans (handled.phase completed).symm)
          fun left => completed left.2.2

/-- With an oracle that answers, and at speeds for which the clock can wait, exactly one timer is
pending while the walk is running and none otherwise, as long as no step by hand completes a walk
that is running. -/
theorem pending_eq_iff_completed_by_timer (stage : Stage τ σ χ) (quiet : stage.Quiet)
    (memory : σ) (audience : χ) (limit : Nat) (knows : σ → Prop)
    (answers : stage.oracle.Answers knows) (remembers : knows memory)
    (waits : stage.options.Awaitable τ) (controls : List (Control τ)) :
    let player (count : Nat) : Player τ σ χ :=
      drive stage limit (controls.take count) (initial stage.options memory audience)
    (∀ count, (player count).timeline.pending =
      if (player count).state.phase = .running then 1 else 0) ↔
    ∀ index control, controls[index]? = some control →
      ¬(control.byHand = true ∧ (player index).state.phase = .running ∧
        (player (index + 1)).state.phase = .completed) := by
  intro player
  have orderly : stage.Orderly knows := ⟨quiet, answers, waits⟩
  have initially : Timed stage.options knows (player 0) :=
    timed_initial stage.options memory audience remembers
  have step {index : Nat} {control : Control τ} (found : controls[index]? = some control)
      (timed : Timed stage.options knows (player index)) :=
    timed.perform orderly limit control (drive_take_succ found _).symm
  -- Either side carries `Timed` from control to control: what a control leaves is `Timed` again
  -- exactly if it did not complete a running walk by hand.
  constructor
  · intro pending
    have timed (count : Nat) : Timed stage.options knows (player count) :=
      drive_induction initially (fun index control found timed =>
        have ready := (step found timed).1
        ⟨ready, ready.pending_eq_iff.mp (pending (index + 1))⟩) count
    exact fun index control found => (step found (timed index)).2.mp (timed (index + 1)).timer
  · intro kept
    have timed (count : Nat) : Timed stage.options knows (player count) :=
      drive_induction initially (fun index control found timed =>
        ⟨(step found timed).1, (step found timed).2.mpr (kept index control found)⟩) count
    exact fun count => (timed count).pending_eq_iff.mpr (timed count).timer

end

/-! ## A timer that is left behind -/

def startAndEnd : String := "Start\nEnd"

def startAndEndBlocks : List Block :=
  [⟨"Start", 0, .start, false, none⟩, ⟨"End", 0, .stop, true, none⟩]

def pausedStep : List (Control Number) := [.start, .pause, .step, .runNext]

theorem pending_eq_pausedStep :
    let player (count : Nat) : Player Number Oracle.Adviser Unit :=
      drive (.silent (Graph.ofBlocks startAndEndBlocks) {} Oracle.advising) 1
        (pausedStep.take count) (initial {} (.fixed Oracle.yes 0) ())
    ({} : Options).Awaitable Number ∧ Oracle.advising.Answers (· = .fixed Oracle.yes 0) ∧
      (player 4).state.phase = .completed ∧
      ∀ count, (player count).timeline.pending =
        if (player count).state.phase = .running then 1 else 0 := by
  intro player
  have waits : ({} : Options).Awaitable Number :=
    Options.awaitable_number (by decide) (by decide) (by decide)
  have answers := Oracle.answers_fixed Oracle.yes 0
  refine ⟨waits, answers, by decide +kernel, ?_⟩
  refine (pending_eq_iff_completed_by_timer
    (.silent (Graph.ofBlocks startAndEndBlocks) {} Oracle.advising) (Stage.quiet_silent _ _ _)
    (.fixed Oracle.yes 0) () 1 (· = .fixed Oracle.yes 0) answers rfl waits pausedStep).mpr ?_
  have kept : ∀ index < pausedStep.length, ∀ control ∈ pausedStep[index]?,
      ¬(control.byHand = true ∧ (player index).state.phase = .running ∧
        (player (index + 1)).state.phase = .completed) := by decide +kernel
  exact fun index control found =>
    kept index (List.getElem?_eq_some_iff.mp found).1 control found

theorem startAndEnd_blocks :
    Program.tagCalls [] (completeConditionals (outline
      (Text.joinLines (Text.lines startAndEnd.toList)))) = startAndEndBlocks := by
  decide +kernel

/-- A step by hand completes a walk that is running, and its timer is still pending. -/
theorem exists_pending_of_completed :
    ¬∀ (scorer : Recursion.Scorer) (source : String) (program : Program),
      Program.compile scorer source = .ok program →
        ∀ (options : Options) (answer : String) (choice : Int) (limit : Nat)
          (controls : List (Control Number)) (player : Player Number Oracle.Adviser Unit),
          drive (.silent program.main options Oracle.advising) limit controls
            (initial options (.fixed answer choice) ()) = player →
          player.timeline.pending = if player.state.phase = .running then 1 else 0 := by
  intro always
  rcases Program.compile_of_plain .standard startAndEnd (by decide +kernel) with
    ⟨program, compiled, _, main⟩
  rw [startAndEnd_blocks] at main
  have pending := always .standard startAndEnd program compiled {} Oracle.yes 0 1 [.start, .step] _
    rfl
  rw [main] at pending
  revert pending
  decide +kernel

end Player

end Flowchart
