import Flowchart.Proofs.Player.Timer

/-!
The timer of a player is attended to however it is driven.

A control sets a timer only after it has cancelled the one the player knows of, and a timer that
runs is the one it knows of. So no other will run, also where a control fails, and whatever an
oracle answers.
-/

namespace Flowchart.Player

open Walk Std.Do

set_option mvcgen.warning false

variable {τ σ χ : Type}

theorem isAttended_initial [Zero τ] (options : Options) (memory : σ) (audience : χ) :
    (initial options memory audience : Player τ σ χ).IsAttended :=
  ⟨Timeline.wellFormed_startingAt 0, rfl⟩

variable {stage : Stage τ σ χ} (quiet : stage.Quiet)

include quiet in
theorem dispatch_attended (event : Event) :
    ⦃fun player : Player τ σ χ => ⌜player.IsAttended⌝⦄
    dispatch stage event
    ⦃leaves IsAttended⦄ :=
  dispatch_spec quiet (fun _ _ _ _ _ attended _ => attended) fun _ _ attended _ => attended

include quiet in
theorem pause_attended :
    ⦃fun player : Player τ σ χ => ⌜player.IsAttended⌝⦄ pause stage ⦃leaves IsAttended⦄ := by
  have pauses := dispatch_attended quiet .pause
  mvcgen [pause, pauses]
  rename_i attended
  exact attended.withoutTimer

include quiet in
theorem reset_attended :
    ⦃fun player : Player τ σ χ => ⌜player.IsAttended⌝⦄ reset stage ⦃leaves IsAttended⦄ := by
  have resets := dispatch_attended quiet .reset
  mvcgen [reset, resets]
  rename_i attended
  exact attended.withoutTimer

include quiet in
theorem setSpeed_attended (speed : Number) :
    ⦃fun player : Player τ σ χ => ⌜player.IsAttended⌝⦄
    setSpeed stage speed
    ⦃leaves IsAttended⦄ := by
  have sets := dispatch_attended quiet (.setSpeed (some speed))
  mvcgen [setSpeed, sets]

variable [Zero τ] [ClockTime τ] [LE τ] [DecidableLE τ] [LT τ] [DecidableLT τ]

theorem Attended.set {timeline after : Timeline τ Unit} {delay : τ} {id : Nat}
    (attended : Attended timeline none) (isSet : timeline.set delay () = .ok (id, after)) :
    Attended after (some id) := by
  unfold Timeline.set at isSet
  split at isSet
  · cases isSet
  · split at isSet
    · cases isSet
    · rename_i due _
      cases isSet
      exact attended.setAt due

variable [IntCast τ]

variable (τ σ χ) in
theorem schedule_attended :
    ⦃fun player : Player τ σ χ => ⌜player.IsAttended⌝⦄ schedule ⦃leaves IsAttended⦄ := by
  refine schedule_rule (fun _ attended => attended.withoutTimer) ?_
  intro player id timeline attended free isSet
  rw [IsAttended, free] at attended
  exact attended.set isSet

include quiet in
theorem onTimer_attended :
    ⦃fun player : Player τ σ χ => ⌜Attended player.timeline none⌝⦄
    onTimer stage
    ⦃leaves IsAttended⦄ := by
  have ticks := dispatch_attended quiet .tick
  have schedules := schedule_attended τ σ χ
  mvcgen [onTimer, ticks, schedules]

include quiet in
theorem start_attended :
    ⦃fun player : Player τ σ χ => ⌜player.IsAttended⌝⦄ start stage ⦃leaves IsAttended⦄ := by
  have starts := dispatch_attended quiet (.start false)
  have schedules := schedule_attended τ σ χ
  mvcgen [start, starts, schedules]
  rename_i attended _
  exact attended.withoutTimer

include quiet in
theorem resume_attended :
    ⦃fun player : Player τ σ χ => ⌜player.IsAttended⌝⦄ resume stage ⦃leaves IsAttended⦄ := by
  have resumes := dispatch_attended quiet .resume
  have schedules := schedule_attended τ σ χ
  mvcgen [resume, resumes, schedules]

include quiet in
theorem step_attended :
    ⦃fun player : Player τ σ χ => ⌜player.IsAttended⌝⦄ step stage ⦃leaves IsAttended⦄ := by
  have starts := dispatch_attended quiet (.start true)
  have ticks := dispatch_attended quiet .tick
  have schedules := schedule_attended τ σ χ
  refine step_rule ?_ (fun _ attended _ => attended) ?_
  · mvcgen [starts]
    rename_i given
    exact given.1
  · mvcgen [ticks, schedules]
    rename_i given
    exact given.1

include quiet in
theorem stepUntilComplete_attended (limit : Int) (steps : Nat) :
    ⦃fun player : Player τ σ χ => ⌜player.IsAttended⌝⦄
    stepUntilComplete stage limit steps
    ⦃leaves IsAttended⦄ := by
  induction steps with
  | zero => mvcgen [stepUntilComplete]
  | succ steps induction =>
      have taken := step_attended quiet
      mvcgen [stepUntilComplete, taken, induction]

include quiet in
theorem runNext_attended :
    ⦃fun player : Player τ σ χ => ⌜player.IsAttended⌝⦄ runNext stage ⦃leaves IsAttended⦄ := by
  have timer := onTimer_attended quiet
  mvcgen [runNext, tidy, timer]
  case vc1.h_1 attended _ _ => exact attended.cleaned
  case vc2.h_2.pre attended _ _ popped _ => exact attended.popped popped

include quiet in
theorem runDue_attended (target : τ) (limit : Nat) :
    ∀ count, ⦃fun player : Player τ σ χ => ⌜player.IsAttended⌝⦄
      runDue stage target count limit
      ⦃leaves IsAttended⦄ := by
  induction limit with
  | zero =>
      intro count
      mvcgen [runDue]
  | succ limit induction =>
      intro count
      have timer := onTimer_attended quiet
      mvcgen [runDue, tidy, timer, induction]
      case vc1.succ.h_1 attended _ _ => exact attended.cleaned
      case vc2.succ.h_2.pre attended _ _ popped _ =>
        exact attended.popped (Option.filter_eq_some_iff.mp popped).1

include quiet in
theorem advance_attended (limit : Nat) (duration : τ) :
    ⦃fun player : Player τ σ χ => ⌜player.IsAttended⌝⦄
    advance stage limit duration
    ⦃leaves IsAttended⦄ := by
  mvcgen [advance]
  rename_i attended
  split
  · have runs := runDue_attended quiet
    mvcgen [runs]
    rename_i attended _
    exact attended.withClock _
  · exact attended

include quiet in
theorem perform_attended (limit : Nat) (control : Control τ) :
    ⦃fun player : Player τ σ χ => ⌜player.IsAttended⌝⦄
    perform stage limit control
    ⦃leaves IsAttended⦄ := by
  cases control with
  | start =>
      have starts := start_attended quiet
      mvcgen [perform, starts]
  | pause =>
      have pauses := pause_attended quiet
      mvcgen [perform, pauses]
  | resume =>
      have resumes := resume_attended quiet
      mvcgen [perform, resumes]
  | step =>
      have taken := step_attended quiet
      mvcgen [perform, taken]
  | reset =>
      have resets := reset_attended quiet
      mvcgen [perform, resets]
  | setSpeed speed =>
      have sets := setSpeed_attended quiet
      mvcgen [perform, sets]
  | run steps =>
      have runs := stepUntilComplete_attended quiet
      mvcgen [perform, runUntilComplete, runs]
  | advance duration =>
      have advances := advance_attended quiet
      mvcgen [perform, advances]
  | runNext =>
      have runs := runNext_attended quiet
      mvcgen [perform, runs]

include quiet in
theorem drive_attended (limit : Nat) (controls : List (Control τ)) {player : Player τ σ χ}
    (attended : player.IsAttended) : (drive stage limit controls player).IsAttended := by
  induction controls generalizing player with
  | nil => exact attended
  | cons first rest induction =>
      exact induction (run_of_triple (perform_attended quiet limit first) attended)

end Flowchart.Player
