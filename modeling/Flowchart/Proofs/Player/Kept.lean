import Flowchart.Proofs.Player.Plays
import Flowchart.Proofs.Walk.Reached

/-!
What every control of a player keeps.

Timers and the clock decide when an event comes, and listeners change nothing. So what the events
keep of the state of a walk, of its log and of what the oracle remembers is kept by all controls.
-/

namespace Flowchart.Player

open Walk Std.Do

set_option mvcgen.warning false

variable {τ σ χ : Type}

/-- A property of the state, the log and the memory that is kept by the events of a stage. A start
keeps it in the phases for which `begins` is so. -/
structure Kept (stage : Stage τ σ χ) (begins : Phase → Prop)
    (holds : State → List (Entry τ) → σ → Prop) : Prop where
  fresh : begins .notStarted
  tick : ∀ now state log memory next entries later, holds state log memory →
    transition stage.oracle stage.options stage.graph now state memory .tick =
      .ok (next, entries, later) → holds next (log ++ entries) later
  adjust : ∀ event, Event.Adjusts event → ∀ now state log memory next entries later,
    holds state log memory →
    transition stage.oracle stage.options stage.graph now state memory event =
      .ok (next, entries, later) → holds next (log ++ entries) later
  start : ∀ paused now state log memory next entries later, holds state log memory →
    begins state.phase →
    transition stage.oracle stage.options stage.graph now state memory (.start paused) =
      .ok (next, entries, later) → holds next entries later
  unstarted : ∀ state log memory, holds state log memory → begins state.phase →
    stage.graph.find? .start = none → holds state [] memory

abbrev Has (holds : State → List (Entry τ) → σ → Prop) (player : Player τ σ χ) : Prop :=
  holds player.state player.log player.memory

variable {stage : Stage τ σ χ} {begins : Phase → Prop}
variable {holds : State → List (Entry τ) → σ → Prop}
variable (quiet : stage.Quiet) (kept : Kept stage begins holds)

/-! ## Events -/

include quiet kept in
theorem dispatch_tick_kept :
    ⦃fun player : Player τ σ χ => ⌜player.Has holds⌝⦄
    dispatch stage .tick
    ⦃leaves (Has holds)⦄ :=
  dispatch_spec quiet (fun _ _ _ _ _ has ticked => kept.tick _ _ _ _ _ _ _ has ticked)
    fun _ _ has _ => has

include quiet kept in
theorem dispatch_adjust_kept {event : Event} (adjusts : event.Adjusts) :
    ⦃fun player : Player τ σ χ => ⌜player.Has holds⌝⦄
    dispatch stage event
    ⦃leaves (Has holds)⦄ :=
  dispatch_spec quiet (fun _ _ _ _ _ has moved => kept.adjust _ adjusts _ _ _ _ _ _ _ has moved)
    fun _ _ has _ => has

include quiet kept in
theorem dispatch_start_kept (paused : Bool) :
    ⦃fun player : Player τ σ χ => ⌜∃ log, holds player.state log player.memory ∧
      begins player.state.phase ∧ player.log = []⌝⦄
    dispatch stage (.start paused)
    ⦃leaves (Has holds)⦄ := by
  refine dispatch_spec quiet ?_ ?_
  · rintro player state entries memory audience ⟨log, has, mayBegin, cleared⟩ begun
    rw [Has, cleared]
    exact kept.start _ _ _ _ _ _ _ _ has mayBegin begun
  · rintro player fault ⟨log, has, mayBegin, cleared⟩ failed
    rw [Has, cleared]
    exact kept.unstarted _ _ _ has mayBegin (find?_eq_none_of_start failed)

include quiet in
theorem dispatch_reset_kept
    (resets : ∀ state log memory, holds state log memory →
      holds (.initial state.speed) [] memory) :
    ⦃fun player : Player τ σ χ => ⌜∃ log, holds player.state log player.memory ∧
      player.log = []⌝⦄
    dispatch stage .reset
    ⦃leaves (Has holds)⦄ := by
  refine dispatch_spec quiet ?_ ?_
  · rintro player state entries memory audience ⟨log, has, cleared⟩ moved
    cases moved
    rw [Has, cleared]
    exact resets _ _ _ has
  · rintro player fault _ failed
    cases failed

/-! ## Controls -/

include quiet kept in
theorem pause_kept :
    ⦃fun player : Player τ σ χ => ⌜player.Has holds⌝⦄
    pause stage
    ⦃leaves (Has holds)⦄ := by
  have pauses := dispatch_adjust_kept quiet kept .pause
  mvcgen [pause, pauses]
  rename_i has
  simpa [Has] using has

include quiet kept in
theorem setSpeed_kept (speed : Number) :
    ⦃fun player : Player τ σ χ => ⌜player.Has holds⌝⦄
    setSpeed stage speed
    ⦃leaves (Has holds)⦄ := by
  have sets := dispatch_adjust_kept quiet kept (.setSpeed (some speed))
  mvcgen [setSpeed, sets]

include quiet in
theorem reset_kept
    (resets : ∀ state log memory, holds state log memory →
      holds (.initial state.speed) [] memory) :
    ⦃fun player : Player τ σ χ => ⌜player.Has holds⌝⦄
    reset stage
    ⦃leaves (Has holds)⦄ := by
  have dispatched := dispatch_reset_kept quiet resets
  mvcgen [reset, dispatched]
  rename_i player has
  exact ⟨player.log, by simpa using has⟩

variable [Zero τ] [ClockTime τ] [LE τ] [DecidableLE τ] [LT τ] [DecidableLT τ] [IntCast τ]

variable (χ holds) in
theorem schedule_kept :
    ⦃fun player : Player τ σ χ => ⌜player.Has holds⌝⦄
    schedule
    ⦃leaves (Has holds)⦄ := by
  refine schedule_rule (fun player has => ?_) fun _ _ _ has _ _ => has
  simpa [Has] using has

include quiet kept in
theorem start_kept :
    ⦃fun player : Player τ σ χ =>
      ⌜player.Has holds ∧ (player.state.phase ≠ .running → begins player.state.phase)⌝⦄
    start stage
    ⦃leaves (Has holds)⦄ := by
  have starts := dispatch_start_kept quiet kept
  have schedules := schedule_kept χ holds
  mvcgen [start, starts, schedules]
  · rename_i player given stopped
    have mayBegin := given.2 stopped
    exact ⟨player.log, by simpa using given.1, by simpa using mayBegin⟩
  · rename_i given _
    exact given.1

include quiet kept in
theorem resume_kept :
    ⦃fun player : Player τ σ χ => ⌜player.Has holds⌝⦄
    resume stage
    ⦃leaves (Has holds)⦄ := by
  have resumes := dispatch_adjust_kept quiet kept .resume
  have schedules := schedule_kept χ holds
  mvcgen [resume, resumes, schedules]

include quiet kept in
theorem onTimer_kept :
    ⦃fun player : Player τ σ χ => ⌜player.Has holds⌝⦄
    onTimer stage
    ⦃leaves (Has holds)⦄ := by
  have ticks := dispatch_tick_kept quiet kept
  have schedules := schedule_kept χ holds
  mvcgen [onTimer, ticks, schedules]

include quiet kept in
theorem runNext_kept :
    ⦃fun player : Player τ σ χ => ⌜player.Has holds⌝⦄
    runNext stage
    ⦃leaves (Has holds)⦄ := by
  have timer := onTimer_kept quiet kept
  mvcgen [runNext, timer]

include quiet kept in
theorem runDue_kept (target : τ) (limit : Nat) :
    ∀ count, ⦃fun player : Player τ σ χ => ⌜player.Has holds⌝⦄
      runDue stage target count limit
      ⦃leaves (Has holds)⦄ := by
  induction limit with
  | zero =>
      intro count
      mvcgen [runDue]
  | succ limit induction =>
      intro count
      have timer := onTimer_kept quiet kept
      mvcgen [runDue, timer, induction]

include quiet kept in
theorem advance_kept (limit : Nat) (duration : τ) :
    ⦃fun player : Player τ σ χ => ⌜player.Has holds⌝⦄
    advance stage limit duration
    ⦃leaves (Has holds)⦄ := by
  mvcgen [advance]
  rename_i has
  split
  · have runs := runDue_kept quiet kept
    mvcgen [runs]
  · exact has

include quiet kept in
theorem step_kept :
    ⦃fun player : Player τ σ χ => ⌜player.Has holds⌝⦄
    step stage
    ⦃leaves (Has holds)⦄ := by
  have starts := dispatch_start_kept quiet kept
  have ticks := dispatch_tick_kept quiet kept
  have schedules := schedule_kept χ holds
  refine step_rule ?_ (fun _ has _ => has) ?_
  · mvcgen [starts]
    rename_i player given
    exact ⟨player.log, given.1, given.2 ▸ kept.fresh⟩
  · mvcgen [ticks, schedules]
    rename_i given
    exact given.1

include quiet kept in
theorem stepUntilComplete_kept (limit : Int) (steps : Nat) :
    ⦃fun player : Player τ σ χ => ⌜player.Has holds⌝⦄
    stepUntilComplete stage limit steps
    ⦃leaves (Has holds)⦄ := by
  induction steps with
  | zero => mvcgen [stepUntilComplete]
  | succ steps induction =>
      have taken := step_kept quiet kept
      mvcgen [stepUntilComplete, taken, induction]

def Control.goesOn : Control τ → Bool
  | .start => false
  | .reset => false
  | _ => true

include quiet kept in
theorem perform_kept_of_goesOn (limit : Nat) (control : Control τ)
    (goesOn : control.goesOn = true) :
    ⦃fun player : Player τ σ χ => ⌜player.Has holds⌝⦄
    perform stage limit control
    ⦃leaves (Has holds)⦄ := by
  cases control with
  | pause =>
      have pauses := pause_kept quiet kept
      mvcgen [perform, pauses]
  | resume =>
      have resumes := resume_kept quiet kept
      mvcgen [perform, resumes]
  | step =>
      have taken := step_kept quiet kept
      mvcgen [perform, taken]
  | setSpeed speed =>
      have sets := setSpeed_kept quiet kept
      mvcgen [perform, sets]
  | run steps =>
      have runs := stepUntilComplete_kept quiet kept
      mvcgen [perform, runUntilComplete, runs]
  | advance duration =>
      have advances := advance_kept quiet kept
      mvcgen [perform, advances]
  | runNext =>
      have runs := runNext_kept quiet kept
      mvcgen [perform, runs]
  | start | reset => cases goesOn

include quiet kept in
theorem perform_start_kept (limit : Nat) :
    ⦃fun player : Player τ σ χ =>
      ⌜player.Has holds ∧ (player.state.phase ≠ .running → begins player.state.phase)⌝⦄
    perform stage limit .start
    ⦃leaves (Has holds)⦄ := by
  have starts := start_kept quiet kept
  mvcgen [perform, starts]

include quiet kept in
/-- If starts in all phases and resets keep a property, every control keeps it. -/
theorem perform_kept (always : ∀ phase, phase ≠ .running → begins phase)
    (resets : ∀ state log memory, holds state log memory →
      holds (.initial state.speed) [] memory) (limit : Nat) (control : Control τ) :
    ⦃fun player : Player τ σ χ => ⌜player.Has holds⌝⦄
    perform stage limit control
    ⦃leaves (Has holds)⦄ := by
  cases control with
  | start =>
      have starts := perform_start_kept quiet kept limit
      mvcgen [starts]
      rename_i has
      exact ⟨has, always _⟩
  | reset =>
      have dispatched := reset_kept quiet resets
      mvcgen [perform, dispatched]
  | _ => exact perform_kept_of_goesOn quiet kept limit _ rfl

/-! ## Walks that are driven -/

include quiet kept in
theorem drive_kept_of_goesOn (limit : Nat) {controls : List (Control τ)}
    (goesOn : ∀ control ∈ controls, control.goesOn = true) {player : Player τ σ χ}
    (has : player.Has holds) : (drive stage limit controls player).Has holds := by
  induction controls generalizing player with
  | nil => exact has
  | cons first rest induction =>
      have performed :=
        perform_kept_of_goesOn quiet kept limit first (goesOn first List.mem_cons_self)
      exact induction (fun control member => goesOn control (List.mem_cons_of_mem _ member))
        (run_of_triple performed has)

include quiet kept in
theorem drive_kept (always : ∀ phase, phase ≠ .running → begins phase)
    (resets : ∀ state log memory, holds state log memory →
      holds (.initial state.speed) [] memory) (limit : Nat) (controls : List (Control τ))
    {player : Player τ σ χ} (has : player.Has holds) :
    (drive stage limit controls player).Has holds := by
  induction controls generalizing player with
  | nil => exact has
  | cons first rest induction =>
      exact induction (run_of_triple (perform_kept quiet kept always resets limit first) has)

end Flowchart.Player
