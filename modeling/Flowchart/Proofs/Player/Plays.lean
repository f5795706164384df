import Mathlib
import Flowchart.Player.Control
import Flowchart.Proofs.Player.Stepping
import Flowchart.Proofs.Walk.Events

/-!
Triples about what players do.

A triple is about the player before and after, and about the value or the fault that a play comes
to. The rules here are for the plays of which the others are made. Listeners may listen, but they
do not control the player.
-/

namespace Flowchart.Player

open Walk Std.Do

set_option mvcgen.warning false

variable {τ σ χ α : Type}

abbrev Promise (τ σ χ α : Type) := PostCond α (.except (Fault τ) (.arg (Player τ σ χ) .pure))

abbrev leaves (holds : Player τ σ χ → Prop) : Promise τ σ χ α :=
  post⟨fun _ player => ⌜holds player⌝, fun _ player => ⌜holds player⌝⟩

theorem wp_eq_run (play : Play τ σ χ α) (promise : Promise τ σ χ α) (player : Player τ σ χ) :
    wp⟦play⟧ promise player = match play.run player with
      | (.ok value, next) => promise.1 value next
      | (.error fault, next) => promise.2.1 fault next := by
  simp only [WP.wp, PredTrans.apply_pushExcept, PredTrans.apply_pushArg, StateT.run, Id.run]
  rcases play.run player with ⟨_ | _, _⟩ <;> simp

theorem run_of_triple {play : Play τ σ χ α} {before after : Player τ σ χ → Prop}
    (triple : ⦃fun player => ⌜before player⌝⦄ play ⦃leaves after⦄) {player : Player τ σ χ}
    (holds : before player) : after (play.run player).2 := by
  have kept := triple player holds
  rw [wp_eq_run] at kept
  rcases ran : play.run player with ⟨_ | _, next⟩ <;> rw [ran] at kept <;> exact kept

/-! ## Parts of plays -/

@[spec]
theorem monadLift_spec (result : Except (Fault τ) α) (promise : Promise τ σ χ α) :
    ⦃fun player => match result with
      | .ok value => promise.1 value player
      | .error fault => promise.2.1 fault player⦄
    (MonadLift.monadLift result : Play τ σ χ α)
    ⦃promise⦄ := by
  cases result <;> exact SPred.entails.rfl

def withoutTimer (player : Player τ σ χ) : Player τ σ χ :=
  match player.timer with
  | none => player
  | some timer => { player with timer := none, timeline := player.timeline.cancel timer }

section

variable (player : Player τ σ χ)

@[simp] theorem withoutTimer_state : player.withoutTimer.state = player.state := by
  unfold withoutTimer
  split <;> rfl

@[simp] theorem withoutTimer_log : player.withoutTimer.log = player.log := by
  unfold withoutTimer
  split <;> rfl

@[simp] theorem withoutTimer_memory : player.withoutTimer.memory = player.memory := by
  unfold withoutTimer
  split <;> rfl

@[simp] theorem withoutTimer_timer : player.withoutTimer.timer = none := by
  unfold withoutTimer
  split
  · assumption
  · rfl

@[simp] theorem withoutTimer_clock :
    player.withoutTimer.timeline.clock = player.timeline.clock := by
  unfold withoutTimer
  split
  · rfl
  · dsimp only
    unfold Timeline.cancel
    split <;> rfl

variable {player} in
theorem withoutTimer_of_none (free : player.timer = none) : player.withoutTimer = player := by
  unfold withoutTimer
  rw [free]

end

@[spec]
theorem cancelTimer_spec (promise : Promise τ σ χ Unit) :
    ⦃fun player => promise.1 () player.withoutTimer⦄ cancelTimer ⦃promise⦄ := by
  intro player
  exact SPred.entails.rfl

@[spec]
theorem clearLog_spec (promise : Promise τ σ χ Unit) :
    ⦃fun player => promise.1 () { player with log := [] }⦄ clearLog ⦃promise⦄ := by
  intro player
  exact SPred.entails.rfl

/-! ## Events -/

/-- Listeners that only listen: a notification changes nothing but the audience. -/
def Stage.Quiet (stage : Stage τ σ χ) : Prop :=
  ∀ notification player, ∃ audience, stage.notify notification player = { player with audience }

theorem Stage.quiet_silent (graph : Graph) (options : Options) (oracle : Oracle σ) :
    (Stage.silent graph options oracle : Stage τ σ χ).Quiet :=
  fun _ player => ⟨player.audience, rfl⟩

section

variable {stage : Stage τ σ χ} {event : Event}

theorem exists_logging_run (quiet : stage.Quiet) (entries : List (Entry τ))
    (player : Player τ σ χ) :
    ∃ audience, (forIn entries PUnit.unit fun entry _ => (do
        modify fun player => { player with log := player.log ++ [entry] }
        announce stage (.entry entry)
        pure (ForInStep.yield PUnit.unit) : Play τ σ χ (ForInStep PUnit))).run player =
      (.ok PUnit.unit, { player with log := player.log ++ entries, audience }) := by
  induction entries generalizing player with
  | nil =>
      refine ⟨player.audience, ?_⟩
      rw [List.append_nil]
      rfl
  | cons entry rest induction =>
      rcases quiet (.entry entry) { player with log := player.log ++ [entry] } with
        ⟨audience, told⟩
      rcases induction { player with log := player.log ++ [entry], audience } with
        ⟨audience, logged⟩
      simp only [List.append_assoc, List.singleton_append] at logged
      refine ⟨audience, ?_⟩
      rw [List.forIn_cons]
      have first : (do
          modify fun player => { player with log := player.log ++ [entry] }
          announce stage (.entry entry)
          pure (ForInStep.yield PUnit.unit) : Play τ σ χ (ForInStep PUnit)).run player =
            (.ok (.yield PUnit.unit), _) := congrArg (Prod.mk _) told
      rw [run_bind_of_ok first]
      exact logged

theorem exists_dispatch_run (quiet : stage.Quiet) (player : Player τ σ χ) {state : State}
    {entries : List (Entry τ)} {memory : σ}
    (moved : transition stage.oracle stage.options stage.graph player.timeline.clock player.state
      player.memory event = .ok (state, entries, memory)) :
    ∃ audience, (dispatch stage event).run player =
      (.ok (), { player with state, memory, log := player.log ++ entries, audience }) := by
  rcases exists_logging_run quiet entries { player with state, memory } with ⟨audience, logged⟩
  rcases quiet (.state state)
    { player with state, memory, log := player.log ++ entries, audience } with ⟨audience', told⟩
  refine ⟨audience', ?_⟩
  unfold dispatch
  rw [run_bind_of_ok (get_run player)]
  simp only [moved]
  have stored : (set { player with state, memory } : Play τ σ χ Unit).run player =
      (.ok (), { player with state, memory }) := rfl
  rw [run_bind_of_ok stored, run_bind_of_ok logged]
  exact congrArg (Prod.mk _) told

/-- An event leads to the state, the entries and the memory of the transition. At a fault the
player stays as it was. -/
theorem dispatch_spec (quiet : stage.Quiet) {before after failed : Player τ σ χ → Prop}
    (moves : ∀ player state entries memory audience, before player →
      transition stage.oracle stage.options stage.graph player.timeline.clock player.state
        player.memory event = .ok (state, entries, memory) →
      after { player with state, memory, log := player.log ++ entries, audience })
    (stays : ∀ player fault, before player →
      transition stage.oracle stage.options stage.graph player.timeline.clock player.state
        player.memory event = .error fault → failed player) :
    ⦃fun player => ⌜before player⌝⦄
    dispatch stage event
    ⦃post⟨fun _ player => ⌜after player⌝, fun _ player => ⌜failed player⌝⟩⦄ := by
  intro player holds
  rw [wp_eq_run]
  cases moved : transition stage.oracle stage.options stage.graph player.timeline.clock
    player.state player.memory event with
  | error fault =>
      rw [dispatch_run_of_error player moved]
      exact stays player fault holds moved
  | ok result =>
      rcases exists_dispatch_run quiet player moved with ⟨audience, ran⟩
      rw [ran]
      exact moves player _ _ _ audience holds moved

end

/-! ## Driving -/

section

variable [Zero τ] [ClockTime τ] [LE τ] [DecidableLE τ] [LT τ] [DecidableLT τ] [IntCast τ]
variable {stage : Stage τ σ χ} {limit : Nat} {controls : List (Control τ)} {control : Control τ}
variable {index : Nat}

theorem step_rule {before after : Player τ σ χ → Prop}
    (starts : ⦃fun player => ⌜before player ∧ player.state.phase = .notStarted⌝⦄
      (do clearLog; dispatch stage (.start true) : Play τ σ χ Unit)
      ⦃leaves after⦄)
    (ends : ∀ player, before player → player.state.phase = .completed → after player)
    (ticks : ⦃fun player => ⌜before player ∧ ¬player.state.Idle⌝⦄
      (do dispatch stage .tick; if (← get).state.phase = .running then schedule :
        Play τ σ χ Unit)
      ⦃leaves after⦄) :
    ⦃fun player => ⌜before player⌝⦄ step stage ⦃leaves after⦄ := by
  intro player holds
  rw [wp_eq_run, step, run_bind_of_ok (get_run player), ← wp_eq_run]
  cases phase : player.state.phase with
  | notStarted => exact starts player ⟨holds, phase⟩
  | completed => exact ends player holds phase
  | running | paused | other => exact ticks player ⟨holds, by simp [State.Idle, phase]⟩

/-- Setting the timer of the next step keeps what cancelling a timer keeps, and setting one for a
player that has none. -/
theorem schedule_rule {holds : Player τ σ χ → Prop}
    (cancels : ∀ player, holds player → holds player.withoutTimer)
    (sets : ∀ player id timeline, holds player → player.timer = none →
      player.timeline.set (player.state.speed : τ) () = .ok (id, timeline) →
      holds { player with timeline, timer := some id }) :
    ⦃fun player : Player τ σ χ => ⌜holds player⌝⦄ schedule ⦃leaves holds⦄ := by
  mvcgen [schedule]
  · rename_i player given _
    have idle := cancels player given
    cases isSet : player.withoutTimer.timeline.set (player.withoutTimer.state.speed : τ) () with
    | error error => exact idle
    | ok next => exact sets _ _ _ idle (withoutTimer_timer player) isSet
  · rename_i player given _
    exact cancels player given

theorem drive_take_succ (found : controls[index]? = some control) (player : Player τ σ χ) :
    drive stage limit (controls.take (index + 1)) player =
      ((perform stage limit control).run (drive stage limit (controls.take index) player)).2 := by
  rw [drive, List.take_add_one, found, List.foldl_append]
  rfl

theorem drive_induction {player : Player τ σ χ} {holds : Player τ σ χ → Prop}
    (initially : holds player)
    (step : ∀ index control, controls[index]? = some control →
      holds (drive stage limit (controls.take index) player) →
        holds (drive stage limit (controls.take (index + 1)) player)) (count : Nat) :
    holds (drive stage limit (controls.take count) player) := by
  induction count with
  | zero => exact initially
  | succ index induction =>
      cases found : controls[index]? with
      | none =>
          rw [List.take_add_one, found, Option.toList_none, List.append_nil]
          exact induction
      | some control => exact step index control found induction

end

end Flowchart.Player
