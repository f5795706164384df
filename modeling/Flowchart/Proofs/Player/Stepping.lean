import Flowchart.Player

/-!
Stepping a player through a walk.

A player that is paused and on whose stage nobody listens does nothing at a step but tick. Taking
steps until the walk is completed therefore amounts to a run of ticks: one that ends in a completed
state is found by a player with enough steps, and a size that falls at every tick bounds them.
-/

namespace Flowchart

open Walk

namespace Walk

section

variable {σ τ : Type} (oracle : Oracle σ) (options : Options) (graph : Graph) (now : τ)

def Tick (before after : State × σ) : Prop :=
  ∃ entries, transition oracle options graph now before.1 before.2 .tick =
    .ok (after.1, entries, after.2)

inductive Ticks : Nat → State × σ → State × σ → Prop
  | refl (place : State × σ) : Ticks 0 place place
  | cons {count : Nat} {first second last : State × σ}
      (tick : Tick oracle options graph now first second) (paused : second.1.phase = .paused)
      (rest : Ticks count second last) : Ticks (count + 1) first last

variable {oracle options graph now}

theorem Ticks.trans {left right : Nat} {first second third : State × σ}
    (before : Ticks oracle options graph now left first second)
    (after : Ticks oracle options graph now right second third) :
    Ticks oracle options graph now (left + right) first third := by
  induction before with
  | refl place => simpa using after
  | cons tick paused rest induction =>
      rw [Nat.add_right_comm]
      exact .cons tick paused (induction after)

theorem Ticks.single {first second : State × σ} (tick : Tick oracle options graph now first second)
    (paused : second.1.phase = .paused) : Ticks oracle options graph now 1 first second :=
  .cons tick paused (.refl second)

end

end Walk

namespace Player

variable {τ σ χ : Type}
variable {oracle : Oracle σ} {options : Options} {graph : Graph} {audience : χ}

/-! ## Plays -/

theorem run_bind_of_ok {α β : Type} {first : Play τ σ χ α} {next : α → Play τ σ χ β}
    {player middle : Player τ σ χ} {value : α} (ran : first.run player = (.ok value, middle)) :
    (first >>= next).run player = (next value).run middle := by
  rw [ExceptT.run_bind]
  simp only [bind, StateT.bind]
  rw [ran]

theorem run_bind_of_error {α β : Type} {first : Play τ σ χ α} {next : α → Play τ σ χ β}
    {player middle : Player τ σ χ} {fault : Fault τ}
    (ran : first.run player = (.error fault, middle)) :
    (first >>= next).run player = (.error fault, middle) := by
  rw [ExceptT.run_bind]
  simp only [bind, StateT.bind]
  rw [ran]
  rfl

theorem get_run (player : Player τ σ χ) :
    (get : Play τ σ χ (Player τ σ χ)).run player = (.ok player, player) := rfl

theorem modify_run (change : Player τ σ χ → Player τ σ χ) (player : Player τ σ χ) :
    (modify change : Play τ σ χ Unit).run player = (.ok (), change player) := rfl

theorem logging_run (entries : List (Entry τ)) (player : Player τ σ χ) :
    (forIn entries PUnit.unit fun entry _ => (do
        modify fun player => { player with log := player.log ++ [entry] }
        announce (.silent graph options oracle) (.entry entry)
        pure (ForInStep.yield PUnit.unit) : Play τ σ χ (ForInStep PUnit))).run player =
      (.ok PUnit.unit, { player with log := player.log ++ entries }) := by
  induction entries generalizing player with
  | nil =>
      simp only [List.append_nil]
      rfl
  | cons entry rest induction =>
      have later := induction { player with log := player.log ++ [entry] }
      simp only [List.append_assoc, List.singleton_append] at later
      rw [List.forIn_cons]
      exact later

theorem dispatch_run (player : Player τ σ χ) {event : Event} {state : State}
    {entries : List (Entry τ)} {memory : σ}
    (moved : transition oracle options graph player.timeline.clock player.state player.memory
      event = .ok (state, entries, memory)) :
    (dispatch (.silent graph options oracle) event).run player =
      (.ok (), { player with state, memory, log := player.log ++ entries }) := by
  unfold dispatch
  rw [run_bind_of_ok (get_run player)]
  simp only [Stage.silent, moved]
  have stored : (set { player with state, memory } : Play τ σ χ Unit).run player =
      (.ok (), { player with state, memory }) := rfl
  rw [run_bind_of_ok stored]
  exact run_bind_of_ok (logging_run entries { player with state, memory })

theorem dispatch_run_of_error {stage : Stage τ σ χ} (player : Player τ σ χ) {event : Event}
    {fault : Walk.Fault}
    (failed : transition stage.oracle stage.options stage.graph player.timeline.clock player.state
      player.memory event = .error fault) :
    (dispatch stage event).run player = (.error (.walk fault), player) := by
  unfold dispatch
  rw [run_bind_of_ok (get_run player)]
  simp only [failed]
  rfl

variable [Zero τ] [ClockTime τ] [LE τ] [DecidableLE τ] [LT τ] [DecidableLT τ] [IntCast τ]
variable {player : Player τ σ χ}

theorem step_eq_of_paused (stage : Stage τ σ χ) (paused : player.state.phase = .paused) :
    (step stage).run player =
      (do dispatch stage .tick; if (← get).state.phase = .running then schedule :
        Play τ σ χ Unit).run player := by
  unfold step
  rw [run_bind_of_ok (get_run player)]
  simp only [paused]

theorem step_run_of_paused (paused : player.state.phase = .paused) {place : State × σ}
    (tick : Tick oracle options graph player.timeline.clock (player.state, player.memory) place)
    (still : place.1.phase ≠ .running) :
    ∃ log, (step (.silent graph options oracle)).run player =
      (.ok (), { player with state := place.1, memory := place.2, log }) := by
  rcases tick with ⟨entries, moved⟩
  refine ⟨player.log ++ entries, ?_⟩
  rw [step_eq_of_paused _ paused, run_bind_of_ok (dispatch_run player moved)]
  change ((if place.1.phase = .running then schedule else pure () : Play τ σ χ Unit)).run _ = _
  rw [if_neg still]
  rfl

theorem step_run_of_notStarted (fresh : player.state.phase = .notStarted) {state : State}
    {entries : List (Entry τ)}
    (begins : begin graph player.timeline.clock player.state true = .ok (state, entries)) :
    (step (.silent graph options oracle)).run player =
      (.ok (), { player with state, log := entries }) := by
  have moved : transition oracle options graph player.timeline.clock player.state player.memory
      (.start true) = .ok (state, entries, player.memory) := by
    simp [transition, fresh, begins, Except.map]
  have opened : (step (.silent graph options oracle)).run player =
      (dispatch (.silent graph options oracle) (.start true)).run { player with log := [] } := by
    unfold step
    rw [run_bind_of_ok (get_run player)]
    simp only [fresh]
    rfl
  rw [opened]
  exact dispatch_run { player with log := [] } moved

/-! ## Steps until the walk is completed -/

theorem stepUntilComplete_run_of_completed (limit : Int) (steps : Nat)
    (completed : player.state.phase = .completed) :
    (stepUntilComplete (.silent graph options oracle) limit steps).run player =
      (.ok (), player) := by
  cases steps with
  | zero =>
      change ((if player.state.phase ≠ .completed then throw (.unfinished limit) else pure () :
        Play τ σ χ Unit)).run player = _
      rw [if_neg (by simp [completed])]
      rfl
  | succ steps =>
      change ((if player.state.phase ≠ .completed then _ else pure () :
        Play τ σ χ Unit)).run player = _
      rw [if_neg (by simp [completed])]
      rfl

theorem stepUntilComplete_run_succ (limit : Int) (steps : Nat) {middle : Player τ σ χ}
    (running : player.state.phase ≠ .completed)
    (stepped : (step (.silent graph options oracle)).run player = (.ok (), middle)) :
    (stepUntilComplete (.silent graph options oracle) limit (steps + 1)).run player =
      (stepUntilComplete (.silent graph options oracle) limit steps).run middle := by
  change ((if player.state.phase ≠ .completed then (do
      step (.silent graph options oracle)
      stepUntilComplete (.silent graph options oracle) limit steps) else pure () :
    Play τ σ χ Unit)).run player = _
  rw [if_pos running]
  exact run_bind_of_ok stepped

theorem stepUntilComplete_run_succ_of_error (limit : Int) (steps : Nat) {middle : Player τ σ χ}
    {fault : Fault τ} (running : player.state.phase ≠ .completed)
    (stepped : (step (.silent graph options oracle)).run player = (.error fault, middle)) :
    (stepUntilComplete (.silent graph options oracle) limit (steps + 1)).run player =
      (.error fault, middle) := by
  change ((if player.state.phase ≠ .completed then (do
      step (.silent graph options oracle)
      stepUntilComplete (.silent graph options oracle) limit steps) else pure () :
    Play τ σ χ Unit)).run player = _
  rw [if_pos running]
  exact run_bind_of_error stepped

inductive Ends (done : State × σ → Prop) (faults : Walk.Fault → Prop) :
    Except (Fault τ) Unit × Player τ σ χ → Prop
  | completed {player : Player τ σ χ} (completed : player.state.phase = .completed)
      (isDone : done (player.state, player.memory)) : Ends done faults (.ok (), player)
  | failed {player : Player τ σ χ} {fault : Walk.Fault} (isFault : faults fault) :
      Ends done faults (.error (.walk fault), player)

/-- If a size gets smaller at every tick that neither completes the walk nor fails, a player with
more steps than the size says comes to an end. -/
theorem stepUntilComplete_ends (limit : Int) (holds : Nat → State × σ → Prop)
    (done : State × σ → Prop) (faults : Walk.Fault → Prop) {clock : τ}
    (ticks : ∀ size place, place.1.phase = .paused → holds size place →
      (∃ fault, faults fault ∧
        transition oracle options graph clock place.1 place.2 .tick = .error fault) ∨
      ∃ next, Tick oracle options graph clock place next ∧
        (next.1.phase = .completed ∧ done next ∨
          next.1.phase = .paused ∧ ∃ smaller < size, holds smaller next))
    {size steps : Nat} (enough : size < steps) (sameClock : player.timeline.clock = clock)
    (paused : player.state.phase = .paused) (holding : holds size (player.state, player.memory)) :
    Ends done faults
      ((stepUntilComplete (.silent graph options oracle) limit steps).run player) := by
  induction steps generalizing size player with
  | zero => exact absurd enough (Nat.not_lt_zero size)
  | succ fewer induction =>
      have running : player.state.phase ≠ .completed := by simp [paused]
      cases ticks size _ paused holding with
      | inl failed =>
          rcases failed with ⟨fault, isFault, ticked⟩
          have stepped : (step (.silent graph options oracle)).run player =
              (.error (.walk fault), player) := by
            rw [step_eq_of_paused _ paused]
            exact run_bind_of_error (dispatch_run_of_error player (sameClock ▸ ticked))
          rw [stepUntilComplete_run_succ_of_error limit fewer running stepped]
          exact .failed isFault
      | inr ticked =>
          rcases ticked with ⟨next, tick, ends⟩
          have still : next.1.phase ≠ .running := by
            rcases ends with ⟨completed, _⟩ | ⟨paused, _⟩ <;> simp [*]
          rcases step_run_of_paused paused (sameClock ▸ tick) still with ⟨log, stepped⟩
          rw [stepUntilComplete_run_succ limit fewer running stepped]
          rcases ends with ⟨completed, isDone⟩ | ⟨paused, smaller, falls, holding⟩
          · rw [stepUntilComplete_run_of_completed limit fewer completed]
            exact .completed completed isDone
          · exact induction (Nat.lt_of_lt_of_le falls (Nat.le_of_lt_succ enough)) sameClock paused
              holding

theorem stepUntilComplete_run_of_ticks (limit : Int) {count : Nat} {start last final : State × σ}
    {clock : τ} (ticks : Ticks oracle options graph clock count start last)
    (lastTick : Tick oracle options graph clock last final)
    (completed : final.1.phase = .completed) :
    ∀ (steps : Nat) (player : Player τ σ χ), count < steps → player.timeline.clock = clock →
      player.state = start.1 → player.memory = start.2 → player.state.phase = .paused →
        ∃ log, (stepUntilComplete (.silent graph options oracle) limit steps).run player =
          (.ok (), { player with state := final.1, memory := final.2, log }) := by
  induction ticks with
  | refl place =>
      intro steps player enough sameClock sameState sameMemory paused
      rcases Nat.exists_eq_succ_of_ne_zero (Nat.ne_of_gt enough) with ⟨fewer, rfl⟩
      have tick : Tick oracle options graph player.timeline.clock (player.state, player.memory)
          final := by
        rw [sameClock, sameState, sameMemory]
        exact lastTick
      rcases step_run_of_paused paused tick (by simp [completed]) with ⟨log, stepped⟩
      refine ⟨log, ?_⟩
      rw [stepUntilComplete_run_succ limit fewer (by simp [paused]) stepped]
      exact stepUntilComplete_run_of_completed limit fewer completed
  | cons tick still rest induction =>
      rename_i first second last
      intro steps player enough sameClock sameState sameMemory paused
      rcases Nat.exists_eq_succ_of_ne_zero (Nat.ne_of_gt (Nat.zero_lt_of_lt enough)) with
        ⟨fewer, rfl⟩
      have tick : Tick oracle options graph player.timeline.clock (player.state, player.memory)
          second := by
        rw [sameClock, sameState, sameMemory]
        exact tick
      rcases step_run_of_paused paused tick (by simp [still]) with ⟨log, stepped⟩
      rcases induction lastTick fewer { player with state := second.1, memory := second.2, log }
        (by omega) sameClock rfl rfl still with ⟨finalLog, finished⟩
      refine ⟨finalLog, ?_⟩
      rw [stepUntilComplete_run_succ limit fewer (by simp [paused]) stepped]
      exact finished

theorem runUntilComplete_run_succ (memory : σ) (audience : χ) {limit : Int} {steps : Nat}
    (size : limit.toNat = steps + 1) {state : State} {entries : List (Entry τ)}
    (begins : begin graph (0 : τ) (.initial (options.clamp (.int options.speed))) true =
      .ok (state, entries)) :
    (runUntilComplete (.silent graph options oracle) limit).run
        (initial options memory audience) =
      (stepUntilComplete (.silent graph options oracle) limit steps).run
        { (initial options memory audience : Player τ σ χ) with state, log := entries } := by
  have first : (step (.silent graph options oracle)).run
      (initial options memory audience : Player τ σ χ) =
      (.ok (), { (initial options memory audience : Player τ σ χ) with state, log := entries }) :=
    step_run_of_notStarted rfl begins
  rw [runUntilComplete, size,
    stepUntilComplete_run_succ limit steps (by simp [initial, State.initial]) first]

theorem runUntilComplete_run_of_ticks (memory : σ) (audience : χ) {limit : Int} {count : Nat}
    {state : State} {entries : List (Entry τ)} {last final : State × σ}
    (begins : begin graph (0 : τ) (.initial (options.clamp (.int options.speed))) true =
      .ok (state, entries))
    (paused : state.phase = .paused)
    (ticks : Ticks oracle options graph (0 : τ) count (state, memory) last)
    (lastTick : Tick oracle options graph (0 : τ) last final)
    (completed : final.1.phase = .completed) (enough : (count + 2 : Nat) ≤ limit) :
    ∃ log, (runUntilComplete (.silent graph options oracle) limit).run
        (initial options memory audience) =
      (.ok (), { (initial options memory audience : Player τ σ χ) with
        state := final.1, memory := final.2, log }) := by
  rcases Nat.exists_eq_succ_of_ne_zero (show limit.toNat ≠ 0 by omega) with ⟨steps, size⟩
  rcases stepUntilComplete_run_of_ticks limit ticks lastTick completed steps
    { (initial options memory audience : Player τ σ χ) with state, log := entries }
    (by omega) rfl rfl rfl paused with ⟨log, finished⟩
  exact ⟨log, (runUntilComplete_run_succ memory audience size begins).trans finished⟩

theorem runUntilComplete_run_of_begin (memory : σ) (audience : χ) {limit : Int} {state : State}
    {entries : List (Entry τ)}
    (begins : begin graph (0 : τ) (.initial (options.clamp (.int options.speed))) true =
      .ok (state, entries))
    (completed : state.phase = .completed) (enough : 1 ≤ limit) :
    (runUntilComplete (.silent graph options oracle) limit).run
        (initial options memory audience) =
      (.ok (), { (initial options memory audience : Player τ σ χ) with
        state, log := entries }) := by
  rcases Nat.exists_eq_succ_of_ne_zero (show limit.toNat ≠ 0 by omega) with ⟨steps, size⟩
  rw [runUntilComplete_run_succ memory audience size begins]
  exact stepUntilComplete_run_of_completed limit steps completed

/-! ## Walks that never end -/

theorem stepUntilComplete_run_of_invariant (limit : Int) (holds : State × σ → Prop) {clock : τ}
    (step : ∀ place, holds place → place.1.phase = .paused ∧
      ∃ next, Tick oracle options graph clock place next ∧ holds next) :
    ∀ (steps : Nat) (player : Player τ σ χ), player.timeline.clock = clock →
      holds (player.state, player.memory) →
        ∃ final, (stepUntilComplete (.silent graph options oracle) limit steps).run player =
          (.error (.unfinished limit), final) := by
  intro steps
  induction steps with
  | zero =>
      intro player sameClock holding
      refine ⟨player, ?_⟩
      change ((if player.state.phase ≠ .completed then throw (.unfinished limit) else pure () :
        Play τ σ χ Unit)).run player = _
      have paused : player.state.phase = .paused := (step _ holding).1
      rw [if_pos (by simp [paused])]
      rfl
  | succ steps induction =>
      intro player sameClock holding
      rcases step _ holding with ⟨paused, next, tick, still⟩
      have stillPaused := (step next still).1
      rcases step_run_of_paused paused (sameClock ▸ tick) (by simp [stillPaused]) with
        ⟨log, stepped⟩
      rcases induction { player with state := next.1, memory := next.2, log } sameClock still with
        ⟨final, ran⟩
      refine ⟨final, ?_⟩
      have running : player.state.phase ≠ .completed := by
        rw [show player.state.phase = .paused from paused]
        simp
      rw [stepUntilComplete_run_succ limit steps running stepped]
      exact ran

/-- Whatever the number of steps, a walk that stays in a set of paused states is not completed. -/
theorem runUntilComplete_run_of_invariant (memory : σ) (audience : χ) (limit : Int)
    (holds : State × σ → Prop) {state : State} {entries : List (Entry τ)}
    (begins : begin graph (0 : τ) (.initial (options.clamp (.int options.speed))) true =
      .ok (state, entries))
    (initially : holds (state, memory))
    (step : ∀ place, holds place → place.1.phase = .paused ∧
      ∃ next, Tick oracle options graph (0 : τ) place next ∧ holds next) :
    ∃ final : Player τ σ χ, (runUntilComplete (.silent graph options oracle) limit).run
      (initial options memory audience) = (.error (.unfinished limit), final) := by
  cases size : limit.toNat with
  | zero =>
      rw [runUntilComplete, size]
      exact ⟨_, rfl⟩
  | succ steps =>
      rw [runUntilComplete_run_succ memory audience size begins]
      exact stepUntilComplete_run_of_invariant limit holds step steps _ rfl initially

end Player

end Flowchart
