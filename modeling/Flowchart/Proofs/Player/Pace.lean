import Flowchart.Proofs.Player.Attended
import Flowchart.Proofs.Player.Pieces

/-!
The times of the steps that the timer of a player takes.

A start and a step leave a player that waits for the next step, if the walk is running: its only
timer is due so much later as the speed says that is in force then. Neither a move of the clock that
ends before nor a new speed changes that. So from one step to the next the clock goes on by the
speed that was in force right after the first.
-/

namespace Flowchart

namespace Player

open Walk

variable {τ σ χ : Type}

/-! ## Waiting for the next step -/

structure Beat (τ σ χ : Type) where
  time : τ
  player : Player τ σ χ

def beatOf (firing : Clockwork.Firing (Player τ σ χ) τ Unit) : Beat τ σ χ :=
  ⟨firing.time, firing.after⟩

variable [AddCommMonoid τ] [LinearOrder τ] [IntCast τ]

structure Awaits (beat : Beat τ σ χ) (player : Player τ σ χ) : Prop where
  attended : player.IsAttended
  /-- Of the walk nothing has changed but the speed. -/
  state : ∃ speed, player.state = { beat.player.state with speed }
  log : player.log = beat.player.log
  memory : player.memory = beat.player.memory
  due : player.timeline.live.map Timer.due =
    if player.state.phase = .running then [beat.time + (beat.player.state.speed : τ)] else []
  notPast : ∀ timer ∈ player.timeline.live, player.timeline.clock ≤ timer.due

/-- One beat is the next after another: a step of the walk as the other left it, at whatever speed
was set since, and as much later as the speed says that the other left. -/
structure Follows (stage : Stage τ σ χ) (earlier later : Beat τ σ χ) : Prop where
  running : earlier.player.state.phase = .running
  time : later.time = earlier.time + (earlier.player.state.speed : τ)
  tick : ∃ speed entries,
    transition stage.oracle stage.options stage.graph later.time
        { earlier.player.state with speed } earlier.player.memory .tick =
      .ok (later.player.state, entries, later.player.memory) ∧
    later.player.log = earlier.player.log ++ entries

def waiting (player : Player τ σ χ) : Player τ σ χ :=
  if player.state.phase = .running then
    let (timer, timeline) :=
      player.timeline.setAt (player.timeline.clock + (player.state.speed : τ)) ()
    { player with timeline, timer := some timer }
  else player

@[simp] theorem waiting_state (player : Player τ σ χ) : player.waiting.state = player.state := by
  unfold waiting
  split <;> rfl

@[simp] theorem waiting_memory (player : Player τ σ χ) :
    player.waiting.memory = player.memory := by
  unfold waiting
  split <;> rfl

@[simp] theorem waiting_log (player : Player τ σ χ) : player.waiting.log = player.log := by
  unfold waiting
  split <;> rfl

theorem schedule_run_eq_iff {player after : Player τ σ χ} :
    schedule.run player = (.ok (), after) ↔
      after = player.withoutTimer.waiting ∧
        (player.state.phase = .running → 0 ≤ (player.state.speed : τ)) := by
  have cancelled : (cancelTimer : Play τ σ χ Unit).run player = (.ok (), player.withoutTimer) := rfl
  unfold schedule
  rw [run_bind_of_ok cancelled, run_bind_of_ok (get_run _), ← withoutTimer_state player]
  generalize player.withoutTimer = idle
  unfold waiting
  by_cases running : idle.state.phase = .running
  · rw [if_pos running, if_pos running, Timeline.set]
    by_cases negative : (idle.state.speed : τ) < 0
    · rw [if_pos negative]
      constructor
      · intro ran
        cases ran
      · rintro ⟨_, nonneg⟩
        exact absurd (nonneg running) (not_le_of_gt negative)
    · rw [if_neg negative]
      constructor
      · intro ran
        cases ran
        exact ⟨rfl, fun _ => not_lt.mp negative⟩
      · rintro ⟨rfl, _⟩
        rfl
  · rw [if_neg running, if_neg running]
    constructor
    · intro ran
      cases ran
      exact ⟨rfl, fun isRunning => absurd isRunning running⟩
    · rintro ⟨rfl, _⟩
      rfl

variable {stage : Stage τ σ χ} {player after : Player τ σ χ} {event : Event}

theorem exists_of_dispatch_schedule (quiet : stage.Quiet) (player : Player τ σ χ)
    (free : player.timer = none)
    (ran : (do dispatch stage event; schedule : Play τ σ χ Unit).run player = (.ok (), after)) :
    ∃ state entries memory audience,
      transition stage.oracle stage.options stage.graph player.timeline.clock player.state
        player.memory event = .ok (state, entries, memory) ∧
      after = ({ player with state, memory, log := player.log ++ entries, audience } :
        Player τ σ χ).waiting ∧
      (state.phase = .running → 0 ≤ (state.speed : τ)) := by
  cases moved : transition stage.oracle stage.options stage.graph player.timeline.clock
    player.state player.memory event with
  | error fault =>
      rw [run_bind_of_error (dispatch_run_of_error player moved)] at ran
      cases ran
  | ok result =>
      obtain ⟨state, entries, memory⟩ := result
      obtain ⟨audience, dispatched⟩ := exists_dispatch_run quiet player moved
      have still : Player.withoutTimer { player with
          state, memory, log := player.log ++ entries, audience } = _ := withoutTimer_of_none free
      rw [run_bind_of_ok dispatched, schedule_run_eq_iff, still] at ran
      exact ⟨state, entries, memory, audience, rfl, ran⟩

theorem exists_dispatch_schedule_run (quiet : stage.Quiet) (player : Player τ σ χ)
    {state : State} {entries : List (Entry τ)} {memory : σ}
    (moved : transition stage.oracle stage.options stage.graph player.timeline.clock player.state
      player.memory event = .ok (state, entries, memory))
    (nonneg : state.phase = .running → 0 ≤ (state.speed : τ)) :
    ∃ after, (do dispatch stage event; schedule : Play τ σ χ Unit).run player = (.ok (), after) ∧
      after.state = state ∧ after.memory = memory := by
  obtain ⟨audience, dispatched⟩ := exists_dispatch_run quiet player moved
  refine ⟨_, (run_bind_of_ok dispatched).trans (schedule_run_eq_iff.mpr ⟨rfl, nonneg⟩), ?_⟩
  rw [waiting_state, waiting_memory]
  exact ⟨withoutTimer_state _, withoutTimer_memory _⟩

theorem start_run_of_stopped (stopped : player.state.phase ≠ .running) :
    (start stage).run player = (do dispatch stage (.start false); schedule :
      Play τ σ χ Unit).run { player.withoutTimer with log := [] } := by
  rw [start, run_bind_of_ok (get_run player), if_pos stopped]
  rfl

theorem onTimer_run_of_running (stage : Stage τ σ χ) (player : Player τ σ χ)
    (running : player.state.phase = .running) :
    (onTimer stage).run player =
      (do dispatch stage .tick; schedule : Play τ σ χ Unit).run { player with timer := none } := by
  rw [onTimer, run_bind_of_ok (modify_run _ player), run_bind_of_ok (get_run _), if_pos running]

theorem exists_of_fire (quiet : stage.Quiet) (player : Player τ σ χ)
    (running : player.state.phase = .running)
    (fired : fire stage player = some after) :
    ∃ state entries memory audience,
      transition stage.oracle stage.options stage.graph player.timeline.clock player.state
        player.memory .tick = .ok (state, entries, memory) ∧
      after = ({ player with
        timer := none, state, memory, log := player.log ++ entries, audience } :
        Player τ σ χ).waiting ∧
      (state.phase = .running → 0 ≤ (state.speed : τ)) := by
  rw [fire_eq_some_iff, onTimer_run_of_running stage player running] at fired
  exact exists_of_dispatch_schedule quiet { player with timer := none } rfl fired

theorem awaits_waiting [IsOrderedAddMonoid τ] (player : Player τ σ χ) (free : player.timer = none)
    (attended : player.IsAttended)
    (nonneg : player.state.phase = .running → 0 ≤ (player.state.speed : τ)) :
    Awaits ⟨player.timeline.clock, player.waiting⟩ player.waiting := by
  rw [IsAttended, free] at attended
  have noneLive : player.timeline.live = [] := List.map_eq_nil_iff.mp attended.live
  by_cases running : player.state.phase = .running
  · have live := Timeline.live_setAt attended.wellFormed
      (player.timeline.clock + (player.state.speed : τ)) ()
    rw [noneLive, List.perm_singleton] at live
    have is : player.waiting = { player with
        timeline := (player.timeline.setAt (player.timeline.clock + (player.state.speed : τ)) ()).2
        timer := some player.timeline.nextId } := if_pos running
    rw [is]
    refine ⟨attended.setAt _, ⟨_, rfl⟩, rfl, rfl, ?_, ?_⟩
    · rw [live, if_pos running]
      rfl
    · intro timer member
      rw [live, List.mem_singleton] at member
      subst member
      exact le_add_of_nonneg_right (nonneg running)
  · have is : player.waiting = player := if_neg running
    rw [is]
    refine ⟨?_, ⟨_, rfl⟩, rfl, rfl, ?_, ?_⟩
    · rwa [IsAttended, free]
    · rw [noneLive, if_neg running]
      rfl
    · intro timer member
      rw [noneLive] at member
      cases member

/-! ## From beat to beat -/

variable [IsOrderedAddMonoid τ] {beat : Beat τ σ χ} {timer : Timer τ Unit}
variable {popped : Timeline τ Unit} {target : τ}

theorem awaits_of_start (quiet : stage.Quiet) (attended : player.IsAttended)
    (stopped : player.state.phase ≠ .running)
    (started : (start stage).run player = (.ok (), after)) :
    Awaits ⟨player.timeline.clock, after⟩ after := by
  rw [start_run_of_stopped stopped] at started
  obtain ⟨state, entries, memory, audience, _, rfl, nonneg⟩ :=
    exists_of_dispatch_schedule quiet { player.withoutTimer with log := [] }
      (withoutTimer_timer player) started
  have waits := awaits_waiting { player.withoutTimer with
    state, memory, log := [] ++ entries, audience } (withoutTimer_timer player)
    attended.withoutTimer nonneg
  rwa [← withoutTimer_clock player]

omit [IsOrderedAddMonoid τ] in
theorem Awaits.of_popDue? (awaits : Awaits beat player)
    (taken : player.timeline.popDue? target = some (timer, popped)) :
    beat.player.state.phase = .running ∧ player.state.phase = .running ∧
      popped.clock = beat.time + (beat.player.state.speed : τ) ∧ timer.due = popped.clock ∧
      timer ∈ player.timeline.live ∧ Attended popped none := by
  obtain ⟨_, rest, isNext, rfl⟩ := Timeline.popDue?_eq_some_iff.mp taken
  rcases Timeline.next?_eq awaits.attended.wellFormed with
    ⟨idle, _⟩ | ⟨_, _, again, _, live⟩
  · cases isNext.symm.trans idle
  · cases isNext.symm.trans again
    have isLive : timer ∈ player.timeline.live := live ▸ List.mem_cons_self
    have onTime : max player.timeline.clock timer.due = timer.due :=
      max_eq_right (awaits.notPast timer isLive)
    have due := awaits.due
    rw [live] at due
    obtain ⟨speed, state⟩ := awaits.state
    split at due
    · rename_i running
      refine ⟨by rwa [state] at running, running, ?_, onTime.symm, isLive,
        (awaits.attended.next? isNext).withClock _⟩
      exact onTime.trans (List.cons.inj due).1
    · cases due

theorem Awaits.fire (quiet : stage.Quiet) (awaits : Awaits beat player)
    (taken : player.timeline.popDue? target = some (timer, popped))
    (fired : fire stage { player with timeline := popped } = some after) :
    Follows stage beat ⟨popped.clock, after⟩ ∧ Awaits ⟨popped.clock, after⟩ after := by
  obtain ⟨runningThen, running, onTime, _, _, attended⟩ := awaits.of_popDue? taken
  obtain ⟨state, entries, memory, audience, moved, rfl, nonneg⟩ :=
    exists_of_fire quiet { player with timeline := popped } running fired
  refine ⟨⟨runningThen, onTime, ?_⟩, awaits_waiting { player with
    timeline := popped, timer := none, state, memory, log := player.log ++ entries, audience }
    rfl attended nonneg⟩
  obtain ⟨speed, same⟩ := awaits.state
  rw [same, awaits.memory] at moved
  rw [waiting_state, waiting_memory, waiting_log]
  exact ⟨speed, entries, moved, congrArg (· ++ entries) awaits.log⟩

omit [IsOrderedAddMonoid τ] in
theorem Awaits.arrives (awaits : Awaits beat player)
    (noneDue : player.timeline.popDue? target = none) :
    Awaits beat { player with timeline := { player.timeline.cleaned with clock := target } } where
  attended := awaits.attended.cleaned.withClock target
  state := awaits.state
  log := awaits.log
  memory := awaits.memory
  due := Eq.trans (congrArg _ awaits.attended.wellFormed.cleaned.2.1) awaits.due
  notPast := by
    intro timer (member : timer ∈ player.timeline.cleaned.live)
    rw [awaits.attended.wellFormed.cleaned.2.1] at member
    obtain ⟨rest, isNext⟩ := awaits.attended.next?_of_mem member
    exact (Timeline.popDue?_eq_none_iff.mp noneDue timer rest isNext).le

/-! ## Beats in a row -/

inductive Beats (stage : Stage τ σ χ) : Beat τ σ χ → List (Beat τ σ χ) → Beat τ σ χ → Prop
  | nil {beat : Beat τ σ χ} : Beats stage beat [] beat
  | cons {beat next last : Beat τ σ χ} {beats : List (Beat τ σ χ)}
      (follows : Follows stage beat next) (rest : Beats stage next beats last) :
      Beats stage beat (next :: beats) last

omit [LinearOrder τ] [IsOrderedAddMonoid τ] in
theorem Beats.append {first middle last : Beat τ σ χ} {beats more : List (Beat τ σ χ)}
    (inRow : Beats stage first beats middle) (rest : Beats stage middle more last) :
    Beats stage first (beats ++ more) last := by
  induction inRow with
  | nil => exact rest
  | cons follows _ induction => exact .cons follows (induction rest)

variable {ran : List (Clockwork.Firing (Player τ σ χ) τ Unit)} {last : Player τ σ χ}

theorem Awaits.reaches (quiet : stage.Quiet) (awaits : Awaits beat player)
    (reaches : (clockwork stage quiet).Reaches target player ran last) :
    ∃ final, Beats stage beat (ran.map beatOf) final ∧ Awaits final last := by
  induction reaches generalizing beat with
  | arrives noneDue => exact ⟨beat, .nil, awaits.arrives noneDue⟩
  | fires taken fired others induction =>
      obtain ⟨follows, awaitsThen⟩ := awaits.fire quiet taken fired
      obtain ⟨final, inRow, awaitsLast⟩ := induction awaitsThen
      exact ⟨final, .cons follows inRow, awaitsLast⟩

end Player

end Flowchart
