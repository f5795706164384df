import Flowchart.Proofs.Player.Kept
import Flowchart.Proofs.Player.Pace
import Flowchart.Proofs.Walk.Speeds

/-!
Players that are driven by moves of the clock and new speeds only.

Between a start and its end a walk then takes its steps in one row of beats, however the time is cut
into moves of the clock. With an oracle that answers and at speeds that are positive no move of the
clock fails, if the clock may run about as many timers as it counts units of time.
-/

namespace Flowchart

namespace Player

open Walk

section

variable {τ σ χ : Type} [AddCommMonoid τ] [LinearOrder τ] [IntCast τ]
variable {stage : Stage τ σ χ} {player after last : Player τ σ χ} {beat : Beat τ σ χ}
variable {limit : Nat}


inductive Course (stage : Stage τ σ χ) (quiet : stage.Quiet) (limit : Nat) :
    Player τ σ χ → List (Control τ) → List (Clockwork.Firing (Player τ σ χ) τ Unit) →
      Player τ σ χ → Prop
  | nil {player : Player τ σ χ} : Course stage quiet limit player [] [] player
  | advance {player middle last : Player τ σ χ} {duration : τ} {controls : List (Control τ)}
      {first second : List (Clockwork.Firing (Player τ σ χ) τ Unit)}
      (performed : (perform stage limit (.advance duration)).run player =
        (.ok (.count first.length), middle))
      (advances : (clockwork stage quiet).Advances duration player first middle)
      (rest : Course stage quiet limit middle controls second last) :
      Course stage quiet limit player (.advance duration :: controls) (first ++ second) last
  | setSpeed {player middle last : Player τ σ χ} {speed : Number} {set : Int}
      {controls : List (Control τ)} {ran : List (Clockwork.Firing (Player τ σ χ) τ Unit)}
      (performed : (perform stage limit (.setSpeed speed)).run player = (.ok (.speed set), middle))
      (rest : Course stage quiet limit middle controls ran last) :
      Course stage quiet limit player (.setSpeed speed :: controls) ran last

theorem exists_setSpeed_run (quiet : stage.Quiet) (limit : Nat) (speed : Number)
    (player : Player τ σ χ) :
    ∃ audience, (perform stage limit (.setSpeed speed)).run player =
      (.ok (.speed (stage.options.clamp speed)), { player with
        state := { player.state with speed := stage.options.clamp speed }, audience }) := by
  have moved : transition stage.oracle stage.options stage.graph player.timeline.clock player.state
      player.memory (.setSpeed (some speed)) =
        .ok ({ player.state with speed := stage.options.clamp speed }, [], player.memory) := rfl
  obtain ⟨audience, dispatched⟩ := exists_dispatch_run quiet player moved
  rw [List.append_nil] at dispatched
  have isSet : (setSpeed stage speed).run player = (.ok (stage.options.clamp speed), _) :=
    run_bind_of_ok dispatched
  exact ⟨audience, run_bind_of_ok isSet⟩

theorem Awaits.setSpeed (awaits : Awaits beat player) (speed : Int) (audience : χ) :
    Awaits beat { player with state := { player.state with speed }, audience } where
  attended := awaits.attended
  state := by
    obtain ⟨_, same⟩ := awaits.state
    exact ⟨speed, by rw [same]⟩
  log := awaits.log
  memory := awaits.memory
  due := awaits.due
  notPast := awaits.notPast

variable {controls : List (Control τ)} {ran : List (Clockwork.Firing (Player τ σ χ) τ Unit)}

theorem Course.drive_eq {quiet : stage.Quiet}
    (course : Course stage quiet limit player controls ran last) :
    drive stage limit controls player = last := by
  induction course with
  | nil => rfl
  | advance performed _ _ induction | setSpeed performed _ induction =>
      rw [drive, List.foldl_cons, performed]
      exact induction

variable [IsOrderedAddMonoid τ]

theorem Awaits.course (quiet : stage.Quiet) (awaits : Awaits beat player)
    (course : Course stage quiet limit player controls ran last) :
    ∃ final, Beats stage beat (ran.map beatOf) final ∧ Awaits final last := by
  induction course generalizing beat with
  | nil => exact ⟨beat, .nil, awaits⟩
  | advance _ advances _ induction =>
      obtain ⟨middle, inRow, awaitsThen⟩ := awaits.reaches quiet advances
      obtain ⟨final, inRowThen, awaitsLast⟩ := induction awaitsThen
      rw [List.map_append]
      exact ⟨final, inRow.append inRowThen, awaitsLast⟩
  | @setSpeed player _ _ speed _ _ _ performed _ induction =>
      obtain ⟨audience, isSet⟩ := exists_setSpeed_run quiet limit speed player
      cases performed.symm.trans isSet
      exact induction (awaits.setSpeed _ audience)

/-- After a start all steps follow one another, however the time is cut into moves of the clock. -/
theorem exists_beats_of_course (quiet : stage.Quiet) {memory : σ} {audience : χ}
    {earlier : List (Control τ)} {started : Player τ σ χ}
    (driven : drive stage limit earlier (initial stage.options memory audience) = player)
    (stopped : player.state.phase ≠ .running)
    (begun : (perform stage limit .start).run player = (.ok .nothing, started))
    (course : Course stage quiet limit started controls ran last) :
    ∃ final, Beats stage ⟨player.timeline.clock, started⟩ (ran.map beatOf) final ∧
      Awaits final last := by
  have attended : player.IsAttended :=
    driven ▸ drive_attended quiet limit earlier (isAttended_initial _ _ _)
  have starts : (start stage).run player = (.ok (), started) := by
    rcases ran : (start stage).run player with ⟨fault | _, after⟩
    · cases (run_bind_of_error ran).symm.trans begun
    · cases (run_bind_of_ok ran).symm.trans begun
      rfl
  exact (awaits_of_start quiet attended stopped starts).course quiet course

end

/-! ## Courses that do not fail -/

variable {τ σ χ : Type} [Ring τ] [LinearOrder τ] [IsStrictOrderedRing τ]
variable {stage : Stage τ σ χ} {player : Player τ σ χ} {beat : Beat τ σ χ} {knows : σ → Prop}

theorem exists_fire_of_awaits (quiet : stage.Quiet) (answers : stage.oracle.Answers knows)
    (awaits : Awaits beat player) (remembers : knows player.memory)
    (positive : 1 ≤ player.state.speed) {timer : Timer τ Unit} {popped : Timeline τ Unit}
    {target : τ} (taken : player.timeline.popDue? target = some (timer, popped)) :
    ∃ after, fire stage { player with timeline := popped } = some after ∧ knows after.memory ∧
      1 ≤ after.state.speed := by
  obtain ⟨_, running, _⟩ := awaits.of_popDue? taken
  obtain ⟨next, entries, later, moved, knowing, sameSpeed, _⟩ :=
    exists_tick stage.options stage.graph popped.clock player.state answers remembers
  rw [← sameSpeed] at positive
  have nonneg : 0 ≤ (next.speed : τ) := Int.cast_nonneg (Int.le_trans Int.one_nonneg positive)
  obtain ⟨after, ran, rfl, rfl⟩ := exists_dispatch_schedule_run quiet
    { player with timeline := popped, timer := none } moved fun _ => nonneg
  have ticked := onTimer_run_of_running stage { player with timeline := popped } running
  exact ⟨after, fire_eq_some_iff.mpr (ticked.trans ran), knowing, positive⟩

theorem Awaits.step_le {time : τ} (awaits : Awaits ⟨time, player⟩ player)
    (positive : 1 ≤ player.state.speed) {timer : Timer τ Unit}
    (member : timer ∈ player.timeline.live) : time + 1 ≤ timer.due := by
  have isDue := List.mem_map_of_mem (f := Timer.due) member
  rw [awaits.due] at isDue
  split at isDue
  · rw [List.mem_singleton.mp isDue]
    gcongr
    exact_mod_cast positive
  · cases isDue

/-- The clockwork gets to every time: each step puts the next one off by at least one unit. -/
theorem exists_reaches_of_awaits (quiet : stage.Quiet) (answers : stage.oracle.Answers knows)
    {target : τ} (most : Nat) (awaits : Awaits beat player) (remembers : knows player.memory)
    (positive : 1 ≤ player.state.speed)
    (within : ∀ timer ∈ player.timeline.live, target < timer.due + most) :
    ∃ ran last, (clockwork stage quiet).Reaches target player ran last ∧ ran.length ≤ most ∧
      knows last.memory ∧ 1 ≤ last.state.speed := by
  induction most generalizing beat player with
  | zero =>
      cases taken : player.timeline.popDue? target with
      | none => exact ⟨[], _, .arrives taken, Nat.le_refl 0, remembers, positive⟩
      | some next =>
          obtain ⟨timer, popped⟩ := next
          obtain ⟨_, _, _, _, isLive, _⟩ := awaits.of_popDue? taken
          have later := within timer isLive
          rw [Nat.cast_zero, add_zero] at later
          exact absurd (Timeline.popDue?_eq_some_iff.mp taken).1 (not_le_of_gt later)
  | succ most induction =>
      cases taken : player.timeline.popDue? target with
      | none => exact ⟨[], _, .arrives taken, Nat.zero_le _, remembers, positive⟩
      | some next =>
          obtain ⟨timer, popped⟩ := next
          obtain ⟨_, _, _, onTime, isLive, _⟩ := awaits.of_popDue? taken
          obtain ⟨after, fired, remembersThen, positiveThen⟩ :=
            exists_fire_of_awaits quiet answers awaits remembers positive taken
          obtain ⟨_, awaitsThen⟩ := awaits.fire quiet taken fired
          have later : ∀ other ∈ after.timeline.live, target < other.due + most := by
            intro other member
            have unit : timer.due + 1 ≤ other.due := onTime ▸ awaitsThen.step_le positiveThen member
            calc target < timer.due + (most + 1 : Nat) := within timer isLive
              _ = timer.due + 1 + most := by rw [Nat.cast_succ, add_comm (most : τ), add_assoc]
              _ ≤ other.due + most := by gcongr
          obtain ⟨ran, last, reaches, few, remembersLast, positiveLast⟩ :=
            induction awaitsThen remembersThen positiveThen later
          exact ⟨_, last, .fires taken fired reaches, Nat.succ_le_succ few, remembersLast,
            positiveLast⟩

omit [Ring τ] [LinearOrder τ] [IsStrictOrderedRing τ] in
theorem kept_answering (answers : stage.oracle.Answers knows)
    (least : 1 ≤ stage.options.leastSpeed) :
    Kept stage (· ≠ .running) fun (state : State) (_ : List (Entry τ)) memory =>
      knows memory ∧ 1 ≤ state.speed where
  fresh := by simp
  tick now state log memory next entries later holding ticked := by
    obtain ⟨_, _, _, again, remembers, speed, _⟩ :=
      exists_tick stage.options stage.graph now state answers holding.1
    cases ticked.symm.trans again
    exact ⟨remembers, speed ▸ holding.2⟩
  adjust event adjusts now state log memory next entries later holding moved := by
    cases adjusts with
    | pause =>
        cases moved
        refine ⟨holding.1, ?_⟩
        split <;> exact holding.2
    | resume =>
        cases moved
        refine ⟨holding.1, ?_⟩
        split <;> exact holding.2
    | setSpeed value =>
        cases moved
        exact ⟨holding.1, Int.le_trans least (stage.options.clamp_mem _).1⟩
  start paused now state log memory next entries later holding stopped begun := by
    obtain ⟨speed, same, _⟩ := start_cases begun stopped
    exact ⟨same ▸ holding.1, speed ▸ holding.2⟩
  unstarted state log memory holding _ _ := holding

variable {limit : Nat}

theorem exists_start (quiet : stage.Quiet) (limit : Nat) (stopped : player.state.phase ≠ .running)
    (starts : (stage.graph.find? .start).isSome) (positive : 1 ≤ player.state.speed) :
    ∃ started, (perform stage limit .start).run player = (.ok .nothing, started) ∧
      (start stage).run player = (.ok (), started) ∧ started.memory = player.memory ∧
      started.state.speed = player.state.speed := by
  have stoppedThen : player.withoutTimer.state.phase ≠ .running := by
    rwa [withoutTimer_state]
  cases moved : transition stage.oracle stage.options stage.graph player.withoutTimer.timeline.clock
    player.withoutTimer.state player.withoutTimer.memory (.start false) with
  | error fault =>
      rw [find?_eq_none_of_start moved] at starts
      cases starts
  | ok result =>
      obtain ⟨next, entries, later⟩ := result
      obtain ⟨speed, same, _⟩ := start_cases moved stoppedThen
      rw [withoutTimer_state] at speed
      have nonneg : 0 ≤ (next.speed : τ) :=
        Int.cast_nonneg (speed ▸ Int.le_trans Int.one_nonneg positive)
      obtain ⟨started, ran, isState, isMemory⟩ := exists_dispatch_schedule_run quiet
        { player.withoutTimer with log := [] } moved fun _ => nonneg
      have begun := (start_run_of_stopped stopped).trans ran
      refine ⟨started, run_bind_of_ok begun, begun, ?_, ?_⟩
      · rw [isMemory, same, withoutTimer_memory]
      · rw [isState, speed]

theorem exists_advance_of_awaits (quiet : stage.Quiet) (answers : stage.oracle.Answers knows)
    (awaits : Awaits beat player) (remembers : knows player.memory)
    (positive : 1 ≤ player.state.speed) {duration : τ} (nonneg : 0 ≤ duration)
    (brief : duration + 1 < limit) :
    ∃ ran last, (perform stage limit (.advance duration)).run player =
        (.ok (.count ran.length), last) ∧
      (clockwork stage quiet).Advances duration player ran last ∧ knows last.memory ∧
      1 ≤ last.state.speed := by
  have some : limit ≠ 0 := by
    rintro rfl
    rw [Nat.cast_zero] at brief
    exact absurd brief (not_lt_of_ge (by positivity))
  obtain ⟨most, rfl⟩ := Nat.exists_eq_succ_of_ne_zero some
  have within : ∀ timer ∈ player.timeline.live,
      player.timeline.clock + duration < timer.due + most := by
    intro timer member
    rw [Nat.cast_succ, add_lt_add_iff_right] at brief
    exact add_lt_add_of_le_of_lt (awaits.notPast timer member) brief
  obtain ⟨ran, last, reaches, few, remembersLast, positiveLast⟩ :=
    exists_reaches_of_awaits quiet answers most awaits remembers positive within
  have advanced := (advance_run_eq_iff quiet nonneg).mpr
    ⟨ran, reaches, rfl, Nat.lt_succ_of_le few⟩
  exact ⟨ran, last, run_bind_of_ok advanced, reaches, remembersLast, positiveLast⟩

theorem exists_course (quiet : stage.Quiet) (answers : stage.oracle.Answers knows)
    (least : 1 ≤ stage.options.leastSpeed) (awaits : Awaits beat player)
    (remembers : knows player.memory) (positive : 1 ≤ player.state.speed)
    {controls : List (Control τ)}
    (brief : ∀ control ∈ controls, (∃ speed, control = .setSpeed speed) ∨
      ∃ duration, control = .advance duration ∧ 0 ≤ duration ∧ duration + 1 < limit) :
    ∃ ran last, Course stage quiet limit player controls ran last := by
  induction controls generalizing beat player with
  | nil => exact ⟨[], player, .nil⟩
  | cons control controls induction =>
      obtain ⟨first, others⟩ := List.forall_mem_cons.mp brief
      rcases first with ⟨speed, rfl⟩ | ⟨duration, rfl, nonneg, brief⟩
      · obtain ⟨audience, performed⟩ := exists_setSpeed_run quiet limit speed player
        have positiveThen := Int.le_trans least (stage.options.clamp_mem speed).1
        obtain ⟨ran, last, course⟩ :=
          induction (awaits.setSpeed _ audience) remembers positiveThen others
        exact ⟨ran, last, .setSpeed performed course⟩
      · obtain ⟨first, middle, performed, advances, remembersThen, positiveThen⟩ :=
          exists_advance_of_awaits quiet answers awaits remembers positive nonneg brief
        obtain ⟨_, _, awaitsThen⟩ := awaits.reaches quiet advances
        obtain ⟨second, last, course⟩ := induction awaitsThen remembersThen positiveThen others
        exact ⟨first ++ second, last, .advance performed advances course⟩

theorem exists_course_of_start (quiet : stage.Quiet) (answers : stage.oracle.Answers knows)
    (least : 1 ≤ stage.options.leastSpeed) {memory : σ} (remembers : knows memory) {audience : χ}
    {earlier controls : List (Control τ)}
    (driven : drive stage limit earlier (initial stage.options memory audience) = player)
    (stopped : player.state.phase ≠ .running) (starts : (stage.graph.find? .start).isSome)
    (brief : ∀ control ∈ controls, (∃ speed, control = .setSpeed speed) ∨
      ∃ duration, control = .advance duration ∧ 0 ≤ duration ∧ duration + 1 < limit) :
    ∃ started ran last, (perform stage limit .start).run player = (.ok .nothing, started) ∧
      Course stage quiet limit started controls ran last := by
  have answering : knows player.memory ∧ 1 ≤ player.state.speed :=
    driven ▸ drive_kept quiet (kept_answering answers least) (fun _ => id)
      (fun _ _ _ holding => holding) limit earlier
      ⟨remembers, Int.le_trans least (stage.options.clamp_mem _).1⟩
  have attended : player.IsAttended :=
    driven ▸ drive_attended quiet limit earlier (isAttended_initial _ _ _)
  obtain ⟨started, performed, begun, sameMemory, sameSpeed⟩ :=
    exists_start quiet limit stopped starts answering.2
  obtain ⟨ran, last, course⟩ := exists_course quiet answers least
    (awaits_of_start quiet attended stopped begun) (sameMemory ▸ answering.1)
    (sameSpeed ▸ answering.2) brief
  exact ⟨started, ran, last, performed, course⟩

end Player

end Flowchart
