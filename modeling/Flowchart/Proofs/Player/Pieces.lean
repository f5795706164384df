import Flowchart.Proofs.Player.Plays
import Flowchart.Proofs.Timeline.Clockwork

/-!
Moves of the clock of a player.

What the timer of a player does may be anything that leaves the clock alone, as long as listeners
only listen. So a player is a clockwork: a move of its clock comes to an end exactly if the
clockwork does so with fewer timers than the clock may run at once.
-/

namespace Flowchart

namespace Player

open Walk Std.Do

set_option mvcgen.warning false

variable {τ σ χ : Type}

/-! ## The clock stays -/

theorem dispatch_clock {stage : Stage τ σ χ} (quiet : stage.Quiet) (event : Event) (clock : τ) :
    ⦃fun player : Player τ σ χ => ⌜player.timeline.clock = clock⌝⦄
    dispatch stage event
    ⦃leaves fun player => player.timeline.clock = clock⦄ :=
  dispatch_spec quiet (fun _ _ _ _ _ same _ => same) fun _ _ same _ => same

section

variable [Zero τ] [ClockTime τ] [LE τ] [DecidableLE τ] [LT τ] [DecidableLT τ]

theorem clock_of_set {timeline after : Timeline τ Unit} {delay : τ} {id : Nat}
    (isSet : timeline.set delay () = .ok (id, after)) : after.clock = timeline.clock := by
  unfold Timeline.set at isSet
  split at isSet
  · cases isSet
  · split at isSet
    · cases isSet
    · cases isSet
      rfl

variable [IntCast τ]

variable (σ χ) in
theorem schedule_clock (clock : τ) :
    ⦃fun player : Player τ σ χ => ⌜player.timeline.clock = clock⌝⦄
    schedule
    ⦃leaves fun player => player.timeline.clock = clock⦄ := by
  apply schedule_rule
  · intro player same
    rwa [withoutTimer_clock]
  · intro player id timeline same _ isSet
    exact (clock_of_set isSet).trans same

theorem onTimer_clock {stage : Stage τ σ χ} (quiet : stage.Quiet) (clock : τ) :
    ⦃fun player : Player τ σ χ => ⌜player.timeline.clock = clock⌝⦄
    onTimer stage
    ⦃leaves fun player => player.timeline.clock = clock⦄ := by
  have ticks := dispatch_clock quiet .tick clock
  have schedules := schedule_clock σ χ clock
  mvcgen [onTimer, ticks, schedules]

/-! ## The clockwork of a player -/

def fire (stage : Stage τ σ χ) (player : Player τ σ χ) : Option (Player τ σ χ) :=
  match (onTimer stage).run player with
  | (.ok _, after) => some after
  | (.error _, _) => none

theorem fire_eq_some_iff {stage : Stage τ σ χ} {player after : Player τ σ χ} :
    fire stage player = some after ↔ (onTimer stage).run player = (.ok (), after) := by
  unfold fire
  rcases (onTimer stage).run player with ⟨_ | _, next⟩
  · exact ⟨nofun, nofun⟩
  · constructor
    · intro same
      exact congrArg (Prod.mk _) (Option.some.inj same)
    · intro same
      exact congrArg some (Prod.mk.inj same).2

def clockwork (stage : Stage τ σ χ) (quiet : stage.Quiet) :
    Clockwork (Player τ σ χ) τ Unit where
  timeline player := player.timeline
  withTimeline player timeline := { player with timeline }
  fire _ player := fire stage player
  timeline_withTimeline _ _ := rfl
  withTimeline_withTimeline _ _ _ := rfl
  clock_of_fire := by
    intro _ player after fired
    have left := run_of_triple (onTimer_clock quiet player.timeline.clock) rfl
    rwa [fire_eq_some_iff.mp fired] at left

end

/-! ## Moves of the clock -/

section

variable [LinearOrder τ] [Zero τ] [ClockTime τ] [IntCast τ] {stage : Stage τ σ χ}
variable (quiet : stage.Quiet) {player last : Player τ σ χ} {target : τ} {limit count total : Nat}
variable {ran : List (Clockwork.Firing (Player τ σ χ) τ Unit)}

theorem runDue_run_of_fire {timer : Timer τ Unit} {popped : Timeline τ Unit}
    {after : Player τ σ χ} (taken : player.timeline.popDue? target = some (timer, popped))
    (fired : fire stage { player with timeline := popped } = some after) :
    (runDue stage target count (limit + 1)).run player =
      (runDue stage target (count + 1) limit).run after := by
  rw [runDue, run_bind_of_ok (get_run player), taken]
  dsimp only
  rw [run_bind_of_ok (modify_run _ player)]
  exact run_bind_of_ok (fire_eq_some_iff.mp fired)

theorem runDue_run_of_fault {timer : Timer τ Unit} {popped : Timeline τ Unit} {fault : Fault τ}
    {after : Player τ σ χ} (taken : player.timeline.popDue? target = some (timer, popped))
    (ticked : (onTimer stage).run { player with timeline := popped } = (.error fault, after)) :
    (runDue stage target count (limit + 1)).run player = (.error fault, after) := by
  rw [runDue, run_bind_of_ok (get_run player), taken]
  dsimp only
  rw [run_bind_of_ok (modify_run _ player)]
  exact run_bind_of_error ticked

theorem runDue_run_of_none (noneDue : player.timeline.popDue? target = none) :
    (runDue stage target count (limit + 1)).run player =
      (.ok count, { player with timeline := player.timeline.cleaned }) := by
  rw [runDue, run_bind_of_ok (get_run player), noneDue]
  rfl

theorem exists_reaches_of_runDue
    (ended : (runDue stage target count limit).run player = (.ok total, last)) :
    ∃ ran, (clockwork stage quiet).Reaches target player ran
        ((clockwork stage quiet).withClock last target) ∧
      total = count + ran.length ∧ ran.length < limit := by
  induction limit generalizing count player with
  | zero => cases ended
  | succ limit induction =>
      cases taken : player.timeline.popDue? target with
      | none =>
          rw [runDue_run_of_none taken] at ended
          cases ended
          exact ⟨[], .arrives taken, rfl, Nat.succ_pos limit⟩
      | some next =>
          obtain ⟨timer, popped⟩ := next
          rcases ticked : (onTimer stage).run { player with timeline := popped } with
            ⟨fault | _, after⟩
          · rw [runDue_run_of_fault taken ticked] at ended
            cases ended
          · have fired := fire_eq_some_iff.mpr ticked
            rw [runDue_run_of_fire taken fired] at ended
            obtain ⟨ran, reaches, rfl, within⟩ := induction ended
            refine ⟨_, .fires taken fired reaches, ?_, Nat.succ_lt_succ within⟩
            rw [List.length_cons, Nat.add_right_comm, Nat.add_assoc]

theorem exists_runDue_of_reaches (reaches : (clockwork stage quiet).Reaches target player ran last)
    (count : Nat) (within : ran.length < limit) :
    ∃ stopped, (runDue stage target count limit).run player =
        (.ok (count + ran.length), stopped) ∧
      last = (clockwork stage quiet).withClock stopped target := by
  induction reaches generalizing count limit with
  | @arrives player noneDue =>
      obtain ⟨limit, rfl⟩ := Nat.exists_eq_succ_of_ne_zero (Nat.ne_of_gt within)
      exact ⟨_, runDue_run_of_none noneDue, rfl⟩
  | @fires player after last timer popped ran taken fired others induction =>
      obtain ⟨limit, rfl⟩ := Nat.exists_eq_succ_of_ne_zero (Nat.ne_of_gt (Nat.zero_lt_of_lt within))
      obtain ⟨stopped, ended, rfl⟩ := induction (count + 1) (Nat.lt_of_succ_lt_succ within)
      refine ⟨stopped, ?_, rfl⟩
      rw [runDue_run_of_fire taken fired, ended, List.length_cons, Nat.add_right_comm,
        Nat.add_assoc]

end

variable [AddCommMonoid τ] [LinearOrder τ] [IntCast τ] {stage : Stage τ σ χ}
variable (quiet : stage.Quiet) {player last : Player τ σ χ} {limit total : Nat} {duration more : τ}

theorem advance_run_of_nonneg (nonneg : 0 ≤ duration) :
    (advance stage limit duration).run player =
      (do
        let count ← runDue stage (player.timeline.clock + duration) 0 limit
        modify fun after => { after with
          timeline := { after.timeline with clock := player.timeline.clock + duration } }
        return count : Play τ σ χ Nat).run player := by
  have target : player.timeline.target duration = .ok (player.timeline.clock + duration) := by
    rw [Timeline.target, if_neg (not_lt_of_ge nonneg)]
    rfl
  rw [advance, run_bind_of_ok (get_run player), target]
  rfl

/-- The clock gets to its target, and counts the timers that ran, exactly if the clockwork gets
there with fewer timers than the clock may run at once. -/
theorem advance_run_eq_iff (nonneg : 0 ≤ duration) :
    (advance stage limit duration).run player = (.ok total, last) ↔
      ∃ ran, (clockwork stage quiet).Advances duration player ran last ∧ total = ran.length ∧
        ran.length < limit := by
  rw [advance_run_of_nonneg nonneg]
  constructor
  · intro ended
    rcases dueRun : (runDue stage (player.timeline.clock + duration) 0 limit).run player with
      ⟨fault | count, stopped⟩
    · rw [run_bind_of_error dueRun] at ended
      cases ended
    · rw [run_bind_of_ok dueRun, run_bind_of_ok (modify_run _ _)] at ended
      cases ended
      obtain ⟨ran, reaches, counted, within⟩ := exists_reaches_of_runDue quiet dueRun
      exact ⟨ran, reaches, counted.trans (Nat.zero_add _), within⟩
  · rintro ⟨ran, reaches, rfl, within⟩
    obtain ⟨stopped, dueRun, rfl⟩ := exists_runDue_of_reaches quiet reaches 0 within
    have dueRun : (runDue stage (player.timeline.clock + duration) 0 limit).run player =
        (.ok ran.length, stopped) := by rwa [Nat.zero_add] at dueRun
    rw [run_bind_of_ok dueRun, run_bind_of_ok (modify_run _ _)]
    rfl

include quiet in
/-- Moving the clock of a player in two pieces is moving it at once, as far as the clock gets to its
target at all: the same player is left, and the counts add up. -/
theorem exists_advance_add_iff [IsOrderedAddMonoid τ] (nonneg : 0 ≤ duration)
    (nonnegMore : 0 ≤ more) :
    (∃ limit, (advance stage limit (duration + more)).run player = (.ok total, last)) ↔
      ∃ limit first second middle, total = first + second ∧
        (advance stage limit duration).run player = (.ok first, middle) ∧
        (advance stage limit more).run middle = (.ok second, last) := by
  simp only [advance_run_eq_iff quiet (add_nonneg nonneg nonnegMore),
    advance_run_eq_iff quiet nonneg, advance_run_eq_iff quiet nonnegMore]
  constructor
  · rintro ⟨limit, ran, advances, rfl, within⟩
    obtain ⟨first, second, middle, rfl, advancesFirst, advancesSecond⟩ :=
      (Clockwork.advances_add_iff nonneg nonnegMore).mp advances
    rw [List.length_append] at within
    exact ⟨limit, first.length, second.length, middle, List.length_append,
      ⟨first, advancesFirst, rfl, by omega⟩, ⟨second, advancesSecond, rfl, by omega⟩⟩
  · rintro ⟨limit, _, _, middle, rfl, ⟨first, advancesFirst, rfl, _⟩,
      ⟨second, advancesSecond, rfl, _⟩⟩
    refine ⟨first.length + second.length + 1, first ++ second, ?_, List.length_append.symm, ?_⟩
    · exact (Clockwork.advances_add_iff nonneg nonnegMore).mpr
        ⟨first, second, middle, rfl, advancesFirst, advancesSecond⟩
    · rw [List.length_append]
      exact Nat.lt_succ_self _

end Player

end Flowchart
