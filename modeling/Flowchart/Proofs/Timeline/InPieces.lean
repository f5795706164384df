import Flowchart.Proofs.Player.Course
import Flowchart.Proofs.Session.Pieces

/-!
A clock moved in pieces, and moved at once.

What runs on the way to a time does not depend on where the clock stops before. This is so of every
clockwork, of sessions whose callbacks only set and cancel timers, and of players; and a walk that
is played takes its steps at times that only the speeds decide.
-/

namespace Flowchart

open TimerCommand

/-- With exact times a move of the clock is any two moves that make it up. The same timers run, in
the same order and at the same times, the counts add up, and what is left is the same:

* for whatever timers do that leaves the clock alone;
* for sessions, whatever they were asked before;
* for players, as far as the clock gets to its target at all.

And a player that is started and then driven by moves of the clock and new speeds takes its steps in
one row: each is as much later than the one before as the speed said that was in force right after
that one, the first counted from the start; and the next one is never past. Where the oracle answers
and speeds are positive, the player can be so driven. -/
theorem advance_in_pieces {τ : Type} [Ring τ] [LinearOrder τ] [IsStrictOrderedRing τ]
    (duration more : τ) (nonneg : 0 ≤ duration) (nonnegMore : 0 ≤ more) :
    (∀ (σ α : Type) (works : Clockwork σ τ α) (state last : σ)
        (ran : List (Clockwork.Firing σ τ α)),
      works.Advances (duration + more) state ran last ↔
        ∃ first second between, ran = first ++ second ∧
          works.Advances duration state first between ∧
          works.Advances more between second last) ∧
    (∀ (total : Nat) (commands : List (TimerCommand τ)) (entries : List (Session.Entry τ))
        (session : Session τ),
      Session.History total (.initial .timeline) commands entries session →
      (∀ asked ∈ commands, asked.setsOnly isOrderly) → sizeAll commands ≤ total →
      ∃ first second middle last,
        session.command total (.advance duration) = (.ok (.count first), middle) ∧
        middle.command total (.advance more) = (.ok (.count second), last) ∧
        session.command total (.advance (duration + more)) =
          (.ok (.count (first + second)), last)) ∧
    (∀ (σ χ : Type) (stage : Player.Stage τ σ χ) (player last : Player τ σ χ) (count : Nat),
      stage.Quiet →
      ((∃ limit, (Player.advance stage limit (duration + more)).run player = (.ok count, last)) ↔
        ∃ limit first second middle, count = first + second ∧
          (Player.advance stage limit duration).run player = (.ok first, middle) ∧
          (Player.advance stage limit more).run middle = (.ok second, last))) ∧
    (∀ (σ χ : Type) (stage : Player.Stage τ σ χ) (quiet : stage.Quiet) (memory : σ) (audience : χ)
        (limit : Nat) (earlier controls : List (Player.Control τ)) (player started : Player τ σ χ),
      Player.drive stage limit earlier (.initial stage.options memory audience) = player →
      player.state.phase ≠ .running →
      (Player.perform stage limit .start).run player = (.ok .nothing, started) →
      ∀ ran last, Player.Course stage quiet limit started controls ran last →
        Player.drive stage limit controls started = last ∧
        ∃ final, Player.Beats stage ⟨player.timeline.clock, started⟩ (ran.map Player.beatOf) final ∧
          Player.Awaits final last) ∧
    (∀ (σ χ : Type) (stage : Player.Stage τ σ χ) (quiet : stage.Quiet) (knows : σ → Prop)
        (memory : σ) (audience : χ) (limit : Nat) (earlier controls : List (Player.Control τ))
        (player : Player τ σ χ),
      stage.oracle.Answers knows → 1 ≤ stage.options.leastSpeed → knows memory →
      (stage.graph.find? .start).isSome →
      Player.drive stage limit earlier (.initial stage.options memory audience) = player →
      player.state.phase ≠ .running →
      (∀ control ∈ controls, (∃ speed, control = .setSpeed speed) ∨
        ∃ time, control = .advance time ∧ 0 ≤ time ∧ time + 1 < limit) →
      ∃ started ran last,
        (Player.perform stage limit .start).run player = (.ok .nothing, started) ∧
        Player.Course stage quiet limit started controls ran last) := by
  refine ⟨?clockworks, ?sessions, ?players, ?pace, ?courses⟩
  case clockworks =>
    intro σ α works state last ran
    exact Clockwork.advances_add_iff nonneg nonnegMore
  case sessions =>
    intro total commands entries session history orderly within
    exact Session.exists_advance_add history orderly within nonneg nonnegMore
  case players =>
    intro σ χ stage player last count quiet
    exact Player.exists_advance_add_iff quiet nonneg nonnegMore
  case pace =>
    intro σ χ stage quiet memory audience limit earlier controls player started driven stopped begun
      ran last course
    exact ⟨course.drive_eq, Player.exists_beats_of_course quiet driven stopped begun course⟩
  case courses =>
    intro σ χ stage quiet knows memory audience limit earlier controls player answers least
      remembers starts driven stopped brief
    exact Player.exists_course_of_start quiet answers least remembers driven stopped starts brief

/-- A callback sets timers for its own time, for a time between the two pieces and for one behind
them, and cancels one that was set before. -/
def Session.cancelling : List (TimerCommand ℤ) :=
  [.set "a" 5 [.set "b" 0 [], .set "c" 6 [], .cancel "d", .set "e" 90 []], .set "d" 7 []]

def Player.slowed : List (Player.Control ℤ) :=
  [.setSpeed (.int 1000), .advance 500, .advance 999, .advance 1]

theorem advance_in_pieces_slowed :
    (∃ entries session first second middle last,
      Session.History 6 (.initial .timeline) Session.cancelling entries session ∧
      session.command 6 (.advance 7) = (.ok (.count first), middle) ∧
      middle.command 6 (.advance 8) = (.ok (.count second), last) ∧
      session.command 6 (.advance (7 + 8)) = (.ok (.count (first + second)), last)) ∧
    ∃ (quiet : (Player.Stage.silent (Graph.ofBlocks Graph.nestedLoops) {} Oracle.advising :
        Player.Stage ℤ Oracle.Adviser Unit).Quiet) (started : Player ℤ Oracle.Adviser Unit)
      (ran : List (Clockwork.Firing (Player ℤ Oracle.Adviser Unit) ℤ Unit))
      (last : Player ℤ Oracle.Adviser Unit) (final : Player.Beat ℤ Oracle.Adviser Unit),
      Player.Course _ quiet 1001 started Player.slowed ran last ∧
      Player.Beats (.silent (Graph.ofBlocks Graph.nestedLoops) {} Oracle.advising) ⟨0, started⟩
        (ran.map Player.beatOf) final ∧
      Player.Awaits final last ∧ last.log.map Walk.Entry.time = [0, 500, 1500] := by
  obtain ⟨_, sessions, _, pace, courses⟩ :=
    advance_in_pieces (7 : ℤ) 8 (by decide) (by decide)
  constructor
  · obtain ⟨entries, session, history⟩ := Session.exists_history Session.cancelling
    obtain ⟨first, second, middle, last, pieces⟩ :=
      sessions _ Session.cancelling entries session history (by decide) (by decide)
    exact ⟨entries, session, first, second, middle, last, history, pieces⟩
  · have quiet : (Player.Stage.silent (Graph.ofBlocks Graph.nestedLoops) {} Oracle.advising :
        Player.Stage ℤ Oracle.Adviser Unit).Quiet := Player.Stage.quiet_silent _ _ _
    have brief : ∀ control ∈ Player.slowed, (∃ speed, control = .setSpeed speed) ∨
        ∃ time, control = .advance time ∧ 0 ≤ time ∧ time + 1 < ((1001 : ℕ) : ℤ) := by
      simp [Player.slowed]
    obtain ⟨started, ran, last, begun, course⟩ := courses _ _ _ quiet (· = .fixed Oracle.yes 0)
      (.fixed Oracle.yes 0) () 1001 [] Player.slowed _ (Oracle.answers_fixed Oracle.yes 0)
      (by decide) rfl (by decide +kernel) rfl (by decide) brief
    obtain ⟨driven, final, inRow, awaits⟩ :=
      pace _ _ _ quiet (.fixed Oracle.yes 0) () 1001 [] Player.slowed _ started rfl (by decide)
        begun ran last course
    refine ⟨quiet, started, ran, last, final, course, inRow, awaits, ?_⟩
    have isStarted : ((Player.perform (Player.Stage.silent (Graph.ofBlocks Graph.nestedLoops) {}
        Oracle.advising) 1001 .start).run (.initial {} (.fixed Oracle.yes 0) ())).2 = started :=
      congrArg Prod.snd begun
    rw [← driven, ← isStarted]
    decide +kernel

end Flowchart
