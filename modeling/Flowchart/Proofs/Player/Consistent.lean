import Flowchart.Proofs.Graph.Cycles
import Flowchart.Proofs.Player.Kept
import Flowchart.Proofs.Walk.Speeds

/-!
Players are consistent however they are driven.

All controls lead a player from one reached state to another, also where they fail. So its state and
its log agree after each of them, and its speed lies within the limits.
-/

namespace Flowchart.Player

open Walk

variable {τ σ χ : Type}

structure Reachable (stage : Stage τ σ χ) (state : State) (log : List (Entry τ)) : Prop where
  reached : Reached stage.oracle stage.options stage.graph state log
  speed : ∃ value, state.speed = stage.options.clamp value

theorem kept_reachable (stage : Stage τ σ χ) :
    Kept stage (· ≠ .running) fun state log _ => Reachable stage state log where
  fresh := by simp
  tick now state log memory next entries later reachable ticked :=
    ⟨.tick reachable.reached ticked,
      reachable.speed.imp fun _ => (speed_of_tick ticked).trans⟩
  adjust event adjusts now state log memory next entries later reachable moved := by
    refine ⟨.adjust reachable.reached adjusts moved, ?_⟩
    cases adjusts with
    | pause =>
        cases moved
        refine reachable.speed.imp fun _ => Eq.trans ?_
        split <;> rfl
    | resume =>
        cases moved
        refine reachable.speed.imp fun _ => Eq.trans ?_
        split <;> rfl
    | setSpeed value =>
        cases moved
        exact ⟨_, rfl⟩
  start paused now state log memory next entries later reachable stopped begun := by
    refine ⟨.start stopped begun, reachable.speed.imp fun _ => Eq.trans ?_⟩
    rcases start_eq stopped begun with ⟨index, entry, _, _, _, _, rfl, _⟩
    exact State.after_speed ..
  unstarted state log memory reachable _ noStart := by
    have rooted := reachable.reached.rooted
    by_cases fresh : state.phase = .notStarted
    · rwa [rooted.fresh fresh] at reachable
    · have starts := rooted.starts fresh
      rw [noStart] at starts
      cases starts

variable [Zero τ] [ClockTime τ] [LE τ] [DecidableLE τ] [LT τ] [DecidableLT τ] [IntCast τ]

/-- However a player of a built graph is driven, its state agrees with its log, the speed lies
within the limits, and a walk under way stands at a block. -/
theorem drive_consistent (stage : Stage τ σ χ) (quiet : stage.Quiet) (blocks : List Block)
    (functionName : Option String) (isGraph : stage.graph = Graph.ofBlocks blocks functionName)
    (limits : stage.options.leastSpeed ≤ stage.options.greatestSpeed) (memory : σ) (audience : χ)
    (limit : Nat) (controls : List (Control τ)) :
    let player := drive stage limit controls (initial stage.options memory audience)
    Consistent stage.options stage.graph player.state player.log ∧
      (stage.options.leastSpeed ≤ player.state.speed ∧
        player.state.speed ≤ stage.options.greatestSpeed) ∧
      (player.state.phase = .running ∨ player.state.phase = .paused →
        ∃ place block, player.state.current = some place ∧
          stage.graph.block? place = some block) := by
  intro player
  have closed : Closed stage.graph := isGraph ▸ closed_ofBlocks blocks functionName
  have initially : (initial stage.options memory audience : Player τ σ χ).Has
      fun state log _ => Reachable stage state log := ⟨.initial _, ⟨_, rfl⟩⟩
  have reachable : Reachable stage player.state player.log :=
    drive_kept quiet (kept_reachable stage) (fun _ => id)
      (fun state log memory reachable => ⟨.initial _, reachable.speed⟩) limit controls initially
  refine ⟨reachable.reached.consistent, ?_, fun underWay => ?_⟩
  · rcases reachable.speed with ⟨value, isSpeed⟩
    have within := stage.options.clamp_mem value
    rw [Int.max_eq_right limits] at within
    rwa [isSpeed]
  · have goesOn : ¬player.state.Idle := by
      rintro (fresh | completed) <;> simp_all
    have stands := (reachable.reached.grounded closed).stands goesOn
    rcases Option.isSome_iff_exists.mp stands with ⟨block, standsAt⟩
    rcases Option.bind_eq_some_iff.mp standsAt with ⟨place, current, found⟩
    exact ⟨place, block, current, found⟩

def restarted : List (Control Number) :=
  [.start, .advance (.int 1000), .pause, .start, .setSpeed (.int 10), .advance (.int 500),
    .advance (.int 100), .pause, .step]

theorem drive_consistent_restarted :
    let stage : Stage Number Oracle.Adviser Unit :=
      .silent (Graph.ofBlocks [⟨"Start", 0, .start, false, none⟩,
        ⟨"While i", 0, .loop, false, none⟩,
        ⟨"Call f", 1, .call, false, some false⟩, ⟨"End", 0, .stop, true, none⟩]) {} Oracle.advising
    let player := drive stage 10 restarted (initial stage.options (.fixed Oracle.yes 0) ())
    stage.options.leastSpeed ≤ stage.options.greatestSpeed ∧ player.state.phase = .paused ∧
      player.state.path = [0, 1, 2, 1] ∧ player.state.counters = [(1, 2)] ∧
      player.state.speed = 100 ∧ player.state.stack.length = 1 ∧
      Consistent stage.options stage.graph player.state player.log := by
  intro stage player
  have limits : stage.options.leastSpeed ≤ stage.options.greatestSpeed := by decide
  have consistent := drive_consistent stage (Stage.quiet_silent _ _ _) _ none rfl limits
    (.fixed Oracle.yes 0) () 10 restarted
  refine ⟨limits, ?_, ?_, ?_, ?_, ?_, consistent.1⟩ <;> decide +kernel

end Flowchart.Player
