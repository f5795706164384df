import Flowchart.Proofs.Comparison.TooLong
import Flowchart.Proofs.Player.Consistent
import Flowchart.Proofs.Walk.Calls
import Flowchart.Proofs.Walk.Trail

/-!
Calls and returns in programs without loops.

Every return goes on behind its call and so takes all that follows the call once more. Without loops
a program of `n` blocks still takes fewer than `2 ^ n` steps, after which every call has returned to
where the first edge of the call leads.
-/

namespace Flowchart

open Flowchart.Graph

/-! ## Charts without loops -/

namespace Walk

section

variable {blocks : List Block} (loopFree : ∀ block ∈ blocks, block.kind ≠ .loop)

include loopFree

theorem not_isLoop_of_loopFree (place : Nat) : ¬IsLoop blocks place := by
  intro isLoop
  rcases isLoop_iff.mp isLoop with ⟨block, found, kind⟩
  exact loopFree block (List.mem_of_getElem? found) kind

theorem ne_loopBack_of_loopFree {edge : Edge} (member : edge ∈ (ofBlocks blocks).edges) :
    edge.kind ≠ .loopBack := by
  rcases onward_or_back member (plain_of_mem member) with
    ⟨source, target, _, _, _, _, around | ⟨_, onward⟩⟩
  · exact absurd around.isLoop (not_isLoop_of_loopFree loopFree target)
  · exact onward

theorem firstForward?_of_loopFree (index : Int) :
    firstForward? (ofBlocks blocks) index =
      ((ofBlocks blocks).outgoing index).head?.map Edge.target := by
  have all : (ofBlocks blocks).forward index = (ofBlocks blocks).outgoing index := by
    refine List.filter_eq_self.mpr fun edge outgoing => decide_eq_true ?_
    exact ne_loopBack_of_loopFree loopFree (mem_outgoing.mp outgoing).1
  rw [firstForward?, all]

theorem passable_of_loopFree (ends : EndsWithStop blocks) (owned : Owned blocks none) :
    Passable blocks := by
  refine ⟨ends, owned, fun loop turns => ?_⟩
  rcases turns with ⟨edge, member, back, _⟩
  exact absurd back (ne_loopBack_of_loopFree loopFree member)

theorem returnsSteadily_of_loopFree : ReturnsSteadily blocks :=
  fun _ _ _ _ _ _ loop around => absurd around.isLoop (not_isLoop_of_loopFree loopFree loop)

end

/-! ## Reached states of charts in which there is always somewhere to go -/

section

variable {σ τ : Type} {oracle : Oracle σ} {options : Options} {blocks : List Block}
variable {state : State} {log : List (Entry τ)}

/-- A walk that has started is on its way, or it was completed at an end, outside all calls. -/
theorem Reached.underway_or_finished (passable : Passable blocks)
    (reached : Reached oracle options (ofBlocks blocks) state log) :
    state.phase = .notStarted ∨ Underway blocks state log ∨
      Finished (ofBlocks blocks) state log := by
  induction reached with
  | initial speed => exact .inl rfl
  | @start state next now memory later paused log stopped begun =>
      rw [transition, if_neg stopped] at begun
      cases begins : begin (ofBlocks blocks) now state paused with
      | error fault =>
          rw [begins] at begun
          cases begun
      | ok result =>
          rw [begins] at begun
          cases begun
          exact .inr (.inl (.begin passable begins))
  | tick _ ticked holds =>
      rcases holds with fresh | underway | finished
      · rw [tick_of_idle (.inl fresh)] at ticked
        cases ticked
        exact .inl fresh
      · exact .inr (underway.tick passable ticked)
      · exact .inr (.inr (finished.tick ticked))
  | adjust _ adjusts moved holds =>
      rcases adjusts.exists_eq moved with ⟨rfl, phase, speed, rfl, notStarted, completed⟩
      rw [List.append_nil]
      rcases holds with fresh | underway | finished
      · exact .inl (notStarted.mpr fresh)
      · exact .inr (.inl ⟨fun ended => underway.running (completed.mp ended), underway.stands,
          underway.returns, underway.calls⟩)
      · exact .inr (.inr ⟨completed.mpr finished.completed, finished.exit, finished.outside,
          finished.calls⟩)

theorem Reached.finished (passable : Passable blocks)
    (reached : Reached oracle options (ofBlocks blocks) state log)
    (completed : state.phase = .completed) : Finished (ofBlocks blocks) state log := by
  rcases reached.underway_or_finished passable with fresh | underway | finished
  · cases fresh.symm.trans completed
  · exact absurd completed underway.running
  · exact finished

/-- A completed walk outside all calls, in the log of which calls and returns are brackets. Behind
every return the walk goes on where the first edge of the call leads. -/
structure Bracketed (graph : Graph) (state : State) (log : List (Entry τ)) : Prop where
  completed : state.phase = .completed
  outside : state.stack = []
  balanced : Balanced log
  resumes : ∀ before back after, log = before ++ back :: after → back.action = .return →
    ∃ earlier call inner next later, before = earlier ++ call :: inner ∧ call.action = .call ∧
      Balanced inner ∧ after = next :: later ∧
        (graph.outgoing call.index).head?.map Edge.target = some next.index

theorem Reached.bracketed (ends : EndsWithStop blocks) (owned : Owned blocks none)
    (loopFree : ∀ block ∈ blocks, block.kind ≠ .loop)
    (reached : Reached oracle options (ofBlocks blocks) state log)
    (completed : state.phase = .completed) : Bracketed (ofBlocks blocks) state log := by
  have finished := reached.finished (passable_of_loopFree loopFree ends owned) completed
  have trail := reached.onTrail
  refine ⟨completed, finished.outside, ?_, fun before back after parts returns => ?_⟩
  · rcases trail.calls with ⟨calls, isOpen, remembered⟩
    rw [finished.outside] at remembered
    cases remembered
    cases isOpen with
    | outside balanced => exact balanced
  · cases after with
    | nil =>
        rcases finished.exit with ⟨entry, _, isLast, exits, _⟩
        rw [parts, List.getLast?_concat] at isLast
        cases isLast
        cases returns.symm.trans exits
    | cons next later =>
        cases trail.leads before back next later parts with
        | along goesOn | again goesOn | leave goesOn => exact absurd returns goesOn
        | resume _ _ resumes =>
            cases resumes with
            | behind earlier inner call parts calls balanced _ first =>
                exact ⟨earlier, call, inner, next, later, parts, calls, balanced, rfl,
                  (firstForward?_of_loopFree loopFree _).symm.trans first⟩

end

end Walk

/-! ## Whole runs -/

namespace Player

open Walk

variable {τ σ χ : Type}
variable [Zero τ] [ClockTime τ] [LE τ] [DecidableLE τ] [LT τ] [DecidableLT τ] [IntCast τ]

theorem reachable_of_runUntilComplete (graph : Graph) (options : Options) (oracle : Oracle σ)
    (memory : σ) (audience : χ) (limit : Int) :
    Has (fun state log _ => Reachable (.silent graph options oracle : Stage τ σ χ) state log)
      ((runUntilComplete (.silent graph options oracle) limit).run
        (initial options memory audience : Player τ σ χ)).2 :=
  run_of_triple (stepUntilComplete_kept (Stage.quiet_silent graph options oracle)
    (kept_reachable (.silent graph options oracle)) limit limit.toNat) ⟨.initial _, ⟨_, rfl⟩⟩

/-- Without loops a program of `n` blocks is completed within `2 ^ n - 1` steps, and its calls and
returns are bracketed. Only an oracle that does not answer can prevent this. -/
theorem runUntilComplete_bracketed {scorer : Recursion.Scorer} {source : String} {program : Program}
    (compiled : Program.compile scorer source = .ok program)
    (starts : ∃ block ∈ program.main.blocks, block.kind = .start)
    (ends : EndsWithStop program.main.blocks)
    (loopFree : ∀ block ∈ program.main.blocks, block.kind ≠ .loop) (oracle : Oracle σ)
    (options : Options) (memory : σ) (audience : χ) :
    ∃ (outcome : Except (Fault τ) Unit) (player : Player τ σ χ),
      (runUntilComplete (.silent program.main options oracle)
        (2 ^ program.main.blocks.length - 1 : Nat)).run (initial options memory audience) =
          (outcome, player) ∧
      (outcome = .ok () ∧ Bracketed program.main player.state player.log ∨
        (∃ error, outcome = .error (.walk (.unreadable error))) ∧
          ∀ knows, oracle.Answers knows → ¬knows memory) := by
  have owned := Program.owned_main compiled
  have main := Program.main_eq_ofBlocks compiled
  generalize program.main.blocks = blocks at main starts ends loopFree owned
  rw [main]
  have noLoops : blocks.countP (fun block => block.kind = .loop) = 0 :=
    List.countP_eq_zero.mpr fun block member => by simpa using loopFree block member
  have settled := ends_of_returnsSteadily (τ := τ) blocks options oracle memory audience starts
    (returnsSteadily_of_loopFree loopFree)
  rw [noLoops, Nat.pow_zero, Nat.mul_one] at settled
  have reachable := reachable_of_runUntilComplete (τ := τ) (ofBlocks blocks) options oracle memory
    audience (2 ^ blocks.length - 1 : Nat)
  generalize (runUntilComplete (.silent (ofBlocks blocks) options oracle)
    (2 ^ blocks.length - 1 : Nat)).run (initial options memory audience : Player τ σ χ) = result
    at settled reachable ⊢
  cases settled with
  | completed completed _ =>
      exact ⟨_, _, rfl, .inl ⟨rfl, reachable.reached.bracketed ends owned loopFree completed⟩⟩
  | failed isFault =>
      rcases isFault with ⟨⟨error, rfl⟩, unknown⟩
      exact ⟨_, _, rfl, .inr ⟨⟨error, rfl⟩, unknown⟩⟩

def callsInTurn : String := "Start\nCall f\nIf a\n    Call g\nEnd if\nEnd"

theorem callsInTurn_blocks :
    Program.tagCalls [] (completeConditionals (outline
      (Text.joinLines (Text.lines callsInTurn.toList)))) =
      [⟨"Start", 0, .start, false, none⟩, ⟨"Call f", 0, .call, false, some false⟩,
        ⟨"If a", 0, .condition, false, none⟩, ⟨"Call g", 1, .call, false, some false⟩,
        ⟨"No", 0, .implicitElse, true, none⟩, ⟨"End if", 0, .process, true, none⟩,
        ⟨"End", 0, .stop, true, none⟩] := by
  decide +kernel

theorem runUntilComplete_bracketed_callsInTurn :
    ∃ program, Program.compile .standard callsInTurn = .ok program ∧
      (∃ block ∈ program.main.blocks, block.kind = .start) ∧ EndsWithStop program.main.blocks ∧
      (∀ block ∈ program.main.blocks, block.kind ≠ .loop) ∧
      ∃ player : Player Number Oracle.Adviser Unit,
        (runUntilComplete (.silent program.main {} Oracle.advising)
          (2 ^ program.main.blocks.length - 1 : Nat)).run (initial {} (.fixed Oracle.yes 0) ()) =
            (.ok (), player) ∧
        player.state.path = [0, 1, 2, 3, 5, 6, 5, 6, 2, 3, 5, 6, 5, 6] ∧
        Bracketed program.main player.state player.log := by
  rcases Program.compile_of_plain .standard callsInTurn (by decide +kernel) with
    ⟨program, compiled, _, main⟩
  rw [callsInTurn_blocks] at main
  have starts : ∃ block ∈ program.main.blocks, block.kind = .start := by
    rw [main]
    decide
  have ends : EndsWithStop program.main.blocks := by
    rw [main]
    decide
  have loopFree : ∀ block ∈ program.main.blocks, block.kind ≠ .loop := by
    rw [main]
    decide
  have walks : ((runUntilComplete (.silent program.main {} Oracle.advising)
      (2 ^ program.main.blocks.length - 1 : Nat)).run
        (initial {} (.fixed Oracle.yes 0) () : Player Number Oracle.Adviser Unit)).2.state.path =
          [0, 1, 2, 3, 5, 6, 5, 6, 2, 3, 5, 6, 5, 6] := by
    rw [main]
    decide +kernel
  rcases runUntilComplete_bracketed (τ := Number) compiled starts ends loopFree Oracle.advising {}
    (.fixed Oracle.yes 0) () with ⟨outcome, player, ran, ⟨rfl, bracketed⟩ | ⟨_, unknown⟩⟩
  · rw [ran] at walks
    exact ⟨program, compiled, starts, ends, loopFree, player, ran, walks, bracketed⟩
  · exact absurd rfl (unknown (· = .fixed Oracle.yes 0) (Oracle.answers_fixed _ _))

theorem runUntilComplete_of_unreadable {content : String} {oracle : Oracle σ} {memory : σ}
    {error : NumeralError}
    (unreadable : oracle.decide memory 1 ⟨content, 0, .condition, false, none⟩ = .error error)
    (options : Options) (audience : χ) {limit : Int} (enough : 2 ≤ limit) :
    ((runUntilComplete (.silent (ofBlocks (Comparison.conditionBlocks content)) options oracle)
      limit).run (initial options memory audience : Player τ σ χ)).1 =
        .error (.walk (.unreadable error)) := by
  rcases Nat.exists_eq_add_of_le' (show 2 ≤ limit.toNat by omega) with ⟨more, size⟩
  generalize graphed : ofBlocks (Comparison.conditionBlocks content) = graph
  have found : graph.find? .start = some 0 := graphed ▸ rfl
  have first : firstForward? graph (0 : Nat) = some 1 := graphed ▸ rfl
  have asked : graph.block? (1 : Nat) = some ⟨content, 0, .condition, false, none⟩ := graphed ▸ rfl
  rcases begin_of_find? found (0 : τ) (.initial (options.clamp (.int options.speed))) with
    ⟨entries, begins⟩
  rw [first] at begins
  rw [runUntilComplete_run_succ memory audience size begins]
  generalize moved : ((State.initial (options.clamp (.int options.speed))).fresh 0).after 0 [] []
    (some 1) = state
  have paused : state.phase = .paused := moved ▸ rfl
  have current : state.current = some (1 : Nat) := moved ▸ rfl
  have ticked : transition oracle options graph (0 : τ) state memory .tick =
      .error (.unreadable error) := by
    have underWay : ¬state.Idle := by simp [State.Idle, paused]
    rw [tick_of_inside underWay current asked, execute_condition_error
      ⟨Block.Kind.noConfusion, Block.Kind.noConfusion⟩ Block.Kind.noConfusion (.inl rfl) unreadable]
    rfl
  have stepped : (step (.silent graph options oracle)).run
      { (initial options memory audience : Player τ σ χ) with state, log := entries } =
        (.error (.walk (.unreadable error)),
          { (initial options memory audience : Player τ σ χ) with state, log := entries }) := by
    rw [step_eq_of_paused _ paused]
    exact run_bind_of_error (dispatch_run_of_error _ ticked)
  rw [stepUntilComplete_run_succ_of_error limit more (by simp [paused]) stepped]

/-- A condition that compares a variable with a whole number of too many digits ends a run, though
the oracle has another one for what it cannot decide. -/
theorem exists_run_unread :
    ¬∀ (source : String) (program : Program), Program.compile .standard source = .ok program →
      (∃ block ∈ program.main.blocks, block.kind = .start) → EndsWithStop program.main.blocks →
        (∀ block ∈ program.main.blocks, block.kind ≠ .loop) →
          ∀ adviser : Oracle.Adviser, ∃ player : Player Number Oracle.Adviser Unit,
            (runUntilComplete (.silent program.main {} Oracle.advising)
              (2 ^ program.main.blocks.length - 1 : Nat)).run (initial {} adviser ()) =
                (.ok (), player) ∧
            Bracketed program.main player.state player.log := by
  intro always
  have areDigits : ∀ c ∈ List.replicate 4301 '1', c.isDigit = true :=
    fun c member => List.eq_of_mem_replicate member ▸ rfl
  have some : List.replicate 4301 '1' ≠ [] := List.cons_ne_nil _ _
  have tooLong : Numeral.maxDigits < (List.replicate 4301 '1').length := by
    rw [List.length_replicate]
    decide
  have unread := Comparison.read?_of_tooLong areDigits tooLong
  rcases Comparison.exists_program_of_conditionLines areDigits some .standard with
    ⟨program, compiled, main⟩
  generalize List.replicate 4301 '1' = digits at areDigits some tooLong unread compiled main
  have starts : ∃ block ∈ program.main.blocks, block.kind = .start := by
    rw [main]
    exact ⟨_, List.mem_cons_self, rfl⟩
  have ends : EndsWithStop program.main.blocks := by
    rw [main]
    rfl
  have loopFree : ∀ block ∈ program.main.blocks, block.kind ≠ .loop := by
    rw [main]
    simp [ofBlocks, Comparison.conditionBlocks]
  have unreadable : Oracle.advising.decide (.comparing [] .agreeable) 1
      ⟨String.ofList (Comparison.condition digits), 0, .condition, false, none⟩ =
        .error (.tooLong digits.length) := by
    simp only [Oracle.advising, Oracle.Adviser.decide, String.toList_ofList, unread]
    rfl
  have fails := runUntilComplete_of_unreadable (τ := Number) unreadable {} ()
    (show 2 ≤ ((31 : Nat) : Int) by decide)
  rcases always _ program compiled starts ends loopFree
    (.comparing [] .agreeable) with ⟨player, ran, _⟩
  rw [main] at ran
  have outcome := congrArg Prod.fst ran
  cases fails.symm.trans outcome

end Player

end Flowchart
