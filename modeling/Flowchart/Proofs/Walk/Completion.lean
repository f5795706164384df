import Flowchart.Proofs.Walk.Passable

/-!
How runs are completed.

A run of a program that ends with an end ought to be completed there, outside all calls. That is so
if all loops that take edges back are sealed. Otherwise a run may stop in the middle of a program,
with calls that have not returned.
-/

namespace Flowchart

namespace Walk

open Flowchart.Graph

/-! ## Runs -/

section

variable {σ τ : Type} (oracle : Oracle σ) (options : Options) (graph : Graph)

def tickOn (place : State × List (Entry τ) × σ) (now : τ) :
    Except Fault (State × List (Entry τ) × σ) :=
  (transition oracle options graph now place.1 place.2.2 .tick).map
    fun (next, entries, later) => (next, place.2.1 ++ entries, later)

def runFor (speed : Int) (memory : σ) (paused : Bool) (start : τ) (ticks : List τ) :
    Except Fault (State × List (Entry τ) × σ) := do
  ticks.foldlM (tickOn oracle options graph)
    (← transition oracle options graph start (.initial speed) memory (.start paused))

variable {oracle options graph} {speed : Int} {memory : σ} {paused : Bool} {start : τ}

theorem runFor_induction (holds : State → List (Entry τ) → Prop)
    (starts : ∀ state log,
      begin graph start (.initial speed) paused = .ok (state, log) → holds state log)
    (keeps : ∀ state log memory now next entries later, holds state log →
      transition oracle options graph now state memory .tick = .ok (next, entries, later) →
        holds next (log ++ entries))
    {ticks : List τ} {state : State} {log : List (Entry τ)} {later : σ}
    (ran : runFor oracle options graph speed memory paused start ticks = .ok (state, log, later)) :
    holds state log := by
  have onward : ∀ (ticks : List τ) (place : State × List (Entry τ) × σ), holds place.1 place.2.1 →
      ticks.foldlM (tickOn oracle options graph) place = .ok (state, log, later) →
        holds state log := by
    intro ticks
    induction ticks with
    | nil =>
        intro place holding ran
        cases ran
        exact holding
    | cons now ticks induction =>
        intro place holding ran
        rw [List.foldlM_cons, tickOn] at ran
        cases ticked : transition oracle options graph now place.1 place.2.2 .tick with
        | error fault =>
            rw [ticked] at ran
            cases ran
        | ok result =>
            rcases result with ⟨next, entries, memory⟩
            rw [ticked] at ran
            exact induction _ (keeps _ _ _ _ _ _ _ holding ticked) ran
  have unstarted : (State.initial speed).phase ≠ .running := by simp [State.initial]
  rw [runFor, transition, if_neg unstarted] at ran
  cases begun : begin graph start (.initial speed) paused with
  | error fault =>
      rw [begun] at ran
      cases ran
  | ok result =>
      rcases result with ⟨first, entries⟩
      rw [begun] at ran
      exact onward ticks _ (starts first entries begun) ran

end

/-! ## What a visit logs -/

section

variable {σ τ : Type} {oracle : Oracle σ} {options : Options} {graph : Graph} {now : τ}
variable {state next : State} {memory later : σ} {index : Nat} {block : Block} {entry : Entry τ}

theorem visit_of_execute (executed : execute oracle options graph now state memory index block =
      .ok (next, entry, later)) :
    ∃ stack counters target, next = state.after index stack counters target ∧
      Tells index block state.stack entry ∧
      Visit graph options index block state.stack state.counters stack counters target ∧
      (target = none → block.kind ≠ .stop ∧ block.kind ≠ .return ∧ block.kind ≠ .loop →
        liveLoop? graph state.counters index = none ∧ graph.forward (index : Int) = []) := by
  cases outcome oracle options graph now state memory index block with
  | visited stack counters target entry later again told _ visit wayOut =>
      cases executed.symm.trans again
      exact ⟨stack, counters, target, rfl, told, visit, wayOut⟩
  | failed fault again _ => cases executed.symm.trans again

end

/-! ## Runs that end -/

section

variable {τ : Type}

/-- A walk on its way: it stands in the row, every loop around it that takes edges back is counted,
every call knows a place outside these loops to return to, and the log holds the calls that have
not returned. -/
structure Underway (blocks : List Block) (state : State) (log : List (Entry τ)) : Prop where
  running : state.phase ≠ .completed
  stands : ∃ place : Nat, state.current = some (place : Int) ∧ place < blocks.length ∧
    Counted (ofBlocks blocks) state.counters place
  returns : ∀ frame ∈ state.stack, ∃ place : Nat, frame.returnTo = some (place : Int) ∧
    place < blocks.length ∧ Outside (ofBlocks blocks) place
  calls : log.countP (fun entry => entry.action = .call) =
    log.countP (fun entry => entry.action = .return) + state.stack.length

structure Finished (graph : Graph) (state : State) (log : List (Entry τ)) : Prop where
  completed : state.phase = .completed
  exit : ∃ entry block, log.getLast? = some entry ∧ entry.action = .exit ∧
    graph.block? entry.index = some block ∧ (block.kind = .stop ∨ block.kind = .return)
  outside : state.stack = []
  calls : log.countP (fun entry => entry.action = .call) =
    log.countP (fun entry => entry.action = .return)

variable {σ : Type} {oracle : Oracle σ} {options : Options} {blocks : List Block} {now : τ}
variable {state next : State} {log : List (Entry τ)} {memory later : σ}

theorem calls_concat_of_call {entry : Entry τ} {count : Nat}
    (calls : log.countP (fun entry => entry.action = .call) =
      log.countP (fun entry => entry.action = .return) + count)
    (isCall : entry.action = .call) :
    (log ++ [entry]).countP (fun entry => entry.action = .call) =
      (log ++ [entry]).countP (fun entry => entry.action = .return) + (count + 1) := by
  simp only [List.countP_append, List.countP_singleton, isCall, calls, reduceCtorEq, decide_true,
    decide_false, if_true, Bool.false_eq_true, if_false]
  omega

theorem calls_concat_of_return {entry : Entry τ} {count : Nat}
    (calls : log.countP (fun entry => entry.action = .call) =
      log.countP (fun entry => entry.action = .return) + (count + 1))
    (isReturn : entry.action = .return) :
    (log ++ [entry]).countP (fun entry => entry.action = .call) =
      (log ++ [entry]).countP (fun entry => entry.action = .return) + count := by
  simp only [List.countP_append, List.countP_singleton, isReturn, calls, reduceCtorEq, decide_true,
    decide_false, if_true, Bool.false_eq_true, if_false]
  omega

theorem calls_concat_of_other {entry : Entry τ} {count : Nat}
    (calls : log.countP (fun entry => entry.action = .call) =
      log.countP (fun entry => entry.action = .return) + count)
    (noCall : entry.action ≠ .call) (noReturn : entry.action ≠ .return) :
    (log ++ [entry]).countP (fun entry => entry.action = .call) =
      (log ++ [entry]).countP (fun entry => entry.action = .return) + count := by
  simp only [List.countP_append, List.countP_singleton, noCall, noReturn, calls, decide_false,
    Bool.false_eq_true, if_false, Nat.add_zero]

theorem Underway.after {place goal : Nat} {stack : List Frame} {counters : Counters}
    (underway : Underway blocks state log) {entries : List (Entry τ)} (small : goal < blocks.length)
    (counted : Counted (ofBlocks blocks) counters goal)
    (returns : ∀ frame ∈ stack, ∃ place : Nat, frame.returnTo = some (place : Int) ∧
      place < blocks.length ∧ Outside (ofBlocks blocks) place)
    (calls : entries.countP (fun entry => entry.action = .call) =
      entries.countP (fun entry => entry.action = .return) + stack.length) :
    Underway blocks (state.after place stack counters (some (goal : Int))) entries := by
  refine ⟨underway.running, ⟨goal, rfl, small, ?_⟩, ?_, ?_⟩
  · rw [State.after_counters]
    exact counted
  · rw [State.after_stack]
    exact returns
  · rw [State.after_stack]
    exact calls

theorem Underway.execute {place : Nat} {block : Block} {entry : Entry τ}
    (passable : Passable blocks) (underway : Underway blocks state log)
    (stands : state.current = some (place : Int)) (found : blocks[place]? = some block)
    (executed : Walk.execute oracle options (ofBlocks blocks) now state memory place block =
      .ok (next, entry, later)) :
    Underway blocks next (log ++ [entry]) ∨ Finished (ofBlocks blocks) next (log ++ [entry]) := by
  rcases visit_of_execute executed with ⟨stack, counters, target, rfl, told, visit, wayOut⟩
  rcases underway.stands with ⟨here, standsHere, small, counted⟩
  cases Int.natCast_inj.mp (Option.some.inj (stands.symm.trans standsHere))
  have returns := underway.returns
  have calls := underway.calls
  generalize isStack : state.stack = pending at visit returns calls told
  generalize isCounters : state.counters = known at visit counted wayOut
  have same (noCall : block.kind ≠ .call)
      (running : ¬(block.kind = .stop ∨ block.kind = .return)) :=
    calls_concat_of_other calls (fun calls => noCall (told.calls.mp calls))
      (fun pops => running (told.returns.mp pops).1)
  -- Only a call adds a frame, and only an end or a return inside a call takes one away.
  cases visit with
  | finish _ ends =>
      have exits : entry.action = .exit := told.exits.mpr ⟨ends, rfl⟩
      refine .inr ⟨rfl, ⟨entry, block, List.getLast?_concat, exits, ?_, ends⟩, ?_, ?_⟩
      · rw [told.index, block?, if_neg (by omega), Int.toNat_natCast]
        exact found
      · rw [State.after_stack]
      · exact calls_concat_of_other calls (by simp [exits]) (by simp [exits])
  | resume frame stack _ ends =>
      rcases returns frame List.mem_cons_self with ⟨goal, isGoal, inside, outside⟩
      rw [isGoal]
      exact .inl (underway.after inside (outside.counted _)
        (fun other member => returns other (List.mem_cons_of_mem _ member))
        (calls_concat_of_return calls (told.returns.mpr ⟨ends, by simp⟩)))
  | enter _ _ isLoop again =>
      rcases exists_goal_of_enter (isLoop_iff.mpr ⟨block, found, isLoop⟩) counted
        (known.countOf place + 1) with ⟨goal, isGoal, inside, counted⟩
      rw [isGoal]
      exact .inl
        (underway.after inside counted returns (same (by simp [isLoop]) (by simp [isLoop])))
  | leave _ _ isLoop enough =>
      have goes := passable.exists_goal_of_leave found isLoop counted
      rcases Option.ne_none_iff_exists'.mp goes with ⟨goal, isGoal⟩
      rcases passable.counted_of_leave (isLoop_iff.mpr ⟨block, found, isLoop⟩) counted isGoal with
        ⟨target, rfl, inside, counted⟩
      rw [isGoal]
      exact .inl
        (underway.after inside counted returns (same (by simp [isLoop]) (by simp [isLoop])))
  | call frame _ _ kind isReturnTo =>
      rcases passable.exists_goal_of_follow found (by simp [kind]) counted
        (fun goal first => exists_of_firstForward? first)
        (fun none => wayOut none (by simp [kind])) with ⟨goal, isGoal, inside, counted⟩
      rcases passable.returnTo found kind with ⟨behind, isBehind, insideBehind, outside⟩
      rw [isGoal]
      refine .inl (underway.after inside counted (fun other member => ?_)
        (calls_concat_of_call calls (told.calls.mpr kind)))
      cases List.mem_cons.mp member with
      | inl same => exact ⟨behind, same ▸ isReturnTo.trans isBehind, insideBehind, outside⟩
      | inr earlier => exact returns other earlier
  | follow _ _ chosen other drawn =>
      rcases passable.exists_goal_of_follow found ⟨other.1, other.2.1, other.2.2.1⟩ counted drawn
        (fun none => wayOut none ⟨other.1, other.2.1, other.2.2.1⟩) with
        ⟨goal, isGoal, inside, counted⟩
      rw [isGoal]
      exact .inl (underway.after inside counted returns
        (same other.2.2.2 (not_or.mpr ⟨other.1, other.2.1⟩)))

theorem Underway.tick {entries : List (Entry τ)} (passable : Passable blocks)
    (underway : Underway blocks state log)
    (ticked : transition oracle options (ofBlocks blocks) now state memory .tick =
      .ok (next, entries, later)) :
    Underway blocks next (log ++ entries) ∨
      Finished (ofBlocks blocks) next (log ++ entries) := by
  rcases underway.stands with ⟨place, stands, small, counted⟩
  have found := List.getElem?_eq_getElem small
  have atBlock : (ofBlocks blocks).block? (place : Int) = some blocks[place] := by
    rw [block?, if_neg (by omega), Int.toNat_natCast]
    exact found
  by_cases idle : state.phase = .notStarted ∨ state.phase = .completed
  · rw [transition, if_pos idle] at ticked
    cases ticked
    rw [List.append_nil]
    exact .inl underway
  · simp only [transition, if_neg idle, stands, Option.bind_some, atBlock, Option.map_some,
      Int.toNat_natCast] at ticked
    cases executed : Walk.execute oracle options (ofBlocks blocks) now state memory place
      blocks[place] with
    | error fault =>
        rw [executed] at ticked
        cases ticked
    | ok result =>
        rcases result with ⟨after, entry, remembered⟩
        rw [executed] at ticked
        cases ticked
        exact underway.execute passable stands found executed

theorem Finished.tick {graph : Graph} {entries : List (Entry τ)}
    (finished : Finished graph state log)
    (ticked : transition oracle options graph now state memory .tick =
      .ok (next, entries, later)) :
    Finished graph next (log ++ entries) := by
  rw [transition, if_pos (.inr finished.completed)] at ticked
  cases ticked
  rw [List.append_nil]
  exact finished

theorem Underway.begin {paused : Bool} (passable : Passable blocks)
    (begun : Walk.begin (ofBlocks blocks) now state paused = .ok (next, log)) :
    Underway blocks next log := by
  unfold Walk.begin at begun
  cases first : (ofBlocks blocks).find? .start with
  | none =>
      rw [first] at begun
      cases begun
  | some index =>
      rw [first] at begun
      rcases List.findIdx?_eq_some_iff_getElem.mp first with ⟨small, isStart, _⟩
      have found : blocks[index]? = some blocks[index] := List.getElem?_eq_getElem small
      have kind : blocks[index].kind = .start := of_decide_eq_true isStart
      have outside : Outside (ofBlocks blocks) index := fun loop turns =>
        (passable.isSealed loop turns).starts index first
      rcases passable.exists_goal_of_follow found (by simp [kind]) (outside.counted [])
        (fun goal first => exists_of_firstForward? first)
        (fun none => ⟨liveLoop?_nil _ _,
          firstForward?_eq_none_iff.mp (Option.or_eq_none_iff.mp none).2⟩) with
        ⟨goal, isGoal, inside, counted⟩
      rw [liveLoop?_nil, Option.none_or] at isGoal
      simp only [isGoal, Except.ok.injEq, Prod.mk.injEq] at begun
      rcases begun with ⟨rfl, rfl⟩
      refine ⟨?_, ⟨goal, rfl, inside, counted⟩, ?_, rfl⟩
      · cases paused <;> simp [State.move, State.visit]
      · intro frame member
        cases member

/-- A run of a row in which there is always somewhere to go is completed at an end or a return, or
it is not completed. -/
theorem finished_of_completed {speed : Int} {paused : Bool} {start : τ} {ticks : List τ}
    (passable : Passable blocks)
    (ran : runFor oracle options (ofBlocks blocks) speed memory paused start ticks =
      .ok (state, log, later)) (completed : state.phase = .completed) :
    Finished (ofBlocks blocks) state log := by
  have holds := runFor_induction
    (fun state log => Underway blocks state log ∨ Finished (ofBlocks blocks) state log)
    (fun state log begun => .inl (Underway.begin passable begun))
    (fun state log memory now next entries later holding ticked => by
      cases holding with
      | inl underway => exact underway.tick passable ticked
      | inr finished => exact .inr (finished.tick ticked)) ran
  cases holds with
  | inl underway => exact absurd completed underway.running
  | inr finished => exact finished

/-- In a program that ends with an end and in which the loops that take edges back are sealed, every
run that is completed is so at an end or a return, outside all calls, after every call returned. -/
theorem runFor_finished {scorer : Recursion.Scorer} {source : String} {program : Program}
    (compiled : Program.compile scorer source = .ok program)
    (ends : EndsWithStop program.main.blocks)
    (isSealed : ∀ loop, program.main.TurnsBackTo loop → program.main.Sealed loop)
    (oracle : Oracle σ) (options : Options) (speed : Int) (memory : σ) (paused : Bool) (start : τ)
    (ticks : List τ) (state : State) (log : List (Entry τ)) (later : σ)
    (ran : runFor oracle options program.main speed memory paused start ticks =
      .ok (state, log, later)) (completed : state.phase = .completed) :
    Finished program.main state log := by
  have main := Program.main_eq_ofBlocks compiled
  rw [main] at ran isSealed ⊢
  exact finished_of_completed ⟨ends, Program.owned_main compiled, isSealed⟩ ran completed

end

theorem exists_run_of_view {ε α β : Type} {result : Except ε α} (view : α → β) {seen : β}
    (views : result.toOption.map view = some seen) :
    ∃ place, result = .ok place ∧ view place = seen := by
  cases result with
  | error fault => cases views
  | ok place => exact ⟨place, rfl, Option.some.inj views⟩

def callEndsLoop : String :=
  "Start\nWhile a\n    If b\n        Output x\n    Else\n        Call f\nEnd"

def callEndsLoopBlocks : List Block :=
  [⟨"Start", 0, .start, false, none⟩, ⟨"While a", 0, .loop, false, none⟩,
    ⟨"If b", 1, .condition, false, none⟩, ⟨"Output x", 2, .output, false, none⟩,
    ⟨"Else", 1, .condition, true, none⟩, ⟨"Call f", 2, .call, false, some false⟩,
    ⟨"End", 0, .stop, true, none⟩]

theorem callEndsLoop_blocks :
    Program.tagCalls [] (completeConditionals (outline
      (Text.joinLines (Text.lines callEndsLoop.toList)))) = callEndsLoopBlocks := by
  decide +kernel

theorem runFor_finished_callEndsLoop :
    ∃ program state log later, Program.compile .standard callEndsLoop = .ok program ∧
      EndsWithStop program.main.blocks ∧ program.main.TurnsBackTo 1 ∧
      (∀ loop, program.main.TurnsBackTo loop → program.main.Sealed loop) ∧
      runFor Oracle.advising { iterations := 1 } program.main 500 (.fixed Oracle.no 0) false
        (0 : Nat) [1, 2, 3, 4, 5, 6, 7] = .ok (state, log, later) ∧
      state.phase = .completed ∧ Finished program.main state log := by
  rcases Program.compile_of_plain .standard callEndsLoop (by decide +kernel) with
    ⟨program, compiled, _, main⟩
  rw [callEndsLoop_blocks] at main
  have ends : EndsWithStop program.main.blocks := by
    rw [main]
    decide
  have turns : program.main.TurnsBackTo 1 := by
    rw [main]
    decide +kernel
  have isSealed : ∀ loop, program.main.TurnsBackTo loop → program.main.Sealed loop := by
    have all : ∀ loop < callEndsLoopBlocks.length,
        (ofBlocks callEndsLoopBlocks).TurnsBackTo loop →
          (ofBlocks callEndsLoopBlocks).Sealed loop := by decide +kernel
    rw [main]
    exact fun loop turns => all loop turns.lt_length turns
  have completes : (runFor Oracle.advising { iterations := 1 } program.main 500
      (.fixed Oracle.no 0) false (0 : Nat) [1, 2, 3, 4, 5, 6, 7]).toOption.map
        (fun place => place.1.phase) = some .completed := by
    rw [main]
    decide +kernel
  rcases exists_run_of_view _ completes with ⟨⟨state, log, later⟩, ran, completed⟩
  exact ⟨program, state, log, later, compiled, ends, turns, isSealed, ran, completed,
    runFor_finished compiled ends isSealed Oracle.advising { iterations := 1 } 500
      (.fixed Oracle.no 0) false 0 _ state log later ran completed⟩

/-! ## A run that stops in the middle -/

/-- Both calls are made while the loop is counted. The end of the program returns into the body
after the loop was left, where the branch has only an edge back to the loop. -/
def callsBeforeBranch : String :=
  "Start\nWhile a\n    Call f\n    Call g\n    If b\n        Output x\n    Else\n" ++
    "        Output y\nEnd"

def callsBeforeBranchBlocks : List Block :=
  [⟨"Start", 0, .start, false, none⟩, ⟨"While a", 0, .loop, false, none⟩,
    ⟨"Call f", 1, .call, false, some false⟩, ⟨"Call g", 1, .call, false, some false⟩,
    ⟨"If b", 1, .condition, false, none⟩, ⟨"Output x", 2, .output, false, none⟩,
    ⟨"Else", 1, .condition, true, none⟩, ⟨"Output y", 2, .output, false, none⟩,
    ⟨"End", 0, .stop, true, none⟩]

theorem callsBeforeBranch_blocks :
    Program.tagCalls [] (completeConditionals (outline
      (Text.joinLines (Text.lines callsBeforeBranch.toList)))) = callsBeforeBranchBlocks := by
  decide +kernel

/-- A run is completed in the middle of the program with a call that has not returned. -/
theorem exists_unfinished_run :
    ¬∀ (scorer : Recursion.Scorer) (source : String) (program : Program),
      Program.compile scorer source = .ok program →
        (∃ block ∈ program.main.blocks, block.kind = .start) →
        EndsWithStop program.main.blocks →
          ∀ (options : Options) (answer : String) (choice speed : Int) (paused : Bool)
            (start : Number) (ticks : List Number) (state : State) (log : List (Entry Number))
            (later : Oracle.Adviser),
            runFor Oracle.advising options program.main speed (.fixed answer choice) paused start
              ticks = .ok (state, log, later) →
            state.phase = .completed → Finished program.main state log := by
  intro always
  rcases Program.compile_of_plain .standard callsBeforeBranch (by decide +kernel) with
    ⟨program, compiled, _, main⟩
  rw [callsBeforeBranch_blocks] at main
  have starts : ∃ block ∈ program.main.blocks, block.kind = .start := by
    rw [main]
    decide
  have ends : EndsWithStop program.main.blocks := by
    rw [main]
    decide
  have stops : (runFor Oracle.advising { iterations := 1 } program.main 500
      (.fixed Oracle.yes 0) false (0 : Number) (List.replicate 9 0)).toOption.map
        (fun place => (place.1.phase, place.1.stack.map Frame.functionName)) =
      some (.completed, ["f"]) := by
    rw [main]
    decide +kernel
  rcases exists_run_of_view _ stops with ⟨⟨state, log, later⟩, ran, seen⟩
  simp only [Prod.mk.injEq] at seen
  rcases seen with ⟨completed, calls⟩
  have finished := always .standard callsBeforeBranch program compiled starts ends
    { iterations := 1 } Oracle.yes 0 500 false 0 _ state log later ran completed
  rw [finished.outside] at calls
  cases calls

end Walk

end Flowchart
