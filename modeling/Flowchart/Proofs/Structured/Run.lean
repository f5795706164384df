import Flowchart.Proofs.Player.Stepping
import Flowchart.Proofs.Program.Compiled
import Flowchart.Proofs.Structured.Completed
import Flowchart.Proofs.Structured.Layout
import Flowchart.Proofs.Structured.Walked
import Flowchart.Proofs.Structured.Wiring

/-!
Structured programs are run as they read.
-/

namespace Flowchart.Structured

open Flowchart.Graph Walk

variable {σ τ χ : Type}
variable [Zero τ] [ClockTime τ] [LE τ] [DecidableLE τ] [LT τ] [DecidableLT τ] [IntCast τ]

/-! ## Blocks -/

theorem Part.entry_block {α : Type} (part : Part α .statements) (index number place : Nat) :
    ∃ first, part.entry index number (.block place) = .block first := by
  cases part with
  | done => exact ⟨place, rfl⟩
  | simple | conditional | loop | switch => exact ⟨index, rfl⟩

variable (τ) in
theorem runUntilComplete_of_shaped {start stop : Block} {body : Part Block .statements}
    {level : Int} (starts : start.kind = .start) (stops : stop.kind = .stop)
    (shaped : body.Shaped level) (options : Options) (oracle : Oracle σ) (memory : σ) (audience : χ)
    (knows : σ → Prop) (decides : oracle.Decides knows) (remembers : knows memory) :
    ∃ path later, body.read oracle options.iterations.toNat 1 0 memory = .ok (path, later) ∧
      ∀ limit : Int, (path.length + 2 : Nat) ≤ limit → ∃ player : Player τ σ χ,
        (Player.runUntilComplete
          (.silent (ofBlocks (start :: body.lines ++ [stop])) options oracle) limit).run
            (Player.initial options memory audience) = (.ok (), player) ∧
        player.state.phase = .completed ∧
        player.state.path = 0 :: path ++ [((1 + body.size : Nat) : Int)] := by
  rcases wired_between starts stops shaped with ⟨links, wired⟩
  generalize same : ofBlocks (start :: body.lines ++ [stop]) = graph at links wired
  have found : graph.find? .start = some 0 := by
    simp [← same, Graph.find?, ofBlocks, List.findIdx?_cons, starts]
  have atStop : graph.blocks[1 + body.size]? = some stop := by
    have length : (start :: body.lines).length = 1 + body.size := by
      rw [List.length_cons, Part.length_lines, Nat.add_comm]
    have behind : graph.blocks = (start :: body.lines) ++ [stop] := by
      rw [← same]
      rfl
    rw [behind, ← length, List.getElem?_concat_length]
  rcases begin_of_find? found (0 : τ) (.initial (options.clamp (.int options.speed))) with
    ⟨entries, begins⟩
  rcases body.entry_block 1 0 (1 + body.size) with ⟨first, isFirst⟩
  rw [isFirst] at links
  rw [links.1] at begins
  have standing : Stands
      (((State.initial (options.clamp (.int options.speed))).fresh 0).after 0 [] []
        (some (first : Int))) first fun loop => ([] : Counters).lookup loop := stands_after rfl
  have entered : (body.entry 1 0 (.block (1 + body.size))).place = first := by
    rw [isFirst]
    rfl
  rw [← entered] at standing
  rcases takenAsRead body decides ⟨wired, trivial, fun _ _ _ => rfl, standing, remembers⟩ with
    ⟨path, later, next, reading, _, passage, ends⟩
  refine ⟨path, later, reading, fun limit enough => ?_⟩
  have executed := execute_ending_nil oracle options graph (0 : τ) next later (1 + body.size)
    (.inl stops) ends.outside
  have lastTick := tick_of_execute ends.paused ends.current atStop executed
  rw [entered] at passage
  rcases Player.runUntilComplete_run_of_ticks memory audience begins rfl passage.ticks lastTick rfl
    enough with ⟨log, ran⟩
  refine ⟨_, ran, rfl, ?_⟩
  rw [State.after_path, passage.path, State.after_path]
  rfl

/-! ## Texts -/

theorem tagCalls_of_ne {blocks : List Block} (recursive : List String)
    (callFree : ∀ block ∈ blocks, block.kind ≠ .call) :
    Program.tagCalls recursive blocks = blocks := by
  rw [Program.tagCalls]
  refine (List.map_congr_left fun block member => ?_).trans (List.map_id blocks)
  rw [if_neg (callFree block member), id]

variable {source : String} {start stop : List Char} {body : Part (List Char) .statements}

/-- The chart of a structured text has a block for every line and every missing arm. -/
theorem IsText.exists_program (isText : IsText branchPhrases source start body stop)
    (scorer : Recursion.Scorer)
    (noHeader : ∀ line ∈ Text.lines source.toList, Procedure.Header.read? line = none) :
    ∃ program, Program.compile scorer source = .ok program ∧
      program.main = ofBlocks
        (blockAt 0 start :: (body.outlined 0).completed.lines ++ [blockAt 0 stop]) := by
  have shaped := isText.written.shaped 0
  have callFree : ∀ block ∈
      blockAt 0 start :: (body.outlined 0).completed.lines ++ [blockAt 0 stop],
      block.kind ≠ .call := by
    intro block member
    rcases List.mem_append.mp member with member | member
    · rcases List.mem_cons.mp member with rfl | member
      · simp [isText.starts]
      · exact Block.ne_of_structured (shaped.completed.inside _ member).2 (by decide)
    · cases List.mem_singleton.mp member
      simp [isText.stops]
  rcases Program.compile_of_plain scorer source noHeader with ⟨program, compiled, _, main⟩
  refine ⟨program, compiled, ?_⟩
  rw [main, isText.outline_eq, completeConditionals_of_shaped isText.starts isText.stops shaped,
    tagCalls_of_ne [] callFree]

variable (τ) in
/-- A text has a program, and stepping through it until it is completed passes the first line, the
places that some statements read, and the last line. The number of iterations is the number of
rounds of every loop. -/
def RunsAsRead (scorer : Recursion.Scorer) (source : String) (statements : Part Block .statements)
    (options : Options) (oracle : Oracle σ) (memory : σ) (audience : χ) : Prop :=
  ∃ program path later, Program.compile scorer source = .ok program ∧
    statements.read oracle options.iterations.toNat 1 0 memory = .ok (path, later) ∧
    ∀ limit : Int, (path.length + 2 : Nat) ≤ limit → ∃ player : Player τ σ χ,
      (Player.runUntilComplete (.silent program.main options oracle) limit).run
        (Player.initial options memory audience) = (.ok (), player) ∧
      player.state.phase = .completed ∧
      player.state.path = 0 :: path ++ [((1 + statements.size : Nat) : Int)]

/-- A structured text is run as it reads, its missing arms included, if it has no function headers
and none of its simple lines begins with the word of a branch. -/
theorem IsText.runsAsRead (isText : IsText branchPhrases source start body stop)
    (scorer : Recursion.Scorer)
    (noHeader : ∀ line ∈ Text.lines source.toList, Procedure.Header.read? line = none)
    (options : Options) (oracle : Oracle σ) (memory : σ) (audience : χ) (knows : σ → Prop)
    (decides : oracle.Decides knows) (remembers : knows memory) :
    RunsAsRead τ scorer source (body.outlined 0).completed options oracle memory audience := by
  have shaped := isText.written.shaped 0
  rcases isText.exists_program scorer noHeader with ⟨program, compiled, main⟩
  rcases runUntilComplete_of_shaped τ isText.starts isText.stops shaped.completed options oracle
    memory audience knows decides remembers with ⟨path, later, reading, runs⟩
  rw [← main] at runs
  exact ⟨program, path, later, compiled, reading, runs⟩

def mixedSource : String :=
  "Start\nWhile y\n  Switch z\n    Case 1\n      Input b\n  End switch\nEnd while\n\nIf x > 1\n" ++
    "  Output x\nEnd if\nEnd"

def mixedStatements : Part (List Char) .statements :=
  .loop "While y".toList
    (.switch "  Switch z".toList
      (.lastCase "    Case 1".toList (.simple "      Input b".toList .done))
      "  End switch".toList .done)
    "End while".toList
    (.conditional "If x > 1".toList (.simple "  Output x".toList .done) .noArm "End if".toList
      .done)

theorem isText_mixedSource :
    IsText branchPhrases mixedSource "Start".toList mixedStatements "End".toList where
  rows := by decide
  first := ⟨by decide, by decide⟩
  starts := by decide
  written := by
    have input : (Part.simple "      Input b".toList .done).Written branchPhrases 6 :=
      ⟨⟨by decide, by decide⟩, ⟨⟨by decide, by decide, by decide⟩,
        by decide⟩, trivial⟩
    have output : (Part.simple "  Output x".toList .done).Written branchPhrases 2 :=
      ⟨⟨by decide, by decide⟩, ⟨⟨by decide, by decide, by decide⟩,
        by decide⟩, trivial⟩
    have cases : (Part.lastCase "    Case 1".toList
        (.simple "      Input b".toList .done)).Written branchPhrases 4 :=
      ⟨⟨by decide, by decide⟩, by decide, 6, by decide, input⟩
    refine ⟨⟨by decide, by decide⟩, by decide, ⟨2, by decide, ?_⟩, ⟨by decide, by decide⟩,
      by decide, ?_⟩
    · exact ⟨⟨by decide, by decide⟩, by decide, ⟨4, by decide, cases⟩,
        ⟨by decide, by decide⟩, by decide, trivial⟩
    · exact ⟨⟨by decide, by decide⟩, by decide, ⟨2, by decide, output⟩, trivial,
        ⟨by decide, by decide⟩, by decide, trivial⟩
  last := ⟨by decide, by decide⟩
  stops := by decide

theorem runsAsRead_mixedSource :
    IsText branchPhrases mixedSource "Start".toList mixedStatements "End".toList ∧
      (∀ line ∈ Text.lines mixedSource.toList, Procedure.Header.read? line = none) ∧
      Oracle.advising.Decides (· = .fixed (Oracle.ofBool false) 0) ∧
      RunsAsRead Number .standard mixedSource (mixedStatements.outlined 0).completed
        { iterations := 2 } Oracle.advising (.fixed (Oracle.ofBool false) 0) () :=
  have noHeader : ∀ line ∈ Text.lines mixedSource.toList, Procedure.Header.read? line = none := by
    decide +kernel
  ⟨isText_mixedSource, noHeader, Oracle.decides_fixed false 0,
    isText_mixedSource.runsAsRead .standard noHeader { iterations := 2 } Oracle.advising
      (.fixed (Oracle.ofBool false) 0) () (· = .fixed (Oracle.ofBool false) 0)
      (Oracle.decides_fixed false 0) rfl⟩

/-! ## Texts that are not run as they read -/

theorem not_runsAsRead {scorer : Recursion.Scorer} {source : String} {graph : Graph}
    (compiled : ∀ program, Program.compile scorer source = .ok program → program.main = graph)
    {statements : Part Block .statements} {options : Options} {oracle : Oracle σ} {memory later : σ}
    {audience : χ} {path : List Int}
    (reading : statements.read oracle options.iterations.toNat 1 0 memory = .ok (path, later))
    {limit : Int} (enough : (path.length + 2 : Nat) ≤ limit)
    (other : ((Player.runUntilComplete (.silent graph options oracle) limit).run
      (Player.initial options memory audience : Player τ σ χ)).2.state.path ≠
        0 :: path ++ [((1 + statements.size : Nat) : Int)]) :
    ¬RunsAsRead τ scorer source statements options oracle memory audience := by
  rintro ⟨program, passed, after, compiles, reads, runs⟩
  cases reading.symm.trans reads
  rcases runs limit enough with ⟨player, ran, _, isPath⟩
  rw [compiled program compiles] at ran
  rw [ran] at other
  exact other isPath

def longCaseSource : String := "Start\nWhile x\n    caſe 1\nEnd while\nEnd"

def longCaseStatements : Part (List Char) .statements :=
  .loop "While x".toList (.simple "    caſe 1".toList .done) "End while".toList .done

theorem isText_longCaseSource :
    IsText [[.text "else", .edge]] longCaseSource "Start".toList longCaseStatements
      "End".toList where
  rows := by decide
  first := ⟨by decide, by decide⟩
  starts := by decide
  written :=
    ⟨⟨by decide, by decide⟩, by decide, ⟨4, by decide, ⟨by decide, by decide⟩,
      ⟨⟨by decide, by decide, by decide⟩, by decide⟩, trivial⟩,
      ⟨by decide, by decide⟩, by decide, trivial⟩
  last := ⟨by decide, by decide⟩
  stops := by decide

def longCaseBlocks : List Block :=
  [⟨"Start", 0, .start, false, none⟩, ⟨"While x", 0, .loop, false, none⟩,
    ⟨"caſe 1", 0, .process, true, none⟩, ⟨"End while", 0, .process, true, none⟩,
    ⟨"End", 0, .stop, true, none⟩]

theorem longCaseSource_blocks :
    Program.tagCalls [] (completeConditionals (outline
      (Text.joinLines (Text.lines longCaseSource.toList)))) = longCaseBlocks := by
  decide +kernel

def undottedSource : String := "Start\nFunctıon f(x)\nEnd"

def undottedStatements : Part (List Char) .statements := .simple "Functıon f(x)".toList .done

theorem isText_undottedSource :
    IsText branchPhrases undottedSource "Start".toList undottedStatements "End".toList where
  rows := by decide
  first := ⟨by decide, by decide⟩
  starts := by decide
  written := ⟨⟨by decide, by decide⟩, ⟨⟨by decide, by decide, by decide⟩,
    by decide⟩, trivial⟩
  last := ⟨by decide, by decide⟩
  stops := by decide

theorem undottedSource_mainFlow :
    Procedure.mainFlow (Procedure.segments (Text.lines undottedSource.toList)) =
      ["Start".toList, "End".toList] := by
  have rows : Text.lines undottedSource.toList =
      ["Start".toList, "Functıon f(x)".toList, "End".toList] := by decide
  have noHeader : ∀ line ∈ ["Start".toList, "End".toList],
      Procedure.Header.read? line = none := by decide
  have header : (Procedure.Header.read? "Functıon f(x)".toList).isSome = true := by decide
  rcases Option.isSome_iff_exists.mp header with ⟨read, header⟩
  have after : Procedure.dropEnd (Outline.leadingWidth "Functıon f(x)".toList)
      (Procedure.takeBody (Outline.leadingWidth "Functıon f(x)".toList) none
        ["End".toList]).2 = ["End".toList] := by decide
  rw [rows, Procedure.segments, Procedure.segmentsFrom, noHeader _ (by simp)]
  simp only
  rw [Procedure.segmentsFrom, header]
  simp only [after]
  rw [Program.segmentsFrom_of_plain _ _ (by simpa using noHeader _ (by simp))]
  rfl

def undottedBlocks : List Block :=
  [⟨"Start", 0, .start, false, none⟩, ⟨"End", 0, .stop, true, none⟩]

theorem undottedSource_main (program : Program)
    (compiled : Program.compile .standard undottedSource = .ok program) :
    program.main = ofBlocks undottedBlocks := by
  rcases Program.of_compile compiled with ⟨extraction, extracted, main, _⟩
  have blocks : completeConditionals (outline (Text.joinLines ["Start".toList, "End".toList])) =
      undottedBlocks := by decide +kernel
  rw [main, Program.mainFlow_of_extract extracted, undottedSource_mainFlow, blocks,
    tagCalls_of_ne _ (by decide)]

/-- Neither the words of branches nor function headers may be left out of account. -/
theorem exists_texts_run_otherwise :
    (¬∀ (source : String) (start stop : List Char) (body : Part (List Char) .statements),
      IsText [[.text "else", .edge]] source start body stop →
        (∀ line ∈ Text.lines source.toList, Procedure.Header.read? line = none) →
          RunsAsRead Number .standard source (body.outlined 0).completed { iterations := 1 }
            Oracle.advising (.fixed (Oracle.ofBool true) 0) ()) ∧
    ¬∀ (source : String) (start stop : List Char) (body : Part (List Char) .statements),
      IsText branchPhrases source start body stop →
        RunsAsRead Number .standard source (body.outlined 0).completed { iterations := 1 }
          Oracle.advising (.fixed (Oracle.ofBool true) 0) () := by
  constructor
  · intro always
    have noHeader : ∀ line ∈ Text.lines longCaseSource.toList,
        Procedure.Header.read? line = none := by decide +kernel
    have compiled : ∀ program, Program.compile .standard longCaseSource = .ok program →
        program.main = ofBlocks longCaseBlocks := by
      intro program compiles
      rcases Program.compile_of_plain .standard longCaseSource noHeader with
        ⟨same, compiled, _, main⟩
      cases compiled.symm.trans compiles
      rw [main, longCaseSource_blocks]
    have reading : (longCaseStatements.outlined 0).completed.read Oracle.advising 1 1 0
        (.fixed (Oracle.ofBool true) 0) =
          .ok ([1, 2, 1, 3], .fixed (Oracle.ofBool true) 0) := rfl
    have enough : (([1, 2, 1, 3] : List Int).length + 2 : Nat) ≤ (20 : Int) := by decide
    refine not_runsAsRead compiled reading enough ?_
      (always longCaseSource _ _ _ isText_longCaseSource noHeader)
    decide +kernel
  · intro always
    have reading : (undottedStatements.outlined 0).completed.read Oracle.advising 1 1 0
        (.fixed (Oracle.ofBool true) 0) = .ok ([1], .fixed (Oracle.ofBool true) 0) := rfl
    have enough : (([1] : List Int).length + 2 : Nat) ≤ (20 : Int) := by decide
    refine not_runsAsRead undottedSource_main reading enough ?_
      (always undottedSource _ _ _ isText_undottedSource)
    decide +kernel

end Flowchart.Structured
