import Flowchart.Proofs.Graph.LoopEdges
import Flowchart.Proofs.Program.Compiled

/-!
Which blocks leave the body of a loop.

A body ought to be left only from its last block. The block that ends an inner loop is free to go
on, whatever loops lie further out, so that an outer loop may be left there as well. That is the
only way in which a body is left early.
-/

namespace Flowchart.Graph

/-- Whether an edge may leave loops at any place: a recursive edge, or one of a return. -/
def Leaves (graph : Graph) (edge : Edge) : Prop :=
  edge.kind = .recursive ∨ ∃ block, graph.block? edge.source = some block ∧ block.kind = .return

def LeavesLoopsAtLast (graph : Graph) : Prop :=
  ∀ loop close, IsLoop graph.blocks loop → (loopExtent graph.blocks loop).close = some close →
    ∀ edge ∈ graph.edges, ¬graph.Leaves edge →
      (loop : Int) < edge.source → edge.source < close → close ≤ edge.target →
        ∃ last : Nat, (loopExtent graph.blocks loop).last = some last ∧ edge.source = last

/-- The end of an inner loop does not lead out of an outer one that goes on behind it. -/
def KeepsInnerEnds (graph : Graph) : Prop :=
  ∀ outer inner close last, IsLoop graph.blocks outer → IsLoop graph.blocks inner →
    (loopExtent graph.blocks outer).close = some close →
    (loopExtent graph.blocks inner).last = some last →
    outer < inner → inner < close → (loopExtent graph.blocks outer).last ≠ some last →
      ∀ edge ∈ graph.edges, ¬graph.Leaves edge → edge.source = (last : Int) → edge.target < close

section

variable {blocks : List Block} {loop close : Nat}

theorem close_eq (isLoop : IsLoop blocks loop)
    (closed : (loopExtent blocks loop).close = some close) : close = bodyEnd blocks loop + 1 := by
  rw [loopExtent_close isLoop] at closed
  split at closed
  · cases closed
    rfl
  · cases closed

theorem last_eq_iff {last : Nat} (isLoop : IsLoop blocks loop) :
    (loopExtent blocks loop).last = some last ↔
      loop < bodyEnd blocks loop ∧ last = bodyEnd blocks loop := by
  have bound := le_bodyEnd blocks loop
  rw [loopExtent_last isLoop]
  split
  · simp
    omega
  · simp only [Option.some.injEq]
    omega

end

/-- Bodies are left only from their last blocks exactly if no inner loop ends with an edge that
leads out of a loop around it. -/
theorem leavesLoopsAtLast_iff (blocks : List Block) (functionName : Option String) :
    (ofBlocks blocks functionName).LeavesLoopsAtLast ↔
      (ofBlocks blocks functionName).KeepsInnerEnds := by
  simp only [LeavesLoopsAtLast, KeepsInnerEnds, ofBlocks_blocks]
  constructor
  · intro leavesAtLast outer inner close last isOuter isInner closed ends order before different
      edge member bound source
    rcases (last_eq_iff isInner).mp ends with ⟨nonempty, rfl⟩
    have isClose := close_eq isOuter closed
    have inside : InBody blocks outer inner := ⟨isOuter, order, by omega⟩
    have nested := inside.bodyEnd_le
    by_cases stays : edge.target < close
    · exact stays
    · rcases leavesAtLast outer close isOuter closed edge member bound (by omega) (by omega)
        (by omega) with ⟨final, isLast, isFinal⟩
      cases Int.natCast_inj.mp (source.symm.trans isFinal)
      exact absurd isLast different
  · intro keeps loop close isLoop closed edge member bound after before leaves
    have isClose := close_eq isLoop closed
    have plain : edge.kind ≠ .recursive := fun kind => bound (.inl kind)
    rcases onward_or_back member plain with ⟨source, target, isSource, isTarget, small, _, _⟩
    have inside : InBody blocks loop source := ⟨isLoop, by omega, by omega⟩
    have stays : ∀ block, blocks[source]? = some block → block.kind ≠ .return := by
      intro block found returns
      refine bound (.inr ⟨block, ?_, returns⟩)
      rw [isSource, block?, if_neg (by omega), Int.toNat_natCast]
      exact found
    rcases bodyEnd_of_leaving member plain isSource stays inside (by omega) with
      ⟨innermost, around, ends, greatest⟩
    have nonempty := around.after
    have isInnerLast : (loopExtent blocks innermost).last = some source :=
      (last_eq_iff around.isLoop).mpr ⟨by omega, ends.symm⟩
    refine ⟨source, ?_, isSource⟩
    rcases Nat.lt_or_eq_of_le (greatest loop inside) with order | rfl
    · by_cases same : (loopExtent blocks loop).last = some source
      · exact same
      · have kept := keeps loop innermost close source isLoop around.isLoop closed isInnerLast order
          (by omega) same edge member bound isSource
        omega
    · exact isInnerLast

/-! ## An outer loop that is left early -/

def innerLoopEndsBranch : String :=
  "Start\nWhile a\n    If b\n        While c\n            Output x\nEnd"

theorem innerLoopEndsBranch_blocks :
    Program.tagCalls [] (completeConditionals (outline
      (Text.joinLines (Text.lines innerLoopEndsBranch.toList)))) =
      [⟨"Start", 0, .start, false, none⟩, ⟨"While a", 0, .loop, false, none⟩,
        ⟨"If b", 1, .condition, false, none⟩, ⟨"While c", 2, .loop, false, none⟩,
        ⟨"Output x", 3, .output, false, none⟩, ⟨"No", 1, .implicitElse, true, none⟩,
        ⟨"End", 0, .stop, true, none⟩] := by
  decide +kernel

/-- The last block of the inner loop leads out of both loops, though a branch of the outer body is
still to come. -/
theorem exists_loop_left_early :
    ¬∀ (scorer : Recursion.Scorer) (source : String) (program : Program),
      Program.compile scorer source = .ok program →
        ∀ graph ∈ program.graphs, graph.LeavesLoopsAtLast := by
  intro always
  rcases Program.compile_of_plain .standard innerLoopEndsBranch (by decide +kernel) with
    ⟨program, compiled, _, main⟩
  have holds := always .standard innerLoopEndsBranch program compiled program.main
    List.mem_cons_self
  rw [main, innerLoopEndsBranch_blocks] at holds
  rcases holds 1 6 (by decide) (by decide) { source := 4, target := 6 } (by decide +kernel)
    (by
      rintro (recursive | ⟨block, found, returns⟩)
      · cases recursive
      · cases found
        cases returns)
    (by decide) (by decide) (by decide) with ⟨last, isLast, isSource⟩
  cases isLast
  cases isSource

end Flowchart.Graph
