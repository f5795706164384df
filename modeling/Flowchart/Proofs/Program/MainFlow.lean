import Flowchart.Proofs.Block.Keyword
import Flowchart.Proofs.Graph.Onward
import Flowchart.Proofs.ImplicitElse.Complete
import Flowchart.Proofs.Program.Compiled

/-!
The main flow of a compiled program.

No line of a text is an implicit else, so those of the main flow are the ones that completed its
conditionals. Marking calls does not change what the blocks look like to a search, and each implicit
else is still a branch of a conditional.
-/

namespace Flowchart

/-! ## Marked calls -/

def Block.marked (mark : Block → Option Bool) (block : Block) : Block :=
  { block with recursiveCall := mark block }

theorem Program.exists_marked (recursive : List String) (blocks : List Block) :
    ∃ mark, Program.tagCalls recursive blocks = blocks.map (Block.marked mark) := by
  refine ⟨fun block => if block.kind = .call then
    some (((Call.callee? block.content.toList).map String.ofList).any fun callee =>
      recursive.contains (Call.plainName (some callee))) else block.recursiveCall, ?_⟩
  apply List.map_congr_left
  intro block _
  rw [Block.marked]
  split
  · rfl
  · rfl

section

variable (mark : Block → Option Bool)

theorem Extent.markedConditional_marked (base : Int) (rest : List Block) :
    ∀ depth index, markedConditional base depth index (rest.map (Block.marked mark)) =
      markedConditional base depth index rest := by
  induction rest with
  | nil =>
      intro depth index
      rfl
  | cons block rest induction =>
      intro depth index
      rw [List.map_cons, markedConditional.eq_def, markedConditional.eq_def base depth index]
      simp only [induction]
      rfl

theorem Extent.indentedConditional_marked (base : Int) (rest : List Block) :
    ∀ index, indentedConditional base index (rest.map (Block.marked mark)) =
      indentedConditional base index rest := by
  induction rest with
  | nil =>
      intro index
      rfl
  | cons block rest induction =>
      intro index
      rw [List.map_cons, indentedConditional, indentedConditional]
      simp only [induction]
      rfl

theorem conditionalExtent_marked (blocks : List Block) (start : Nat) :
    conditionalExtent (blocks.map (Block.marked mark)) start = conditionalExtent blocks start := by
  rw [conditionalExtent, conditionalExtent, ← List.map_drop]
  cases blocks.drop start with
  | nil => rfl
  | cons opener rest =>
      simp only [List.map_cons, Extent.ofConditional, Extent.markedConditional_marked,
        Extent.indentedConditional_marked]
      rfl

theorem isConditional_marked {blocks : List Block} {index : Nat} :
    IsConditional (blocks.map (Block.marked mark)) index ↔ IsConditional blocks index := by
  rw [IsConditional, IsConditional, List.getElem?_map, Option.any_map]
  rfl

end

/-! ## Implicit elses -/

theorem Block.Kind.ofLine_ne_implicitElse (line : List Char) : ofLine line ≠ .implicitElse := by
  intro implicit
  rcases exists_keyword implicit (by simp) with ⟨phrases, member, _⟩
  have none : ∀ row ∈ keywords, row.1 ≠ .implicitElse := by decide
  exact none _ member rfl

theorem kind_ne_implicitElse_of_mem_outline {text : List Char} {block : Block}
    (member : block ∈ outline text) : block.kind ≠ .implicitElse := by
  have lines : ∀ (lines : List (List Char)) (ladder : Outline.Ladder),
      ∀ block ∈ Outline.blocksFrom ladder lines, block.kind ≠ .implicitElse := by
    intro lines
    induction lines with
    | nil =>
        intro ladder block member
        cases member
    | cons line rest induction =>
        intro ladder block member
        simp only [Outline.blocksFrom] at member
        split at member
        · exact induction ladder block member
        · cases List.mem_cons.mp member with
          | inl same =>
              rw [same]
              exact Block.Kind.ofLine_ne_implicitElse _
          | inr later => exact induction _ block later
  exact lines _ _ block member

namespace Graph

theorem owner?_isSome_of_mem {blocks : List Block} {start index : Nat}
    (functionName : Option String) (conditional : IsConditional blocks start)
    (member : index ∈ (conditionalExtent blocks start).branches) :
    ((Plan.ofBlocks blocks functionName).owner? index).isSome := by
  rcases isConditional_iff.mp conditional with ⟨opener, found, opens⟩
  rw [Plan.owner?, List.findSome?_isSome_iff]
  refine ⟨.conditional (conditionalExtent blocks start), ?_, ?_⟩
  · apply List.mem_filterMap.mpr
    refine ⟨(opener, start), List.mem_zipIdx_iff_getElem?.mpr found, ?_⟩
    simp only [Construct.opened?, opens, if_true]
  · simp only [Construct.branchExtent?, Option.filter_some]
    rw [if_pos (by simpa using member)]
    rfl

theorem owned_marked_completeConditionals {blocks : List Block}
    (plain : ∀ block ∈ blocks, block.kind ≠ .implicitElse) (mark : Block → Option Bool) :
    Owned ((completeConditionals blocks).map (Block.marked mark)) none := by
  intro index block found implicit
  rw [List.getElem?_map, Option.map_eq_some_iff] at found
  rcases found with ⟨written, found, rfl⟩
  have added : written ∉ blocks := fun member => plain written member implicit
  rcases ImplicitElse.exists_owner found added with ⟨start, conditional, member⟩
  apply owner?_isSome_of_mem none ((isConditional_marked mark).mpr conditional)
  rw [conditionalExtent_marked]
  exact member

end Graph

theorem Program.owned_main {scorer : Recursion.Scorer} {source : String} {program : Program}
    (compiled : Program.compile scorer source = .ok program) :
    Graph.Owned program.main.blocks none := by
  rcases Program.of_compile compiled with ⟨extraction, _, main, _⟩
  rcases Program.exists_marked (Program.recursiveNames extraction.procedures)
    (completeConditionals (outline extraction.mainFlow)) with ⟨mark, marked⟩
  rw [main, marked]
  exact Graph.owned_marked_completeConditionals
    (fun block member => kind_ne_implicitElse_of_mem_outline member) mark

end Flowchart
