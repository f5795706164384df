import Flowchart.Graph.Builder
import Flowchart.Proofs.ImplicitElse.Complete
import Mathlib.Data.List.Basic

/-!
The wording of an else-if has no part in the flow graph.

Edges are drawn by the kinds and levels of blocks. A text tells end markers, labels the edge to a
case and says whether a return calls its own function, but no block of these is an else-if. Rows
that differ in the texts of their else-ifs alone have the same edges.
-/

namespace Flowchart

namespace Block

/-- The block without the text of an else-if. Any other block is left as it is. -/
def erased (block : Block) : Block :=
  if block.kind = .elseIf then { content := "", level := block.level, kind := .elseIf } else block

theorem erased_of_ne {block : Block} (other : block.kind ≠ .elseIf) : block.erased = block :=
  if_neg other

theorem view_erased {α : Type} (view : Block → α) {block : Block}
    (ofElseIf : block.kind = .elseIf →
      view { content := "", level := block.level, kind := .elseIf } = view block) :
    view block.erased = view block := by
  by_cases isElseIf : block.kind = .elseIf
  · rw [erased, if_pos isElseIf]
    exact ofElseIf isElseIf
  · rw [erased_of_ne isElseIf]

variable (block : Block)

@[simp]
theorem kind_erased : block.erased.kind = block.kind :=
  view_erased kind fun isElseIf => isElseIf.symm

@[simp]
theorem level_erased : block.erased.level = block.level :=
  view_erased level fun _ => rfl

@[simp]
theorem opensConditional_erased : block.erased.opensConditional = block.opensConditional :=
  view_erased opensConditional fun isElseIf => by simp [opensConditional, isElseIf]

@[simp]
theorem isBranch_erased : block.erased.isBranch = block.isBranch :=
  view_erased isBranch fun isElseIf => by simp [isBranch, isElseIf]

@[simp]
theorem isIfEnd_erased : block.erased.isIfEnd = block.isIfEnd :=
  view_erased isIfEnd fun isElseIf => by rw [isIfEnd, isIfEnd, isElseIf]; rfl

@[simp]
theorem isSwitchEnd_erased : block.erased.isSwitchEnd = block.isSwitchEnd :=
  view_erased isSwitchEnd fun isElseIf => by rw [isSwitchEnd, isSwitchEnd, isElseIf]; rfl

end Block

/-! ## Extents -/

namespace Extent

variable (base : Int) (index : Nat) (rest : List Block)

theorem markedConditional_erased (depth : Nat) :
    markedConditional base depth index (rest.map Block.erased) =
      markedConditional base depth index rest := by
  induction rest generalizing depth index with
  | nil => rfl
  | cons block rest induction =>
      simp only [List.map_cons, markedConditional, Block.kind_erased, Block.level_erased,
        Block.opensConditional_erased, Block.isIfEnd_erased, Block.isBranch_erased, induction]

theorem indentedConditional_erased :
    indentedConditional base index (rest.map Block.erased) =
      indentedConditional base index rest := by
  induction rest generalizing index with
  | nil => rfl
  | cons block rest induction =>
      rw [List.map_cons, indentedConditional, indentedConditional]
      simp only [Block.kind_erased, Block.level_erased, Block.isBranch_erased, induction]

theorem markedSwitch_erased (depth : Nat) :
    markedSwitch base depth index (rest.map Block.erased) = markedSwitch base depth index rest := by
  induction rest generalizing depth index with
  | nil => rfl
  | cons block rest induction =>
      simp only [List.map_cons, markedSwitch, Block.kind_erased, Block.level_erased,
        Block.isSwitchEnd_erased, induction]

theorem indentedSwitch_erased (caseLevel : Option Int) :
    indentedSwitch base caseLevel index (rest.map Block.erased) =
      indentedSwitch base caseLevel index rest := by
  induction rest generalizing caseLevel index with
  | nil => rfl
  | cons block rest induction =>
      rw [List.map_cons, indentedSwitch, indentedSwitch]
      simp only [Block.kind_erased, Block.level_erased, induction]

theorem bodyLength_erased : bodyLength base (rest.map Block.erased) = bodyLength base rest := by
  rw [bodyLength, bodyLength, List.takeWhile_map, List.length_map]
  simp only [Function.comp_def, Block.kind_erased, Block.level_erased]

end Extent

variable (blocks : List Block) (start : Nat)

theorem conditionalExtent_erased :
    conditionalExtent (blocks.map Block.erased) start = conditionalExtent blocks start := by
  rw [conditionalExtent, conditionalExtent, ← List.map_drop]
  cases blocks.drop start with
  | nil => rfl
  | cons opener rest =>
      simp only [List.map_cons, Extent.ofConditional, Block.level_erased,
        Extent.markedConditional_erased, Extent.indentedConditional_erased]

theorem switchExtent_erased :
    switchExtent (blocks.map Block.erased) start = switchExtent blocks start := by
  rw [switchExtent, switchExtent, ← List.map_drop]
  cases blocks.drop start with
  | nil => rfl
  | cons opener rest =>
      simp only [List.map_cons, Extent.ofSwitch, Block.level_erased, Extent.markedSwitch_erased,
        Extent.indentedSwitch_erased]

theorem loopExtent_erased :
    loopExtent (blocks.map Block.erased) start = loopExtent blocks start := by
  rw [loopExtent, loopExtent, ← List.map_drop]
  cases blocks.drop start with
  | nil => rfl
  | cons opener rest =>
      simp only [List.map_cons, Extent.ofLoop, Block.level_erased, Extent.bodyLength_erased,
        List.length_map]

/-! ## Completed rows -/

namespace ImplicitElse

theorem missing_erased : missing (blocks.map Block.erased) = missing blocks := by
  rw [missing, missing, List.zipIdx_map, List.filterMap_map]
  simp only [Function.comp_def, Prod.map, id_eq, Block.opensConditional_erased,
    Block.level_erased, conditionalExtent_erased, List.length_map]

theorem map_erased_before (index : Nat) :
    (before (missing blocks) index).map Block.erased = before (missing blocks) index := by
  have same : ∀ branch ∈ before (missing blocks) index, branch.erased = id branch := by
    intro branch member
    have implicit := allImplicit_missing blocks _ (mem_before.mp member)
    apply Block.erased_of_ne
    rw [implicit]
    decide
  rw [List.map_congr_left same, List.map_id]

end ImplicitElse

theorem completeConditionals_erased :
    completeConditionals (blocks.map Block.erased) =
      (completeConditionals blocks).map Block.erased := by
  rw [completeConditionals, completeConditionals, ImplicitElse.missing_erased, List.length_map,
    List.map_append, ImplicitElse.map_erased_before, List.zipIdx_map, List.flatMap_map,
    List.map_flatMap]
  simp only [Prod.map, id_eq, List.map_append, ImplicitElse.map_erased_before, List.map_cons,
    List.map_nil]

/-! ## Cases -/

namespace Extent

def FindsCases (index : Nat) (rest : List Block) (cases : List Nat) : Prop :=
  ∀ place ∈ cases, ∃ offset block, place = index + offset ∧ rest[offset]? = some block ∧
    block.kind = .case

variable {index : Nat} {rest : List Block} {cases : List Nat} {block : Block}

theorem FindsCases.nil : FindsCases index rest [] := by
  intro place member
  cases member

theorem FindsCases.later (finds : FindsCases (index + 1) rest cases) :
    FindsCases index (block :: rest) cases := by
  intro place member
  obtain ⟨offset, found, rfl, isFound, isCase⟩ := finds place member
  exact ⟨offset + 1, found, by omega, isFound, isCase⟩

theorem FindsCases.cons (finds : FindsCases (index + 1) rest cases) (isCase : block.kind = .case) :
    FindsCases index (block :: rest) (index :: cases) := by
  intro place member
  rcases List.mem_cons.mp member with rfl | member
  · exact ⟨0, block, rfl, rfl, isCase⟩
  · exact finds.later place member

theorem findsCases_markedSwitch (base : Int) (rest : List Block) :
    ∀ {depth index : Nat} {cases : List Nat} {marker : Nat},
      markedSwitch base depth index rest = some (cases, marker) → FindsCases index rest cases := by
  induction rest with
  | nil =>
      intro depth index cases marker found
      cases found
  | cons block rest induction =>
      intro depth index cases marker found
      unfold markedSwitch at found
      split at found
      · cases found
      split at found
      · exact (induction found).later
      split at found
      · cases depth with
        | zero =>
            cases found
            exact .nil
        | succ depth => exact (induction found).later
      · obtain ⟨⟨inner, stop⟩, foundInner, equal⟩ := Option.map_eq_some_iff.mp found
        cases equal
        split
        · rename_i own
          exact (induction foundInner).cons own.2
        · exact (induction foundInner).later

theorem findsCases_indentedSwitch (base : Int) (caseLevel : Option Int) (index : Nat)
    (rest : List Block) : FindsCases index rest (indentedSwitch base caseLevel index rest).1 := by
  induction rest generalizing caseLevel index with
  | nil => exact .nil
  | cons block rest induction =>
      rw [indentedSwitch]
      split
      · exact .nil
      split
      · rename_i own
        exact (induction _ (index + 1)).cons own.1
      split
      · exact .nil
      · exact (induction _ (index + 1)).later

end Extent

theorem exists_case_of_mem_switchExtent {branch : Nat}
    (member : branch ∈ (switchExtent blocks start).branches) :
    ∃ block, blocks[branch]? = some block ∧ block.kind = .case := by
  cases suffix : blocks.drop start with
  | nil =>
      rw [switchExtent, suffix] at member
      cases member
  | cons opener rest =>
      have finds : Extent.FindsCases (start + 1) rest (switchExtent blocks start).branches := by
        rw [switchExtent, suffix]
        simp only [Extent.ofSwitch]
        split
        · rename_i found
          exact Extent.findsCases_markedSwitch opener.level rest found
        · exact Extent.findsCases_indentedSwitch opener.level none (start + 1) rest
      obtain ⟨offset, block, rfl, found, isCase⟩ := finds branch member
      refine ⟨block, ?_, isCase⟩
      rw [Nat.add_assoc, ← List.getElem?_drop, suffix, Nat.add_comm 1, List.getElem?_cons_succ,
        found]

/-! ## Graphs -/

namespace Graph

theorem opened?_erased (block : Block) :
    Construct.opened? (blocks.map Block.erased) start block.erased =
      Construct.opened? blocks start block := by
  simp only [Construct.opened?, Block.opensConditional_erased, Block.kind_erased,
    conditionalExtent_erased, switchExtent_erased, loopExtent_erased]

namespace Plan

variable (functionName : Option String) (scopes : Scopes) (index : Nat) (block : Block)

theorem blocks_ofBlocks : (ofBlocks blocks functionName).blocks = blocks :=
  rfl

theorem constructs_erased :
    (ofBlocks (blocks.map Block.erased) functionName).constructs =
      (ofBlocks blocks functionName).constructs := by
  simp only [ofBlocks, List.zipIdx_map, List.filterMap_map, Function.comp_def, Prod.map, id_eq,
    opened?_erased]

theorem owner?_erased :
    (ofBlocks (blocks.map Block.erased) functionName).owner? index =
      (ofBlocks blocks functionName).owner? index := by
  rw [owner?, owner?, constructs_erased]

theorem size_erased :
    (ofBlocks (blocks.map Block.erased) functionName).size =
      (ofBlocks blocks functionName).size :=
  List.length_map _

theorem firstCondition?_erased :
    (ofBlocks (blocks.map Block.erased) functionName).firstCondition? =
      (ofBlocks blocks functionName).firstCondition? := by
  simp only [firstCondition?, ofBlocks, List.findIdx?_map, Function.comp_def,
    Block.opensConditional_erased]

theorem switchBlock_erased :
    (ofBlocks (blocks.map Block.erased) functionName).switchBlock scopes index =
      (ofBlocks blocks functionName).switchBlock scopes index := by
  have labels : ∀ branch ∈ (switchExtent blocks index).branches,
      (blocks.map Block.erased)[branch]?.map Block.content =
        blocks[branch]?.map Block.content := by
    intro branch member
    obtain ⟨block, found, isCase⟩ := exists_case_of_mem_switchExtent blocks index member
    rw [List.getElem?_map, found, Option.map_some, Block.erased_of_ne]
    rw [isCase]
    decide
  rw [switchBlock, switchBlock, blocks_ofBlocks, blocks_ofBlocks, switchExtent_erased, size_erased]
  congr 1
  split
  · rfl
  · apply List.flatMap_congr
    intro branch member
    exact congrArg (edgeWithin _ scopes index (some branch) .case) (labels branch member)

theorem callsItself_erased :
    (ofBlocks (blocks.map Block.erased) functionName).callsItself =
      (ofBlocks blocks functionName).callsItself :=
  rfl

theorem contribution_erased :
    (ofBlocks (blocks.map Block.erased) functionName).contribution scopes index block.erased =
      (ofBlocks blocks functionName).contribution scopes index block := by
  have condition : (ofBlocks (blocks.map Block.erased) functionName).conditionBlock scopes index =
      (ofBlocks blocks functionName).conditionBlock scopes index := by
    rw [conditionBlock, conditionBlock, blocks_ofBlocks, blocks_ofBlocks,
      conditionalExtent_erased, size_erased]
  have branch : (ofBlocks (blocks.map Block.erased) functionName).branchBlock scopes index
      block.erased = (ofBlocks blocks functionName).branchBlock scopes index block := by
    simp only [branchBlock, size_erased, owner?_erased, Block.kind_erased]
  have loop : (ofBlocks (blocks.map Block.erased) functionName).loopBlock scopes index =
      (ofBlocks blocks functionName).loopBlock scopes index := by
    rw [loopBlock, loopBlock, blocks_ofBlocks, blocks_ofBlocks, loopExtent_erased, size_erased]
  simp only [contribution, Block.kind_erased, Block.opensConditional_erased,
    Block.isBranch_erased, owner?_erased, condition, branch, switchBlock_erased, loop, size_erased]
  -- Only a return is read again, for the calls in its text.
  by_cases isReturn : block.kind = .return
  · have same : block.erased = block := Block.erased_of_ne (by rw [isReturn]; decide)
    simp only [same, returnBlock, size_erased, callsItself_erased, firstCondition?_erased]
  · simp only [isReturn, if_false]

theorem edgesFrom_erased (pending : List Edge) (rest : List Block) :
    (ofBlocks (blocks.map Block.erased) functionName).edgesFrom scopes pending index
        (rest.map Block.erased) =
      (ofBlocks blocks functionName).edgesFrom scopes pending index rest := by
  induction rest generalizing scopes pending index with
  | nil => rfl
  | cons block rest induction =>
      rw [List.map_cons, edgesFrom, edgesFrom, contribution_erased]
      simp only [induction]

end Plan

/-- The text of an else-if has no part in the edges. -/
theorem edges_erased (functionName : Option String) :
    (ofBlocks (blocks.map Block.erased) functionName).edges =
      (ofBlocks blocks functionName).edges :=
  Plan.edgesFrom_erased blocks functionName [] 0 [] blocks

end Graph

end Flowchart
