import Flowchart.Proofs.Program.MainFlow

/-!
Decisions in completed rows.

A row that ends with an end still does so when its conditionals are completed. There every construct
ends inside the row, so no edge is lost: a decision has one edge for yes and one for no, whichever
of them is turned back to a loop, and only an end has no way out.
-/

namespace Flowchart

open ImplicitElse

theorem EndsWithStop.before_length {blocks : List Block} (ends : EndsWithStop blocks) :
    before (missing blocks) blocks.length = [] := by
  rw [List.eq_nil_iff_forall_not_mem]
  intro branch member
  rcases mem_missing.mp (mem_before.mp member) with ⟨index, conditional, _, same⟩
  rcases ends.conditional conditional with ⟨stop, isStop, inside⟩
  have atEnd : blocks.length = conditionalEnd blocks index := (Prod.mk.inj same).1
  rw [conditionalEnd, isStop, Option.getD_some] at atEnd
  omega

theorem EndsWithStop.completeConditionals {blocks : List Block} (ends : EndsWithStop blocks) :
    EndsWithStop (completeConditionals blocks) := by
  rcases ends.last with ⟨last, found, isStop⟩
  have bound := (List.getElem?_eq_some_iff.mp found).1
  have behind : blocks.length - 1 + 1 = blocks.length := by omega
  rcases exists_fill_cons (missing blocks) found with ⟨earlier, filled, _⟩
  rw [behind, List.drop_length, fill, ends.before_length] at filled
  rw [EndsWithStop, completeConditionals_eq_fill, filled, List.getLast?_concat, Option.map_some,
    isStop]

namespace Graph

def DecidesAt (graph : Graph) (index : Nat) : Prop :=
  (graph.outgoing index).countP (fun edge => edge.kind = .yes) = 1 ∧
    (graph.outgoing index).countP (fun edge => edge.kind = .no) = 1

instance (graph : Graph) (index : Nat) : Decidable (graph.DecidesAt index) :=
  inferInstanceAs (Decidable (_ ∧ _))

section

variable {blocks : List Block} {functionName : Option String} {index : Nat}

theorem map_kind_edgeWithin {size source target : Nat} {scopes : Scopes} {kind : Edge.Kind}
    (label : Option String) (small : target < size) (typed : kind ≠ .default) :
    (edgeWithin size scopes source (some target) kind label).map Edge.kind = [kind] := by
  simp only [edgeWithin, if_pos small]
  split
  · rfl
  · rw [if_neg typed]
    rfl

theorem map_kind_answers {size source : Nat} {scopes : Scopes} {yes no : Option Nat}
    (leadsYes : ∃ target, yes = some target ∧ target < size)
    (leadsNo : ∃ target, no = some target ∧ target < size) :
    (edgeWithin size scopes source yes .yes none ++
      edgeWithin size scopes source no .no none).map Edge.kind = [.yes, .no] := by
  rcases leadsYes with ⟨yesTarget, rfl, yesInside⟩
  rcases leadsNo with ⟨noTarget, rfl, noInside⟩
  rw [List.map_append, map_kind_edgeWithin none yesInside (by simp),
    map_kind_edgeWithin none noInside (by simp)]
  rfl

theorem decidesAt_of_edgesAt (bound : index < blocks.length)
    (own : ((Plan.ofBlocks blocks functionName).edgesAt index).map Edge.kind = [.yes, .no]) :
    (ofBlocks blocks functionName).DecidesAt index := by
  have once : ∀ kind : Edge.Kind, kind ≠ .loopBack →
      ((ofBlocks blocks functionName).outgoing (index : Int)).countP
        (fun edge => edge.kind = kind) = [Edge.Kind.yes, .no].countP (· = kind) := by
    intro kind onward
    have back : ((Plan.ofBlocks blocks functionName).repetitionsAt index).countP
        (fun edge => edge.kind = kind) = 0 := by
      refine List.countP_eq_zero.mpr fun edge member => ?_
      rcases (Plan.mem_repetitionsAt _).mp member with ⟨_, _, _, _, rfl⟩
      simpa using onward.symm
    rw [outgoing_ofBlocks blocks functionName bound, List.countP_append, back, Nat.add_zero, ← own,
      List.countP_map]
    rfl
  exact ⟨once .yes (by simp), once .no (by simp)⟩

theorem exists_nextBoundary {extent : BranchExtent} {stop size : Nat} (ordered : extent.Ordered)
    (isStop : extent.stop = some stop) (inside : stop < size) (index : Nat) :
    ∃ boundary, extent.nextBoundary index = some boundary ∧ boundary < size := by
  cases next : extent.nextBoundary index with
  | none =>
      unfold BranchExtent.nextBoundary at next
      split at next
      · cases next
      · cases next.symm.trans isStop
  | some boundary =>
      exact ⟨boundary, rfl, Nat.lt_of_le_of_lt (ordered.nextBoundary_le next isStop) inside⟩

/-! ## Decisions -/

theorem decidesAt_of_isConditional (ends : EndsWithStop blocks)
    (conditional : IsConditional blocks index) :
    (ofBlocks blocks functionName).DecidesAt index := by
  rcases isConditional_iff.mp conditional with ⟨opener, found, opens⟩
  have running : opener.kind ≠ .stop := by
    rw [Block.kind_of_opensConditional opens]
    simp
  have room := ends.succ_lt found running
  have closed := Plan.closed_scopesAt functionName index ends
  rcases ends.conditional conditional with ⟨stop, isStop, inside⟩
  rcases Scopes.resolve_lt _ closed inside with ⟨final, resolved, small⟩
  rcases exists_nextBoundary (conditionalExtent_ordered blocks index) isStop inside index with
    ⟨first, next, firstInside⟩
  have known : (Plan.ofBlocks blocks functionName).blocks[index]? = some opener := found
  have same : (Plan.ofBlocks blocks functionName).blocks = blocks := rfl
  have own : (Plan.ofBlocks blocks functionName).edgesAt index =
      ((Plan.ofBlocks blocks functionName).conditionBlock
        ((Plan.ofBlocks blocks functionName).scopesAt index) index).edges := by
    simp [Plan.edgesAt, known, Plan.contribution, running, opens]
  apply decidesAt_of_edgesAt (Nat.lt_of_succ_lt room)
  simp only [own, Plan.conditionBlock, same, isStop, resolved, next]
  apply map_kind_answers
  · split
    · exact ⟨final, rfl, small⟩
    · exact ⟨index + 1, rfl, room⟩
  · split
    · exact ⟨final, rfl, small⟩
    · exact ⟨first, rfl, firstInside⟩

theorem decidesAt_of_elseIf (ends : EndsWithStop blocks) {block : Block}
    (found : blocks[index]? = some block) (isElseIf : block.kind = .elseIf)
    (owned : ((Plan.ofBlocks blocks functionName).owner? index).isSome) :
    (ofBlocks blocks functionName).DecidesAt index := by
  rcases Option.isSome_iff_exists.mp owned with ⟨extent, owner⟩
  have branching := (Plan.branching_of_owner? blocks functionName owner).1
  have room := ends.succ_lt found (by simp [isElseIf])
  rcases branching.closed ends with ⟨stop, isStop, inside⟩
  rcases exists_nextBoundary branching.ordered isStop inside index with
    ⟨following, next, followingInside⟩
  have opened : ∀ scope ∈ Scope.branch extent (some following) ::
      (Plan.ofBlocks blocks functionName).scopesAt index, scope.Closed blocks.length := by
    intro scope member
    cases List.mem_cons.mp member with
    | inl same => exact same ▸ ⟨stop, isStop, inside⟩
    | inr outer => exact Plan.closed_scopesAt functionName index ends scope outer
  rcases Scopes.resolve_lt _ opened room with ⟨target, resolved, small⟩
  rcases Scopes.resolve_lt _ opened inside with ⟨final, resolvedStop, finalInside⟩
  have known : (Plan.ofBlocks blocks functionName).blocks[index]? = some block := found
  have own : (Plan.ofBlocks blocks functionName).edgesAt index =
      ((Plan.ofBlocks blocks functionName).branchBlock
        ((Plan.ofBlocks blocks functionName).scopesAt index) index block).edges := by
    simp [Plan.edgesAt, known, Plan.contribution, isElseIf, Block.opensConditional, Block.isBranch]
  apply decidesAt_of_edgesAt (Nat.lt_of_succ_lt room)
  simp only [own, Plan.branchBlock, isElseIf, reduceCtorEq, if_false, if_true, owner, next, isStop,
    resolved, resolvedStop, Option.bind_some, Option.map_some, Option.toList_some,
    List.singleton_append, Plan.edgeWithin_branch_cons]
  apply map_kind_answers
  · exact ⟨target, rfl, small⟩
  · split
    · exact ⟨final, rfl, finalInside⟩
    · exact ⟨following, rfl, followingInside⟩

/-! ## Completed rows -/

theorem owned_completeConditionals (functionName : Option String)
    (plain : ∀ block ∈ blocks, block.kind ≠ .implicitElse) :
    Owned (completeConditionals blocks) functionName := by
  intro index block found implicit
  have added : block ∉ blocks := fun member => plain block member implicit
  rcases exists_owner found added with ⟨start, conditional, member⟩
  exact owner?_isSome_of_mem functionName conditional member

end

/-- In the graph of a completed row that ends with an end, every block but an end has a way out, and
every conditional and every else-if that is a branch of one has exactly one edge for yes and one for
no. -/
theorem decisions_completeConditionals (blocks : List Block) (functionName : Option String)
    (plain : ∀ block ∈ blocks, block.kind ≠ .implicitElse) (ends : EndsWithStop blocks) :
    (∀ (index : Nat) (block : Block), (completeConditionals blocks)[index]? = some block →
      block.kind ≠ .stop →
      (ofBlocks (completeConditionals blocks) functionName).outgoing (index : Int) ≠ []) ∧
    (∀ index, IsConditional (completeConditionals blocks) index →
      (ofBlocks (completeConditionals blocks) functionName).DecidesAt index) ∧
    ∀ (start index : Nat) (block : Block), IsConditional (completeConditionals blocks) start →
      index ∈ (conditionalExtent (completeConditionals blocks) start).branches →
      (completeConditionals blocks)[index]? = some block → block.kind = .elseIf →
        (ofBlocks (completeConditionals blocks) functionName).DecidesAt index := by
  have completed := ends.completeConditionals
  refine ⟨?_, fun index conditional => decidesAt_of_isConditional completed conditional, ?_⟩
  · intro index block found running
    have owned := owned_completeConditionals functionName plain
    cases forward_or_turnedBack completed owned found running with
    | inl onward => exact fun none => onward (by rw [forward, none, List.filter_nil])
    | inr back =>
        rcases back with ⟨edge, member, _⟩
        exact List.ne_nil_of_mem member
  · intro start index block conditional member found isElseIf
    exact decidesAt_of_elseIf completed found isElseIf
      (owner?_isSome_of_mem functionName conditional member)

def answersInLoop : List Block :=
  [{ content := "While a", kind := .loop },
    { content := "If b", level := 1, kind := .condition },
    { content := "If c", level := 2, kind := .condition },
    { content := "Output x", level := 3, kind := .output },
    { content := "Elif d", level := 1, kind := .elseIf },
    { content := "End", kind := .stop, closing := true }]

theorem decisions_completeConditionals_answersInLoop :
    (∀ block ∈ answersInLoop, block.kind ≠ .implicitElse) ∧ EndsWithStop answersInLoop ∧
    completeConditionals answersInLoop =
      answersInLoop.take 4 ++ ImplicitElse.block 2 :: answersInLoop.drop 4 ∧
    (ofBlocks (completeConditionals answersInLoop)).outgoing 4 ≠ [] ∧
    (ofBlocks (completeConditionals answersInLoop)).DecidesAt 2 ∧
    (ofBlocks (completeConditionals answersInLoop)).DecidesAt 5 := by
  have plain : ∀ block ∈ answersInLoop, block.kind ≠ .implicitElse := by decide
  have ends : EndsWithStop answersInLoop := by decide
  have filled : completeConditionals answersInLoop =
      answersInLoop.take 4 ++ ImplicitElse.block 2 :: answersInLoop.drop 4 := by decide +kernel
  rcases decisions_completeConditionals answersInLoop none plain ends with
    ⟨wayOut, conditionals, elseIfs⟩
  refine ⟨plain, ends, filled, ?_, ?_, ?_⟩
  · exact wayOut 4 (ImplicitElse.block 2) (by rw [filled]; rfl) (by decide)
  · exact conditionals 2 (by rw [filled]; decide)
  · exact elseIfs 1 5 answersInLoop[4] (by rw [filled]; decide) (by rw [filled]; decide +kernel)
      (by rw [filled]; rfl) rfl

end Graph

end Flowchart
