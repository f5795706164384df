import Flowchart.Proofs.Extent.Nested
import Flowchart.Proofs.Graph.LoopEdges

/-!
Rows of blocks that end with an end.

There every conditional and every switch ends inside the row, so that a target that is forwarded
stays inside it, too. Each block except an end therefore has an edge that goes on, or an edge that
would have gone on and was turned back to a loop around the block.
-/

namespace Flowchart

def EndsWithStop (blocks : List Block) : Prop := blocks.getLast?.map Block.kind = some .stop

instance (blocks : List Block) : Decidable (EndsWithStop blocks) :=
  inferInstanceAs (Decidable (_ = _))

section

variable {blocks : List Block} {start : Nat}

theorem EndsWithStop.last (ends : EndsWithStop blocks) :
    ∃ block, blocks[blocks.length - 1]? = some block ∧ block.kind = .stop := by
  rw [EndsWithStop, List.getLast?_eq_getElem?, Option.map_eq_some_iff] at ends
  exact ends

theorem EndsWithStop.succ_lt (ends : EndsWithStop blocks) {block : Block}
    (found : blocks[start]? = some block) (running : block.kind ≠ .stop) :
    start + 1 < blocks.length := by
  rcases ends.last with ⟨last, foundLast, stops⟩
  have bound := (List.getElem?_eq_some_iff.mp found).1
  apply Nat.lt_of_le_of_ne bound
  intro isLast
  rw [← isLast, Nat.succ_sub_one] at foundLast
  cases found.symm.trans foundLast
  exact running stops

/-! ## Ends of constructs -/

theorem EndsWithStop.conditional (ends : EndsWithStop blocks)
    (conditional : IsConditional blocks start) :
    ∃ stop, (conditionalExtent blocks start).stop = some stop ∧ stop < blocks.length := by
  cases endsByMarker_or_endsByLevel conditional.lt_length with
  | inl byMarker =>
      rcases byMarker.marked.marks with ⟨closer, found, _⟩
      exact ⟨_, byMarker.stop, (List.getElem?_eq_some_iff.mp found).1⟩
  | inr byLevel =>
      rcases isConditional_iff.mp conditional with ⟨opener, found, opens⟩
      have running : opener.kind ≠ .stop := by
        intro stops
        simp [Block.opensConditional, stops] at opens
      have room := ends.succ_lt found running
      have bound : conditionalEnd blocks start < blocks.length := by
        apply Nat.lt_of_not_le
        intro late
        rcases ends.last with ⟨last, foundLast, stops⟩
        rcases byLevel.indented.inside (blocks.length - 1) (by omega) (by omega) with
          ⟨block, foundBlock, passes⟩
        cases foundLast.symm.trans foundBlock
        exact passes.within.running stops
      cases stop : (conditionalExtent blocks start).stop with
      | some place =>
          rw [conditionalEnd, stop] at bound
          exact ⟨place, rfl, bound⟩
      | none =>
          rw [conditionalEnd, stop] at bound
          exact absurd bound (Nat.lt_irrefl _)

namespace Extent

theorem markedSwitch_lt {base : Int} (rest : List Block) :
    ∀ {depth index marker : Nat} {cases : List Nat},
      markedSwitch base depth index rest = some (cases, marker) →
        marker < index + rest.length := by
  induction rest with
  | nil =>
      intro depth index marker cases found
      simp [markedSwitch] at found
  | cons block rest induction =>
      intro depth index marker cases found
      have shift : index + 1 + rest.length = index + (block :: rest).length := by
        rw [List.length_cons]
        omega
      rw [markedSwitch.eq_def] at found
      simp only at found
      split at found
      · cases found
      split at found
      · exact shift ▸ induction found
      split at found
      · split at found
        · cases found
          rw [List.length_cons]
          omega
        · exact shift ▸ induction found
      · rcases Option.map_eq_some_iff.mp found with ⟨⟨later, stop⟩, foundLater, equal⟩
        cases equal
        exact shift ▸ induction foundLater

theorem exists_stop_of_indentedSwitch {base : Int} (rest : List Block) :
    ∀ (caseLevel : Option Int) (index : Nat), (∃ block ∈ rest, block.kind = .stop) →
      ∃ stop, (indentedSwitch base caseLevel index rest).2 = some stop ∧
        stop < index + rest.length := by
  induction rest with
  | nil =>
      intro caseLevel index stops
      rcases stops with ⟨block, member, _⟩
      cases member
  | cons block rest induction =>
      intro caseLevel index stops
      have here : index < index + (block :: rest).length := by
        rw [List.length_cons]
        omega
      have shift : index + 1 + rest.length = index + (block :: rest).length := by
        rw [List.length_cons]
        omega
      rw [indentedSwitch]
      split
      · exact ⟨index, rfl, here⟩
      rename_i goes
      have later : ∃ other ∈ rest, other.kind = .stop := by
        rcases stops with ⟨other, member, isStop⟩
        cases List.mem_cons.mp member with
        | inl same => exact absurd (.inl (same ▸ isStop)) goes
        | inr inRest => exact ⟨other, inRest, isStop⟩
      split
      · exact shift ▸ induction (some block.level) (index + 1) later
      split
      · exact ⟨index, rfl, here⟩
      · exact shift ▸ induction caseLevel (index + 1) later

end Extent

theorem EndsWithStop.switch (ends : EndsWithStop blocks) {opener : Block}
    (found : blocks[start]? = some opener) (isSwitch : opener.kind = .switch) :
    ∃ stop, (switchExtent blocks start).stop = some stop ∧ stop < blocks.length := by
  have room := ends.succ_lt found (by simp [isSwitch])
  have behind : start + 1 + (blocks.drop (start + 1)).length = blocks.length := by
    rw [List.length_drop]
    omega
  rw [switchExtent, drop_eq_cons found]
  simp only [Extent.ofSwitch]
  split
  · rename_i cases marker searched
    exact ⟨marker, rfl, behind ▸ Extent.markedSwitch_lt _ searched⟩
  · have stops : ∃ block ∈ blocks.drop (start + 1), block.kind = .stop := by
      rcases ends.last with ⟨last, foundLast, isStop⟩
      refine ⟨last, List.mem_of_getElem? (i := blocks.length - 1 - (start + 1)) ?_, isStop⟩
      rw [List.getElem?_drop, show start + 1 + (blocks.length - 1 - (start + 1)) =
        blocks.length - 1 by omega]
      exact foundLast
    exact behind ▸ Extent.exists_stop_of_indentedSwitch _ none (start + 1) stops

end

namespace Graph

/-! ## Forwarded targets -/

def Scope.Closed (size : Nat) : Scope → Prop
  | .branch extent _ => ∃ stop, extent.stop = some stop ∧ stop < size
  | .loop _ => True

theorem Scopes.resolve_lt {size : Nat} (scopes : Scopes) :
    (∀ scope ∈ scopes, scope.Closed size) → ∀ {target : Nat}, target < size →
      ∃ final, scopes.resolve (some target) = some final ∧ final < size := by
  induction scopes with
  | nil =>
      intro _ target small
      exact ⟨target, rfl, small⟩
  | cons scope scopes induction =>
      intro closed target small
      have outer := @induction fun other member => closed other (List.mem_cons_of_mem _ member)
      cases scope with
      | loop extent => exact outer small
      | branch extent boundary =>
          rcases closed _ List.mem_cons_self with ⟨stop, isStop, inside⟩
          rw [resolve_cons_branch]
          split
          · rw [isStop]
            exact outer inside
          · exact outer small

section

variable {blocks : List Block} {functionName : Option String} {index : Nat}

theorem Plan.Branching.closed {extent : BranchExtent} (branching : Plan.Branching blocks extent)
    (ends : EndsWithStop blocks) :
    ∃ stop, extent.stop = some stop ∧ stop < blocks.length := by
  cases branching with
  | conditional found opens => exact ends.conditional (isConditional_iff.mpr ⟨_, found, opens⟩)
  | switch found isSwitch => exact ends.switch found isSwitch

variable (functionName index) in
theorem Plan.closed_scopesAt (ends : EndsWithStop blocks) :
    ∀ scope ∈ (Plan.ofBlocks blocks functionName).scopesAt index, scope.Closed blocks.length := by
  intro scope member
  cases scope with
  | loop extent => trivial
  | branch extent boundary =>
      exact (Plan.branching_of_mem_scopesAt blocks functionName member).1.closed ends

/-! ## Edges that go on or were turned back -/

def GoesOn (blocks : List Block) (index : Nat) (edges : List Edge) : Prop :=
  (∃ edge ∈ edges, edge.kind ≠ .loopBack) ∨
    ∃ edge ∈ edges, edge.kind = .loopBack ∧ ∃ loop : Nat, edge.target = loop ∧
      InBody blocks loop index ∧ index ≠ bodyEnd blocks loop

theorem GoesOn.of_subset {edges more : List Edge} (goesOn : GoesOn blocks index edges)
    (subset : edges ⊆ more) : GoesOn blocks index more := by
  cases goesOn with
  | inl onward =>
      rcases onward with ⟨edge, member, onward⟩
      exact .inl ⟨edge, subset member, onward⟩
  | inr back =>
      rcases back with ⟨edge, member, back⟩
      exact .inr ⟨edge, subset member, back⟩

theorem goesOn_edgeWithin {target : Nat} {kind : Edge.Kind} (label : Option String)
    (bound : index < blocks.length) (small : target < blocks.length) (onward : kind ≠ .loopBack) :
    GoesOn blocks index (edgeWithin (Plan.ofBlocks blocks functionName).size
      ((Plan.ofBlocks blocks functionName).scopesAt index) index (some target) kind label) := by
  have inside : target < (Plan.ofBlocks blocks functionName).size := small
  cases back : Scopes.loopBack? index target
      ((Plan.ofBlocks blocks functionName).scopesAt index).loops with
  | none =>
      rw [edgeWithin_of_free inside back]
      exact .inl ⟨_, List.mem_singleton_self _, onward⟩
  | some place =>
      rcases place with ⟨start, depth⟩
      have turns := turnsBack_of_loopBack? bound back
      by_cases plain : kind = .default
      · refine .inr ⟨{ source := index, target := start, kind := .loopBack, depth := some depth,
                       label := label }, ?_, rfl, start, rfl, turns.around, turns.goesOn⟩
        simp only [edgeWithin, if_pos inside, back, if_pos plain]
        exact List.mem_singleton_self _
      · refine .inl ⟨{ source := index, target := start, kind, label }, ?_, onward⟩
        simp only [edgeWithin, if_pos inside, back, if_neg plain]
        exact List.mem_singleton_self _

def Owned (blocks : List Block) (functionName : Option String) : Prop :=
  ∀ index block, blocks[index]? = some block → block.kind = .implicitElse →
    ((Plan.ofBlocks blocks functionName).owner? index).isSome

theorem goesOn_branchBlock (ends : EndsWithStop blocks) (owned : Owned blocks functionName)
    {block : Block} (found : blocks[index]? = some block) (running : block.kind ≠ .stop) :
    GoesOn blocks index ((Plan.ofBlocks blocks functionName).branchBlock
      ((Plan.ofBlocks blocks functionName).scopesAt index) index block).edges := by
  have room := ends.succ_lt found running
  have bound : index < blocks.length := by omega
  have closed := Plan.closed_scopesAt functionName index ends
  unfold Plan.branchBlock
  cases owner : (Plan.ofBlocks blocks functionName).owner? index with
  | none =>
      have written : block.kind ≠ .implicitElse := by
        intro implicit
        have isOwned := owned index block found implicit
        rw [owner] at isOwned
        cases isOwned
      rcases Scopes.resolve_lt _ closed room with ⟨final, resolved, small⟩
      simp only [Option.bind_none, Option.map_none, Option.toList_none, List.nil_append,
        if_neg written, resolved]
      split
      · exact (goesOn_edgeWithin none bound small (by simp)).of_subset
          (List.subset_append_left _ _)
      · exact goesOn_edgeWithin none bound small (by simp)
  | some extent =>
      rcases (Plan.branching_of_owner? blocks functionName owner).1.closed ends with
        ⟨stop, isStop, inside⟩
      have opened : ∀ scope ∈ Scope.branch extent (extent.nextBoundary index) ::
          (Plan.ofBlocks blocks functionName).scopesAt index, scope.Closed blocks.length := by
        intro scope member
        cases List.mem_cons.mp member with
        | inl same => exact same ▸ ⟨stop, isStop, inside⟩
        | inr outer => exact closed scope outer
      rcases Scopes.resolve_lt _ opened room with ⟨final, resolved, small⟩
      rcases Scopes.resolve_lt _ opened inside with ⟨last, resolvedStop, smallStop⟩
      simp only [Option.bind_some, Option.map_some, Option.toList_some, List.singleton_append,
        isStop, resolved, resolvedStop, Plan.edgeWithin_branch_cons]
      split
      · exact goesOn_edgeWithin none bound smallStop (by simp)
      split
      · exact (goesOn_edgeWithin none bound small (by simp)).of_subset
          (List.subset_append_left _ _)
      · exact goesOn_edgeWithin none bound small (by simp)

theorem goesOn_switchBlock (ends : EndsWithStop blocks) {block : Block}
    (found : blocks[index]? = some block) (isSwitch : block.kind = .switch) :
    GoesOn blocks index ((Plan.ofBlocks blocks functionName).switchBlock
      ((Plan.ofBlocks blocks functionName).scopesAt index) index).edges := by
  have room := ends.succ_lt found (by simp [isSwitch])
  have bound : index < blocks.length := by omega
  rcases ends.switch found isSwitch with ⟨stop, isStop, inside⟩
  have ordered := switchExtent_ordered blocks index
  have same : (Plan.ofBlocks blocks functionName).blocks = blocks := rfl
  simp only [Plan.switchBlock, same]
  cases branches : (switchExtent blocks index).branches with
  | nil => exact goesOn_edgeWithin none bound room (by simp)
  | cons first rest =>
      have before := ordered.lt_stop first (branches ▸ List.mem_cons_self)
      rw [isStop, Option.all_some, decide_eq_true_eq] at before
      rw [List.isEmpty_cons, if_neg Bool.false_ne_true, List.flatMap_cons]
      exact (goesOn_edgeWithin _ bound (Nat.lt_trans before inside) (by simp)).of_subset
        (List.subset_append_left _ _)

theorem goesOn_returnBlock (ends : EndsWithStop blocks) {block : Block}
    (found : blocks[index]? = some block) (returns : block.kind = .return) :
    GoesOn blocks index ((Plan.ofBlocks blocks functionName).returnBlock
      ((Plan.ofBlocks blocks functionName).scopesAt index) index block).edges := by
  have room := ends.succ_lt found (by simp [returns])
  have beyond : ∀ target < blocks.length, GoesOn blocks index
      (edgeBeyond (Plan.ofBlocks blocks functionName).size index (some target)) := by
    intro target small
    have inside : target < (Plan.ofBlocks blocks functionName).size := small
    refine .inl ⟨{ source := index, target }, ?_, by simp⟩
    simp only [edgeBeyond, if_pos inside]
    exact List.mem_singleton_self _
  have closed := Plan.closed_scopesAt functionName index ends
  unfold Plan.returnBlock
  split
  · exact beyond (index + 1) room
  · rename_i extent enclosing
    rcases List.exists_of_findSome?_eq_some enclosing with ⟨scope, member, isBranch⟩
    cases scope with
    | loop => cases isBranch
    | branch known boundary =>
        cases isBranch
        rcases closed _ member with ⟨stop, isStop, inside⟩
        rcases Scopes.resolve_lt _ closed inside with ⟨final, resolved, small⟩
        simp only [isStop, Option.isSome_some, if_true, resolved]
        exact (beyond final small).of_subset (List.subset_append_left _ _)

theorem goesOn_edgesAt (ends : EndsWithStop blocks) (owned : Owned blocks functionName)
    {block : Block} (found : blocks[index]? = some block) (running : block.kind ≠ .stop) :
    GoesOn blocks index ((Plan.ofBlocks blocks functionName).edgesAt index) := by
  have room := ends.succ_lt found running
  have bound : index < blocks.length := by omega
  have closed := Plan.closed_scopesAt functionName index ends
  have known : (Plan.ofBlocks blocks functionName).blocks[index]? = some block := found
  have same : (Plan.ofBlocks blocks functionName).blocks = blocks := rfl
  rcases Scopes.resolve_lt _ closed room with ⟨next, resolved, small⟩
  simp only [Plan.edgesAt, known, Plan.contribution, if_neg running]
  split
  · rename_i conditional
    rcases ends.conditional (isConditional_iff.mpr ⟨block, found, conditional⟩) with
      ⟨stop, isStop, inside⟩
    rcases Scopes.resolve_lt _ closed inside with ⟨final, resolvedStop, smallStop⟩
    simp only [Plan.conditionBlock, same, isStop, resolvedStop]
    refine GoesOn.of_subset ?_ (List.subset_append_left _ _)
    split
    · exact goesOn_edgeWithin none bound smallStop (by simp)
    · exact goesOn_edgeWithin none bound room (by simp)
  split
  · exact goesOn_branchBlock ends owned found running
  split
  · rename_i isSwitch
    exact goesOn_switchBlock ends found isSwitch
  split
  · exact goesOn_edgeWithin none bound room (by simp)
  split
  · rename_i returns
    exact goesOn_returnBlock ends found returns
  · rw [resolved]
    exact goesOn_edgeWithin none bound small (by simp)

/-- Every block but an end has an edge onward, or one that was turned back to a loop around it. -/
theorem forward_or_turnedBack (ends : EndsWithStop blocks) (owned : Owned blocks functionName)
    {block : Block} (found : blocks[index]? = some block) (running : block.kind ≠ .stop) :
    (ofBlocks blocks functionName).forward (index : Int) ≠ [] ∨
      ∃ edge ∈ (ofBlocks blocks functionName).outgoing (index : Int), edge.kind = .loopBack ∧
        ∃ loop : Nat, edge.target = loop ∧ InBody blocks loop index ∧
          index ≠ bodyEnd blocks loop := by
  have bound := (List.getElem?_eq_some_iff.mp found).1
  cases goesOn_edgesAt ends owned found running with
  | inl onward =>
      rcases onward with ⟨edge, member, kind⟩
      rw [forward_ofBlocks bound]
      exact .inl (List.ne_nil_of_mem (List.mem_filter.mpr ⟨member, decide_eq_true kind⟩))
  | inr back =>
      rcases back with ⟨edge, member, turned⟩
      rw [outgoing_ofBlocks blocks functionName bound]
      exact .inr ⟨edge, List.mem_append_left _ member, turned⟩

end

end Graph

end Flowchart
