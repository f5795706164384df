import Flowchart.Proofs.Extent.Branches
import Flowchart.Proofs.Graph.Positions

/-!
Where the edges of a built graph lead.

Every edge is first drawn to a later block; forwarding a target through open branches only moves it
further on. An edge that would leave a loop early is then turned back to the loop. So an edge goes
on or goes back to a loop around it. Recursive edges, to the first condition, are the only others.
-/

namespace Flowchart.Graph

/-! ## Scopes -/

def Scope.Bounded : Scope → Prop
  | .branch extent boundary =>
      ∀ stop, extent.stop = some stop → ∃ bound, boundary = some bound ∧ bound ≤ stop
  | .loop _ => True

theorem Scope.bounded_of_ordered {extent : BranchExtent} {index : Nat}
    (ordered : extent.Ordered) : (Scope.branch extent (extent.nextBoundary index)).Bounded := by
  intro stop ends
  cases next : extent.nextBoundary index with
  | none =>
      unfold BranchExtent.nextBoundary at next
      split at next
      · simp at next
      · simp [next] at ends
  | some boundary => exact ⟨boundary, rfl, ordered.nextBoundary_le next ends⟩

namespace Scopes

def Bounded (scopes : Scopes) : Prop := ∀ scope ∈ scopes, scope.Bounded

@[simp] theorem resolve_nil (target : Option Nat) : resolve [] target = target := rfl

theorem resolve_cons_loop (extent : LoopExtent) (scopes : Scopes) (target : Option Nat) :
    resolve (.loop extent :: scopes) target = resolve scopes target := rfl

theorem resolve_cons_branch (extent : BranchExtent) (boundary target : Option Nat)
    (scopes : Scopes) :
    resolve (.branch extent boundary :: scopes) target =
      resolve scopes
        (if target.isSome ∧ boundary = target ∧ target ≠ extent.stop then extent.stop
          else target) := rfl

theorem resolve_none (scopes : Scopes) : resolve scopes none = none := by
  induction scopes with
  | nil => rfl
  | cons scope scopes induction =>
      cases scope with
      | branch extent boundary => simpa [resolve_cons_branch] using induction
      | loop extent => simpa [resolve_cons_loop] using induction

theorem le_of_resolve (scopes : Scopes) (bounded : scopes.Bounded) :
    ∀ {target final : Nat}, resolve scopes (some target) = some final → target ≤ final := by
  induction scopes with
  | nil =>
      intro target final resolved
      cases resolved
      exact Nat.le_refl _
  | cons scope scopes induction =>
      intro target final resolved
      have step := @induction fun inner member => bounded inner (List.mem_cons_of_mem _ member)
      cases scope with
      | loop extent => exact step resolved
      | branch extent boundary =>
          rw [resolve_cons_branch] at resolved
          split at resolved
          · rename_i onBoundary
            cases ends : extent.stop with
            | none =>
                rw [ends, resolve_none] at resolved
                cases resolved
            | some stop =>
                rcases bounded _ List.mem_cons_self stop ends with ⟨bound, equal, before⟩
                rw [equal] at onBoundary
                cases onBoundary.2.1
                rw [ends] at resolved
                exact Nat.le_trans before (step resolved)
          · exact step resolved

/-! ## Going back to a loop -/

theorem loopBack?_eq_some {source target start depth : Nat} {extents : List LoopExtent}
    (back : loopBack? source target extents = some (start, depth)) :
    ∃ extent close outer, extents = extents.takeWhile (·.close.isNone) ++ extent :: outer ∧
      extent.close = some close ∧ close ≤ target ∧ extent.last ≠ some source ∧
      start = extent.start ∧ depth = outer.length := by
  induction extents with
  | nil => simp [loopBack?] at back
  | cons extent outer induction =>
      rw [loopBack?] at back
      cases closed : extent.close with
      | none =>
          rw [closed] at back
          rcases induction back with ⟨inner, close, rest, equal, facts⟩
          refine ⟨inner, close, rest, ?_, facts⟩
          rw [List.takeWhile_cons_of_pos (by simp [closed]), List.cons_append, ← equal]
      | some close =>
          simp only [closed] at back
          split at back
          · simp at back
          · rename_i leaves
            simp only [Option.some.injEq, Prod.mk.injEq] at back
            simp only [not_or, Nat.not_lt] at leaves
            refine ⟨extent, close, outer, ?_, closed, leaves.1, leaves.2, back.1.symm,
              back.2.symm⟩
            rw [List.takeWhile_cons_of_neg (by simp [closed]), List.nil_append]

/-- An edge that no loop takes back stays in the innermost closed loop or leaves it from its last
block. -/
theorem loopBack?_eq_none {source target close : Nat} {extents inner outer : List LoopExtent}
    {extent : LoopExtent} (free : loopBack? source target extents = none)
    (split : extents = inner ++ extent :: outer) (endless : ∀ other ∈ inner, other.close = none)
    (closed : extent.close = some close) : target < close ∨ extent.last = some source := by
  induction inner generalizing extents with
  | nil =>
      subst split
      simp only [List.nil_append, loopBack?, closed] at free
      split at free
      · assumption
      · simp at free
  | cons head inner induction =>
      subst split
      rw [List.cons_append, loopBack?, endless head List.mem_cons_self] at free
      exact induction free rfl fun other member => endless other (List.mem_cons_of_mem _ member)

end Scopes

/-! ## Single edges -/

theorem mem_edgeWithin {size source : Nat} {scopes : Scopes} {target : Option Nat}
    {kind : Edge.Kind} {label : Option String} {edge : Edge}
    (member : edge ∈ edgeWithin size scopes source target kind label) :
    ∃ drawn, target = some drawn ∧ drawn < size ∧
      (Scopes.loopBack? source drawn scopes.loops = none ∧
          edge = { source, target := drawn, kind, label } ∨
        ∃ start depth, Scopes.loopBack? source drawn scopes.loops = some (start, depth) ∧
          edge =
            if kind = .default then
              { source, target := start, kind := .loopBack, depth := some depth, label }
            else { source, target := start, kind, label }) := by
  unfold edgeWithin at member
  cases target with
  | none => cases member
  | some drawn =>
      simp only at member
      split at member
      · rename_i inside
        refine ⟨drawn, rfl, inside, ?_⟩
        cases back : Scopes.loopBack? source drawn scopes.loops with
        | none =>
            simp only [back, List.mem_singleton] at member
            exact .inl ⟨rfl, member⟩
        | some place =>
            rcases place with ⟨start, depth⟩
            refine .inr ⟨start, depth, rfl, ?_⟩
            simp only [back] at member
            split at member
            · rename_i plain
              rw [if_pos plain]
              exact List.mem_singleton.mp member
            · rename_i typed
              rw [if_neg typed]
              exact List.mem_singleton.mp member
      · cases member

theorem mem_edgeBeyond {size source : Nat} {target : Option Nat} {edge : Edge}
    (member : edge ∈ edgeBeyond size source target) :
    ∃ drawn, target = some drawn ∧ drawn < size ∧ edge = { source, target := drawn } := by
  unfold edgeBeyond at member
  cases target with
  | none => cases member
  | some drawn =>
      simp only at member
      split at member
      · rename_i inside
        exact ⟨drawn, rfl, inside, List.mem_singleton.mp member⟩
      · cases member

/-! ## Blocks -/

namespace Plan

/-- How an edge of a block comes about: drawn to a later block and kept inside the open loops,
drawn by a return that is free to leave them, or drawn by a return that calls its own function. -/
inductive Drawn (plan : Plan) (scopes : Scopes) (source : Nat) (block : Block) (edge : Edge) :
    Prop
  | within (target : Nat) (kind : Edge.Kind) (label : Option String) (later : source < target)
      (plain : kind ≠ .loopBack ∧ kind ≠ .recursive) (stays : block.kind ≠ .return)
      (member : edge ∈ edgeWithin plan.size scopes source (some target) kind label)
  | beyond (target : Nat) (later : source < target) (returns : block.kind = .return)
      (member : edge ∈ edgeBeyond plan.size source (some target))
  | recursive (target : Option Nat) (returns : block.kind = .return)
      (calls : plan.callsItself block = true)
      (member : edge ∈ edgeWithin plan.size scopes source target .recursive none)

variable {plan : Plan} {scopes : Scopes} {index : Nat} {block : Block} {edge : Edge}

theorem Drawn.of_within {target : Option Nat} {kind : Edge.Kind} {label : Option String}
    (later : ∀ drawn, target = some drawn → index < drawn)
    (plain : kind ≠ .loopBack ∧ kind ≠ .recursive) (stays : block.kind ≠ .return)
    (member : edge ∈ edgeWithin plan.size scopes index target kind label) :
    plan.Drawn scopes index block edge := by
  cases target with
  | none => cases member
  | some drawn => exact .within drawn kind label (later drawn rfl) plain stays member

theorem resolve_gt (bounded : scopes.Bounded) {target : Option Nat}
    (later : ∀ drawn, target = some drawn → index < drawn) :
    ∀ final, scopes.resolve target = some final → index < final := by
  intro final resolved
  cases target with
  | none =>
      rw [Scopes.resolve_none] at resolved
      cases resolved
  | some drawn =>
      exact Nat.lt_of_lt_of_le (later drawn rfl) (scopes.le_of_resolve bounded resolved)

theorem stop_gt_of_ordered {extent : BranchExtent} (ordered : extent.Ordered)
    (member : index = extent.start ∨ index ∈ extent.branches) :
    ∀ stop, extent.stop = some stop → index < stop := by
  intro stop ends
  rcases member with rfl | member
  · have bound := ordered.first_le_stop
    simpa [ends, Nat.succ_le_iff] using bound
  · have bound := ordered.lt_stop index member
    simpa [ends] using bound

theorem drawn_of_conditionBlock (stays : block.kind ≠ .return) (bounded : scopes.Bounded)
    (member : edge ∈ (plan.conditionBlock scopes index).edges) :
    plan.Drawn scopes index block edge := by
  have ordered := conditionalExtent_ordered plan.blocks index
  have atStart : index = (conditionalExtent plan.blocks index).start ∨
      index ∈ (conditionalExtent plan.blocks index).branches :=
    .inl (conditionalExtent_start plan.blocks index).symm
  have stopLater := resolve_gt bounded (stop_gt_of_ordered ordered atStart)
  rw [conditionBlock, List.mem_append] at member
  rcases member with yes | no
  · refine .of_within (fun drawn equal => ?_) (by simp) stays yes
    split at equal
    · exact stopLater drawn equal
    · cases equal
      exact Nat.lt_succ_self index
  · refine .of_within (fun drawn equal => ?_) (by simp) stays no
    split at equal
    · exact stopLater drawn equal
    · exact ordered.nextBoundary_gt atStart equal

theorem edgeWithin_branch_cons (size source : Nat) (extent : BranchExtent)
    (boundary target : Option Nat) (kind : Edge.Kind) (label : Option String) :
    edgeWithin size (.branch extent boundary :: scopes) source target kind label =
      edgeWithin size scopes source target kind label := rfl

theorem drawn_of_branchBlock (stays : block.kind ≠ .return) (bounded : scopes.Bounded)
    (owned : ∀ extent, plan.owner? index = some extent →
      extent.Ordered ∧ index ∈ extent.branches)
    (member : edge ∈ (plan.branchBlock scopes index block).edges) :
    plan.Drawn scopes index block edge := by
  unfold branchBlock at member
  cases owner : plan.owner? index with
  | none =>
      have onward : ∀ final, scopes.resolve (some (index + 1)) = some final → index < final :=
        resolve_gt bounded fun drawn equal => by cases equal; exact Nat.lt_succ_self index
      simp only [owner, Option.bind_none, Option.map_none, Option.toList_none, List.nil_append,
        Option.all_none, if_true] at member
      split at member
      · cases member
      split at member
      · rcases List.mem_append.mp member with yes | no
        · exact .of_within onward (by simp) stays yes
        · cases no
      · exact .of_within onward (by simp) stays member
  | some extent =>
      rcases owned extent owner with ⟨ordered, inBranches⟩
      have opened : Scopes.Bounded (.branch extent (extent.nextBoundary index) :: scopes) := by
        intro scope inScopes
        rcases List.mem_cons.mp inScopes with rfl | outer
        · exact Scope.bounded_of_ordered ordered
        · exact bounded scope outer
      have onward : ∀ final, Scopes.resolve (.branch extent (extent.nextBoundary index) :: scopes)
          (some (index + 1)) = some final → index < final :=
        resolve_gt opened fun drawn equal => by cases equal; exact Nat.lt_succ_self index
      have stopLater := resolve_gt opened (stop_gt_of_ordered ordered (.inr inBranches))
      simp only [owner, Option.bind_some, Option.map_some, Option.toList_some,
        List.singleton_append, edgeWithin_branch_cons] at member
      split at member
      · exact .of_within stopLater (by simp) stays member
      split at member
      · rcases List.mem_append.mp member with yes | no
        · exact .of_within onward (by simp) stays yes
        · refine .of_within (fun drawn equal => ?_) (by simp) stays no
          split at equal
          · exact stopLater drawn equal
          · exact ordered.nextBoundary_gt (.inr inBranches) equal
      · exact .of_within onward (by simp) stays member

theorem drawn_of_switchBlock (stays : block.kind ≠ .return)
    (member : edge ∈ (plan.switchBlock scopes index).edges) :
    plan.Drawn scopes index block edge := by
  have ordered := switchExtent_ordered plan.blocks index
  have start := switchExtent_start plan.blocks index
  unfold switchBlock at member
  simp only at member
  split at member
  · refine .of_within (fun drawn equal => ?_) (by simp) stays member
    cases equal
    exact Nat.lt_succ_self index
  · rcases List.mem_flatMap.mp member with ⟨branch, inBranches, member⟩
    refine .of_within (fun drawn equal => ?_) (by simp) stays member
    cases equal
    have bound := ordered.first_le branch inBranches
    omega

theorem drawn_of_returnBlock (returns : block.kind = .return) (bounded : scopes.Bounded)
    (reaching : ∀ scope ∈ scopes, scope.reaches index = true)
    (member : edge ∈ (plan.returnBlock scopes index block).edges) :
    plan.Drawn scopes index block edge := by
  have next : ∀ drawn, some (index + 1) = some drawn → index < drawn := fun drawn equal => by
    cases equal
    exact Nat.lt_succ_self index
  unfold returnBlock at member
  split at member
  · exact .beyond (index + 1) (Nat.lt_succ_self index) returns member
  · rename_i extent found
    rcases List.exists_of_findSome?_eq_some found with ⟨scope, inScopes, equal⟩
    have later : ∀ final, (if extent.stop.isSome then scopes.resolve extent.stop
        else scopes.resolve (some (index + 1))) = some final → index < final := by
      intro final resolved
      split at resolved
      · refine resolve_gt bounded (fun stop ends => ?_) final resolved
        cases scope with
        | loop => cases equal
        | branch known boundary =>
            cases equal
            rcases bounded _ inScopes stop ends with ⟨bound, atBound, before⟩
            have reaches := reaching _ inScopes
            rw [atBound] at reaches
            exact Nat.lt_of_lt_of_le (by simpa [Scope.reaches, Scope.boundary] using reaches) before
      · exact resolve_gt bounded next final resolved
    simp only [List.mem_append] at member
    rcases member with beyond | again
    · rcases mem_edgeBeyond beyond with ⟨drawn, isTarget, _, _⟩
      rw [isTarget] at beyond
      exact .beyond drawn (later drawn isTarget) returns beyond
    · split at again
      · rename_i calls
        exact .recursive _ returns calls again
      · cases again

theorem drawn_of_contribution (bounded : scopes.Bounded)
    (reaching : ∀ scope ∈ scopes, scope.reaches index = true)
    (owned : ∀ extent, plan.owner? index = some extent →
      extent.Ordered ∧ index ∈ extent.branches)
    (member : edge ∈ (plan.contribution scopes index block).edges) :
    plan.Drawn scopes index block edge := by
  have next : ∀ drawn, some (index + 1) = some drawn → index < drawn := fun drawn equal => by
    cases equal
    exact Nat.lt_succ_self index
  unfold contribution at member
  split at member
  · cases member
  split at member
  · rename_i opens
    refine drawn_of_conditionBlock (fun returns => ?_) bounded member
    simp [Block.opensConditional, returns] at opens
  split at member
  · rename_i branch
    refine drawn_of_branchBlock (fun returns => ?_) bounded owned member
    simp [Block.isBranch, Block.isElse, returns] at branch
  split at member
  · rename_i kind
    exact drawn_of_switchBlock (by simp [kind]) member
  split at member
  · rename_i kind
    exact .of_within next (by simp) (by simp [kind]) member
  split at member
  · rename_i returns
    exact drawn_of_returnBlock returns bounded reaching member
  · rename_i stays
    exact .of_within (resolve_gt bounded next) (by simp) stays member

theorem Drawn.source_eq (drawn : plan.Drawn scopes index block edge) : edge.source = index := by
  cases drawn with
  | within target kind label later plain stays member =>
      rcases mem_edgeWithin member with ⟨_, _, _, ⟨_, rfl⟩ | ⟨_, _, _, rfl⟩⟩
      · rfl
      · split <;> rfl
  | beyond target later returns member =>
      rcases mem_edgeBeyond member with ⟨_, _, _, rfl⟩
      rfl
  | recursive target returns calls member =>
      rcases mem_edgeWithin member with ⟨_, _, _, ⟨_, rfl⟩ | ⟨_, _, _, rfl⟩⟩
      · rfl
      · split <;> rfl

/-! ## The plan of a row of blocks -/

inductive Branching (blocks : List Block) : BranchExtent → Prop
  | conditional {start : Nat} {opener : Block} (found : blocks[start]? = some opener)
      (opens : opener.opensConditional = true) : Branching blocks (conditionalExtent blocks start)
  | switch {start : Nat} {opener : Block} (found : blocks[start]? = some opener)
      (isSwitch : opener.kind = .switch) : Branching blocks (switchExtent blocks start)

theorem Branching.ordered {blocks : List Block} {extent : BranchExtent}
    (branching : Branching blocks extent) : extent.Ordered := by
  cases branching with
  | conditional found opens => exact conditionalExtent_ordered blocks _
  | switch found isSwitch => exact switchExtent_ordered blocks _

section

variable (blocks : List Block) (functionName : Option String)

theorem branching_of_owner? {extent : BranchExtent}
    (owner : (ofBlocks blocks functionName).owner? index = some extent) :
    Branching blocks extent ∧ index ∈ extent.branches := by
  rcases List.exists_of_findSome?_eq_some owner with ⟨construct, member, found⟩
  rcases Option.filter_eq_some_iff.mp found with ⟨isExtent, contains⟩
  refine ⟨?_, by simpa using contains⟩
  rcases List.mem_filterMap.mp member with ⟨⟨opener, start⟩, position, opened⟩
  have atStart := List.mem_zipIdx_iff_getElem?.mp position
  have opened : Construct.opened? blocks start opener = some construct := opened
  unfold Construct.opened? at opened
  split at opened
  · rename_i opens
    cases opened
    cases isExtent
    exact .conditional atStart opens
  split at opened
  · rename_i isSwitch
    cases opened
    cases isExtent
    exact .switch atStart isSwitch
  split at opened
  · cases opened
    cases isExtent
  · cases opened

theorem branching_of_mem_scopesAt {extent : BranchExtent} {boundary : Option Nat}
    (member : .branch extent boundary ∈ (ofBlocks blocks functionName).scopesAt index) :
    Branching blocks extent ∧ ∃ earlier, boundary = extent.nextBoundary earlier := by
  rcases (mem_scopesAt _).mp member with ⟨earlier, _, opened, _⟩
  rcases Option.bind_eq_some_iff.mp opened with ⟨block, found, opened⟩
  have found : blocks[earlier]? = some block := found
  unfold opens contribution at opened
  split at opened
  · cases opened
  split at opened
  · rename_i opens
    cases opened
    exact ⟨.conditional found opens, earlier, rfl⟩
  split at opened
  · rcases Option.map_eq_some_iff.mp opened with ⟨known, owner, same⟩
    cases same
    rw [owner]
    exact ⟨(branching_of_owner? blocks functionName owner).1, earlier, rfl⟩
  split at opened
  · rename_i isSwitch
    cases opened
    exact ⟨.switch found isSwitch, earlier, rfl⟩
  split at opened
  · cases opened
  split at opened
  · rw [returnBlock_opens] at opened
    cases opened
  · cases opened

theorem bounded_scopesAt (index : Nat) :
    ((ofBlocks blocks functionName).scopesAt index).Bounded := by
  intro scope member
  cases scope with
  | loop extent => trivial
  | branch extent boundary =>
      rcases branching_of_mem_scopesAt blocks functionName member with ⟨branching, _, rfl⟩
      exact Scope.bounded_of_ordered branching.ordered

theorem drawn_of_mem_edgesAt (found : blocks[index]? = some block)
    (member : edge ∈ (ofBlocks blocks functionName).edgesAt index) :
    (ofBlocks blocks functionName).Drawn ((ofBlocks blocks functionName).scopesAt index)
      index block edge := by
  have same : (ofBlocks blocks functionName).blocks[index]? = some block := found
  simp only [edgesAt, same] at member
  exact drawn_of_contribution (bounded_scopesAt blocks functionName index)
    (fun scope inScopes => (ofBlocks blocks functionName).reaches_of_mem_scopesAt inScopes)
    (fun extent owner => (branching_of_owner? blocks functionName owner).imp_left (·.ordered))
    member

end

end Plan

/-! ## The whole graph -/

section

variable (blocks : List Block) (functionName : Option String)

theorem source_eq_of_mem {index : Nat} {edge : Edge}
    (member : edge ∈ (Plan.ofBlocks blocks functionName).edgesAt index ++
      (Plan.ofBlocks blocks functionName).repetitionsAt index) :
    edge.source = (index : Int) := by
  rcases List.mem_append.mp member with own | repetition
  · cases found : blocks[index]? with
    | none =>
        have same : (Plan.ofBlocks blocks functionName).blocks[index]? = none := found
        simp [Plan.edgesAt, same] at own
    | some block => exact (Plan.drawn_of_mem_edgesAt blocks functionName found own).source_eq
  · rcases (Plan.mem_repetitionsAt _).mp repetition with ⟨_, _, _, _, rfl⟩
    rfl

theorem outgoing_ofBlocks {index : Nat} (bound : index < blocks.length) :
    (ofBlocks blocks functionName).outgoing (index : Int) =
      (Plan.ofBlocks blocks functionName).edgesAt index ++
        (Plan.ofBlocks blocks functionName).repetitionsAt index := by
  let group := fun position => (Plan.ofBlocks blocks functionName).edgesAt position ++
    (Plan.ofBlocks blocks functionName).repetitionsAt position
  have own : (group index).filter (fun edge => edge.source = (index : Int)) = group index :=
    List.filter_eq_self.mpr fun edge member => by
      simpa using source_eq_of_mem blocks functionName member
  have others : ∀ position, position ≠ index →
      (group position).filter (fun edge => edge.source = (index : Int)) = [] := by
    intro position different
    refine List.filter_eq_nil_iff.mpr fun edge member => ?_
    have source := source_eq_of_mem blocks functionName member
    simp only [decide_eq_true_eq]
    omega
  have only : ∀ size, index < size →
      ((List.range size).flatMap group).filter (fun edge => edge.source = (index : Int)) =
        group index := by
    intro size inside
    induction size with
    | zero => omega
    | succ size induction =>
        rw [List.range_succ, List.flatMap_append, List.flatMap_singleton, List.filter_append]
        rcases Nat.lt_or_eq_of_le (Nat.le_of_lt_succ inside) with earlier | rfl
        · rw [induction earlier, others size (by omega), List.append_nil]
        · rw [own, List.filter_flatMap, List.flatMap_eq_nil_iff.mpr, List.nil_append]
          intro position before
          exact others position (Nat.ne_of_lt (List.mem_range.mp before))
  rw [outgoing, ofBlocks_edges]
  exact only blocks.length bound

/-- An edge of the graph belongs to the block that it leaves. -/
theorem mem_edges_ofBlocks {edge : Edge} :
    edge ∈ (ofBlocks blocks functionName).edges ↔
      ∃ (index : Nat) (block : Block), blocks[index]? = some block ∧ edge.source = index ∧
        (edge ∈ (Plan.ofBlocks blocks functionName).edgesAt index ∨
          edge ∈ (Plan.ofBlocks blocks functionName).repetitionsAt index) := by
  rw [ofBlocks_edges]
  simp only [List.mem_flatMap, List.mem_range]
  constructor
  · rintro ⟨index, bound, member⟩
    exact ⟨index, blocks[index], List.getElem?_eq_getElem bound,
      source_eq_of_mem blocks functionName member, List.mem_append.mp member⟩
  · rintro ⟨index, block, found, _, member⟩
    exact ⟨index, (List.getElem?_eq_some_iff.mp found).1, List.mem_append.mpr member⟩

end

end Flowchart.Graph
