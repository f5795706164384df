import Flowchart.Graph.Builder
import Flowchart.Proofs.Extent.Body

/-!
The edges of a built graph by the position that they leave.

What a block opens does not depend on what is open around it. The constructs that are open at a
position are therefore those that earlier blocks opened and that reach so far, and a block has its
own edges followed by the edges back to the loops that end at it.
-/

namespace Flowchart.Graph

namespace Plan

variable (plan : Plan)

def opens (index : Nat) (block : Block) : Option Scope := (plan.contribution [] index block).opens

theorem returnBlock_opens (scopes : Scopes) (index : Nat) (block : Block) :
    (plan.returnBlock scopes index block).opens = none := by
  unfold returnBlock
  split <;> rfl

theorem contribution_opens (scopes : Scopes) (index : Nat) (block : Block) :
    (plan.contribution scopes index block).opens = plan.opens index block := by
  unfold opens contribution
  split
  · rfl
  split
  · rfl
  split
  · rfl
  split
  · rfl
  split
  · rfl
  split
  · rw [returnBlock_opens, returnBlock_opens]
  · rfl

def opensAt (index : Nat) : Option Scope := plan.blocks[index]?.bind (plan.opens index)

def scopesAt : Nat → Scopes
  | 0 => []
  | index + 1 =>
      ((plan.opensAt index).toList ++ scopesAt index).filter (Scope.reaches (index + 1))

def edgesAt (index : Nat) : List Edge :=
  match plan.blocks[index]? with
  | some block => (plan.contribution (plan.scopesAt index) index block).edges
  | none => []

def repetitionOf (loop : Nat) : List Edge :=
  repetition (plan.scopesAt loop) loop (plan.opensAt loop)

def repetitionsAt (index : Nat) : List Edge :=
  (List.range (index + 1)).flatMap fun loop =>
    (plan.repetitionOf loop).filter fun edge => edge.source = index

/-! ## What is open -/

theorem mem_scopesAt {index : Nat} {scope : Scope} :
    scope ∈ plan.scopesAt index ↔
      ∃ earlier < index, plan.opensAt earlier = some scope ∧
        ∀ between, earlier < between → between ≤ index → scope.reaches between := by
  induction index with
  | zero => simp [scopesAt]
  | succ index induction =>
      simp only [scopesAt, List.mem_filter, List.mem_append, Option.mem_toList, induction]
      constructor
      · rintro ⟨opened | ⟨earlier, before, opened, reaching⟩, reaches⟩
        · refine ⟨index, Nat.lt_succ_self index, opened, fun between above below => ?_⟩
          rwa [show between = index + 1 by omega]
        · refine ⟨earlier, Nat.lt_succ_of_lt before, opened, fun between above below => ?_⟩
          rcases Nat.lt_or_ge index between with last | inside
          · rwa [show between = index + 1 by omega]
          · exact reaching between above inside
      · rintro ⟨earlier, before, opened, reaching⟩
        refine ⟨?_, reaching (index + 1) before (Nat.le_refl _)⟩
        rcases Nat.lt_or_eq_of_le (Nat.le_of_lt_succ before) with inside | rfl
        · exact .inr ⟨earlier, inside, opened, fun between above below =>
            reaching between above (Nat.le_succ_of_le below)⟩
        · exact .inl opened

theorem reaches_of_mem_scopesAt {index : Nat} {scope : Scope}
    (member : scope ∈ plan.scopesAt index) : scope.reaches index := by
  rcases plan.mem_scopesAt.mp member with ⟨earlier, before, _, reaching⟩
  exact reaching index before (Nat.le_refl index)

theorem opens_loop {index : Nat} {block : Block} {extent : LoopExtent}
    (opened : plan.opens index block = some (.loop extent)) :
    block.kind = .loop ∧ extent = loopExtent plan.blocks index := by
  unfold opens contribution at opened
  split at opened
  · simp at opened
  split at opened
  · simp [conditionBlock] at opened
  split at opened
  · simp [branchBlock] at opened
  split at opened
  · simp [switchBlock] at opened
  split at opened
  · rename_i kind
    simp only [loopBlock, Option.some.injEq, Scope.loop.injEq] at opened
    exact ⟨kind, opened.symm⟩
  split at opened
  · simp [returnBlock_opens] at opened
  · simp at opened

theorem opensAt_loop {index : Nat} {extent : LoopExtent}
    (opened : plan.opensAt index = some (.loop extent)) :
    IsLoop plan.blocks index ∧ extent = loopExtent plan.blocks index := by
  rcases Option.bind_eq_some_iff.mp opened with ⟨block, found, opened⟩
  rcases plan.opens_loop opened with ⟨kind, equal⟩
  exact ⟨isLoop_iff.mpr ⟨block, found, kind⟩, equal⟩

theorem opensAt_of_isLoop {index : Nat} (isLoop : IsLoop plan.blocks index) :
    plan.opensAt index = some (.loop (loopExtent plan.blocks index)) := by
  rcases isLoop_iff.mp isLoop with ⟨block, found, kind⟩
  simp [opensAt, found, opens, contribution, Block.opensConditional, Block.isBranch, Block.isElse,
    loopBlock, kind]

/-! ## Edges back to loops -/

theorem mem_repetitionOf {loop : Nat} {edge : Edge} :
    edge ∈ plan.repetitionOf loop ↔
      IsLoop plan.blocks loop ∧ loop < bodyEnd plan.blocks loop ∧
        edge = { source := bodyEnd plan.blocks loop
                 target := loop
                 kind := .loopBack
                 depth := some (plan.scopesAt loop).loops.length } := by
  by_cases isLoop : IsLoop plan.blocks loop
  · have bound := le_bodyEnd plan.blocks loop
    simp only [repetitionOf, plan.opensAt_of_isLoop isLoop, repetition, loopExtent_last isLoop,
      isLoop, true_and]
    split
    · rename_i last equal
      split at equal
      · simp at equal
      · cases equal
        rw [List.mem_singleton]
        exact ⟨fun same => ⟨by omega, same⟩, fun both => both.2⟩
    · rename_i equal
      split at equal
      · simp
        omega
      · simp at equal
  · have nothing : plan.repetitionOf loop = [] := by
      unfold repetitionOf repetition
      split
      · rename_i extent opened
        exact absurd (plan.opensAt_loop opened).1 isLoop
      · rfl
    simp [nothing, isLoop]

theorem mem_repetitionsAt {index : Nat} {edge : Edge} :
    edge ∈ plan.repetitionsAt index ↔
      ∃ loop < index, IsLoop plan.blocks loop ∧ bodyEnd plan.blocks loop = index ∧
        edge = { source := index
                 target := loop
                 kind := .loopBack
                 depth := some (plan.scopesAt loop).loops.length } := by
  simp only [repetitionsAt, List.mem_flatMap, List.mem_range, List.mem_filter,
    plan.mem_repetitionOf, decide_eq_true_eq]
  constructor
  · rintro ⟨loop, _, ⟨isLoop, nonempty, rfl⟩, source⟩
    have same : bodyEnd plan.blocks loop = index := Int.natCast_inj.mp source
    exact ⟨loop, by omega, isLoop, same, by rw [same]⟩
  · rintro ⟨loop, before, isLoop, rfl, rfl⟩
    exact ⟨loop, by omega, ⟨isLoop, before, rfl⟩, rfl⟩

theorem source_le_of_mem_repetitionOf {loop : Nat} {edge : Edge}
    (member : edge ∈ plan.repetitionOf loop) : (loop : Int) < edge.source := by
  rcases plan.mem_repetitionOf.mp member with ⟨_, nonempty, rfl⟩
  exact Int.ofNat_lt.mpr nonempty

/-! ## Open loops -/

variable {plan}

theorem reaches_loop_iff {loop index : Nat} (isLoop : IsLoop plan.blocks loop)
    (bound : index < plan.blocks.length) :
    (Scope.loop (loopExtent plan.blocks loop)).reaches index = true ↔
      index ≤ bodyEnd plan.blocks loop := by
  simp only [Scope.reaches, Scope.boundary, loopExtent_close isLoop]
  split
  · simp only [Option.all_some, decide_eq_true_eq, Nat.lt_succ_iff]
  · simp only [Option.all_none, true_iff]
    omega

theorem mem_loops_scopesAt {index : Nat} {extent : LoopExtent}
    (bound : index < plan.blocks.length) :
    extent ∈ (plan.scopesAt index).loops ↔
      ∃ loop, InBody plan.blocks loop index ∧ extent = loopExtent plan.blocks loop := by
  simp only [Scopes.loops, List.mem_filterMap, plan.mem_scopesAt]
  constructor
  · rintro ⟨scope, ⟨earlier, before, opened, reaching⟩, equal⟩
    cases scope with
    | branch => simp [Scope.loop?] at equal
    | loop known =>
        cases equal
        rcases plan.opensAt_loop opened with ⟨isLoop, rfl⟩
        have within := reaching index before (Nat.le_refl index)
        exact ⟨earlier, ⟨isLoop, before, (reaches_loop_iff isLoop bound).mp within⟩, rfl⟩
  · rintro ⟨loop, inside, rfl⟩
    refine ⟨.loop (loopExtent plan.blocks loop), ?_, rfl⟩
    refine ⟨loop, inside.after, plan.opensAt_of_isLoop inside.isLoop, fun between _ below => ?_⟩
    exact (reaches_loop_iff inside.isLoop (Nat.lt_of_le_of_lt below bound)).mpr
      (Nat.le_trans below inside.within)

theorem start_lt_of_mem_loops {index : Nat} {extent : LoopExtent}
    (member : extent ∈ (plan.scopesAt index).loops) : extent.start < index := by
  simp only [Scopes.loops, List.mem_filterMap, plan.mem_scopesAt] at member
  rcases member with ⟨scope, ⟨earlier, before, opened, _⟩, equal⟩
  cases scope with
  | branch => simp [Scope.loop?] at equal
  | loop known =>
      cases equal
      rw [(plan.opensAt_loop opened).2, loopExtent_start]
      exact before

theorem loops_scopesAt_sorted (index : Nat) :
    (plan.scopesAt index).loops.Pairwise fun inner outer => outer.start < inner.start := by
  induction index with
  | zero => exact .nil
  | succ index induction =>
      have all : ((plan.opensAt index).toList ++ plan.scopesAt index).filterMap Scope.loop?
          |>.Pairwise fun inner outer => outer.start < inner.start := by
        rw [List.filterMap_append]
        refine List.pairwise_append.mpr ⟨?_, induction, ?_⟩
        · cases plan.opensAt index with
          | none => exact .nil
          | some scope => cases scope <;> simp [Scope.loop?, List.filterMap]
        · intro inner innerMember outer outerMember
          have opened : plan.opensAt index = some (.loop inner) := by
            rcases List.mem_filterMap.mp innerMember with ⟨scope, member, equal⟩
            cases scope with
            | branch => simp [Scope.loop?] at equal
            | loop extent =>
                cases equal
                exact Option.mem_toList.mp member
          rw [(plan.opensAt_loop opened).2, loopExtent_start]
          exact start_lt_of_mem_loops outerMember
      exact all.sublist (List.filter_sublist.filterMap Scope.loop?)

end Plan

/-! ## The edges of the whole graph -/

namespace Plan

variable (plan : Plan)

def pendingAt (index : Nat) : List Edge :=
  (List.range index).flatMap fun loop =>
    (plan.repetitionOf loop).filter fun edge => (index : Int) ≤ edge.source

theorem pendingAt_append_repetitionOf (index : Nat) :
    plan.pendingAt index ++ plan.repetitionOf index =
      (List.range (index + 1)).flatMap fun loop =>
        (plan.repetitionOf loop).filter fun edge => (index : Int) ≤ edge.source := by
  have own : (plan.repetitionOf index).filter (fun edge => (index : Int) ≤ edge.source) =
      plan.repetitionOf index := by
    refine List.filter_eq_self.mpr fun edge member => ?_
    simpa using Int.le_of_lt (plan.source_le_of_mem_repetitionOf member)
  rw [List.range_succ, List.flatMap_append, List.flatMap_singleton, own, pendingAt]

theorem partition_pendingAt (index : Nat) :
    (plan.pendingAt index ++ plan.repetitionOf index).partition
        (fun edge : Edge => decide (edge.source = index)) =
      (plan.repetitionsAt index, plan.pendingAt (index + 1)) := by
  rw [pendingAt_append_repetitionOf, List.partition_eq_filter_filter, repetitionsAt, pendingAt]
  simp only [List.filter_flatMap, List.filter_filter]
  congr 3
  · funext loop
    congr 1
    funext edge
    simp only [Bool.and_eq_left_iff_imp, decide_eq_true_eq]
    omega
  · funext loop
    congr 1
    funext edge
    rw [Bool.eq_iff_iff]
    simp
    omega

theorem edgesFrom_eq (index : Nat) (rest : List Block)
    (suffix : plan.blocks.drop index = rest) (scopes : Scopes)
    (opened : scopes.filter (Scope.reaches index) = plan.scopesAt index) :
    plan.edgesFrom scopes (plan.pendingAt index) index rest =
      (List.range' index rest.length).flatMap fun position =>
        plan.edgesAt position ++ plan.repetitionsAt position := by
  induction rest generalizing index scopes with
  | nil => rfl
  | cons block rest induction =>
      have found : plan.blocks[index]? = some block := by
        rw [← List.head?_drop, suffix]
        rfl
      have opens : (plan.contribution (plan.scopesAt index) index block).opens =
          plan.opensAt index := by
        rw [contribution_opens, opensAt, found]
        rfl
      have later : plan.blocks.drop (index + 1) = rest := by
        rw [← List.drop_drop, suffix]
        rfl
      have step := induction (index + 1) later ((plan.opensAt index).toList ++ plan.scopesAt index)
        rfl
      simp only [edgesFrom, opened, opens]
      rw [← repetitionOf, partition_pendingAt]
      simp only [step, List.length_cons, List.range'_succ, List.flatMap_cons, edgesAt, found,
        List.append_assoc]

end Plan

section

variable (blocks : List Block) (functionName : Option String)

@[simp] theorem ofBlocks_blocks : (ofBlocks blocks functionName).blocks = blocks := rfl

theorem ofBlocks_edges :
    (ofBlocks blocks functionName).edges =
      (List.range blocks.length).flatMap fun position =>
        (Plan.ofBlocks blocks functionName).edgesAt position ++
          (Plan.ofBlocks blocks functionName).repetitionsAt position := by
  rw [List.range_eq_range']
  exact (Plan.ofBlocks blocks functionName).edgesFrom_eq 0 blocks rfl [] rfl

end

end Flowchart.Graph
