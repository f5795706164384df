import Flowchart.Proofs.Graph.LoopExits
import Mathlib.Data.List.Chain

/-!
The shape of a built graph.

Every edge joins two blocks of the row. Apart from the recursive edges of returns, an edge goes on
to a later block or back to a loop around its source, and one that is typed as going back says how
many loops lie around that loop. The depth is counted when a loop opens and read off the open loops
when an edge is turned back; both ways count the loops around the same position. A cycle has to go
back somewhere, so it passes through a loop.
-/

namespace Flowchart

theorem inBody_iff {blocks : List Block} {loop index : Nat} :
    InBody blocks loop index ↔ IsLoop blocks loop ∧
      ∃ last, (loopExtent blocks loop).last = some last ∧ loop < index ∧ index ≤ last := by
  constructor
  · intro inside
    have after := inside.after
    have within := inside.within
    exact ⟨inside.isLoop, _, (Graph.last_eq_iff inside.isLoop).mpr ⟨by omega, rfl⟩, after, within⟩
  · rintro ⟨isLoop, last, isLast, after, within⟩
    rcases (Graph.last_eq_iff isLoop).mp isLast with ⟨_, rfl⟩
    exact ⟨isLoop, after, within⟩

def loopDepth (blocks : List Block) (index : Nat) : Nat :=
  (List.range blocks.length).countP fun loop => InBody blocks loop index

namespace Graph

section

variable {blocks : List Block} {functionName : Option String} {index : Nat}

/-! ## Depths -/

theorem length_eq_loopDepth {extents : List LoopExtent}
    (sorted : extents.Pairwise fun inner outer => outer.start < inner.start)
    (members : ∀ extent, extent ∈ extents ↔
      ∃ loop, InBody blocks loop index ∧ extent = loopExtent blocks loop) :
    extents.length = loopDepth blocks index := by
  have distinct : (extents.map LoopExtent.start).Nodup :=
    List.pairwise_map.mpr (sorted.imp fun order => Nat.ne_of_gt order)
  have counted : ((List.range blocks.length).filter fun loop => InBody blocks loop index).Nodup :=
    List.nodup_range.filter _
  have same : (extents.map LoopExtent.start).Perm
      ((List.range blocks.length).filter fun loop => InBody blocks loop index) := by
    refine (List.perm_ext_iff_of_nodup distinct counted).mpr fun loop => ?_
    rw [List.mem_map, List.mem_filter, List.mem_range, decide_eq_true_eq]
    constructor
    · rintro ⟨extent, member, rfl⟩
      rcases (members extent).mp member with ⟨loop, inside, rfl⟩
      rcases isLoop_iff.mp inside.isLoop with ⟨_, found, _⟩
      rw [loopExtent_start]
      exact ⟨(List.getElem?_eq_some_iff.mp found).1, inside⟩
    · rintro ⟨_, inside⟩
      exact ⟨_, (members _).mpr ⟨loop, inside, rfl⟩, loopExtent_start blocks loop⟩
  rw [loopDepth, List.countP_eq_length_filter, ← same.length_eq, List.length_map]

theorem length_loops_scopesAt (bound : index < blocks.length) :
    ((Plan.ofBlocks blocks functionName).scopesAt index).loops.length = loopDepth blocks index :=
  length_eq_loopDepth (Plan.loops_scopesAt_sorted index) fun _ => Plan.mem_loops_scopesAt bound

theorem length_outer_loops {loop : Nat} {inner outer : List LoopExtent}
    (bound : index < blocks.length) (inside : InBody blocks loop index)
    (split : ((Plan.ofBlocks blocks functionName).scopesAt index).loops =
      inner ++ loopExtent blocks loop :: outer) :
    outer.length = loopDepth blocks loop := by
  have sorted : ((Plan.ofBlocks blocks functionName).scopesAt index).loops.Pairwise
      fun inner outer => outer.start < inner.start := Plan.loops_scopesAt_sorted index
  have members : ∀ extent, extent ∈ ((Plan.ofBlocks blocks functionName).scopesAt index).loops ↔
      ∃ loop, InBody blocks loop index ∧ extent = loopExtent blocks loop := fun _ =>
    Plan.mem_loops_scopesAt bound
  rw [split] at sorted members
  rcases List.pairwise_append.mp sorted with ⟨_, sortedRest, apart⟩
  rcases List.pairwise_cons.mp sortedRest with ⟨below, sortedOuter⟩
  refine length_eq_loopDepth sortedOuter fun extent => ⟨fun member => ?_, ?_⟩
  · rcases (members extent).mp (by simp [member]) with ⟨other, around, rfl⟩
    have order := below _ member
    rw [loopExtent_start, loopExtent_start] at order
    exact ⟨other, around.nested inside order, rfl⟩
  · rintro ⟨other, around, rfl⟩
    have order := around.after
    rcases List.mem_append.mp ((members _).mpr ⟨other, around.trans inside, rfl⟩) with
      within | rest
    · have later := apart _ within _ List.mem_cons_self
      rw [loopExtent_start, loopExtent_start] at later
      omega
    · rcases List.mem_cons.mp rest with same | member
      · have starts := congrArg LoopExtent.start same
        rw [loopExtent_start, loopExtent_start] at starts
        omega
      · exact member

theorem TurnsBack.depth_eq {target loop depth : Nat} (bound : index < blocks.length)
    (turns : TurnsBack blocks functionName index target loop depth) :
    depth = loopDepth blocks loop := by
  rcases turns.split with ⟨outer, split, rfl⟩
  exact length_outer_loops bound turns.around split

theorem depth_of_loopBack {edge : Edge} (member : edge ∈ (ofBlocks blocks functionName).edges)
    (back : edge.kind = .loopBack) :
    ∃ loop : Nat, edge.target = loop ∧ edge.depth = some (loopDepth blocks loop : Int) := by
  rcases exists_leads member with ⟨source, _, _, _, bound, leads⟩
  cases leads with
  | onward _ _ _ _ kinds _ => exact absurd back kinds.1
  | turned _ loop depth isTarget _ _ turned kinds =>
      rcases kinds with ⟨_, isDepth⟩ | ⟨_, plain, _⟩
      · have turns := turnsBack_of_loopBack? bound turned
        exact ⟨loop, isTarget, by rw [isDepth, turns.depth_eq bound]⟩
      · exact absurd back plain
  | repeats loop isTarget around _ _ isDepth =>
      exact ⟨loop, isTarget,
        by rw [isDepth, length_loops_scopesAt (Nat.lt_trans around.after bound)]⟩
  | recursive _ _ _ kind _ _ => cases kind.symm.trans back

/-! ## Recursive edges -/

theorem recursive_of_mem {edge : Edge} (member : edge ∈ (ofBlocks blocks functionName).edges)
    (recursive : edge.kind = .recursive) :
    ∃ source target : Nat, edge.source = source ∧ edge.target = target ∧
      target < blocks.length ∧ ∃ block name, blocks[source]? = some block ∧
        block.kind = .return ∧ functionName = some name ∧
        findCalls block.content.toList name.toList ≠ [] := by
  rcases exists_leads member with ⟨source, block, found, isSource, _, leads⟩
  cases leads with
  | onward _ _ _ _ kinds _ => exact absurd recursive kinds.2
  | turned _ _ _ _ _ _ _ kinds =>
      rcases kinds with ⟨kind, _⟩ | ⟨_, _, plain⟩
      · cases kind.symm.trans recursive
      · exact absurd recursive plain
  | repeats _ _ _ _ kind _ => cases kind.symm.trans recursive
  | recursive target isTarget small _ returns calls =>
      cases functionName with
      | none => cases calls
      | some name =>
          exact ⟨source, target, isSource, isTarget, small, block, name, found, returns, rfl,
            by simpa [Plan.callsItself, Plan.ofBlocks] using calls⟩

theorem exists_target_of_mem {edge : Edge} (member : edge ∈ (ofBlocks blocks functionName).edges) :
    ∃ target : Nat, edge.target = target ∧ target < blocks.length := by
  by_cases recursive : edge.kind = .recursive
  · rcases recursive_of_mem member recursive with ⟨_, target, _, isTarget, small, _⟩
    exact ⟨target, isTarget, small⟩
  · rcases onward_or_back member recursive with ⟨_, target, _, isTarget, _, small, _⟩
    exact ⟨target, isTarget, small⟩

end

/-! ## Cycles -/

structure IsCycle (graph : Graph) (cycle : List Edge) : Prop where
  edges : ∀ edge ∈ cycle, edge ∈ graph.edges
  linked : cycle.IsChain fun before after => before.target = after.source
  closed : ∃ first last, cycle.head? = some first ∧ cycle.getLast? = some last ∧
    last.target = first.source

theorem lt_of_linked {first last : Edge} {walk : List Edge}
    (linked : (first :: walk).IsChain fun before after => before.target = after.source)
    (onward : ∀ edge ∈ first :: walk, edge.source < edge.target)
    (ends : (first :: walk).getLast? = some last) : first.source < last.target := by
  induction walk generalizing first with
  | nil =>
      cases ends
      exact onward first List.mem_cons_self
  | cons second walk induction =>
      rcases List.isChain_cons_cons.mp linked with ⟨joined, later⟩
      have rest := induction later (fun edge member => onward edge (List.mem_cons_of_mem _ member))
        (by rwa [List.getLast?_cons_cons] at ends)
      have here := onward first List.mem_cons_self
      omega

/-- The edges of a built graph join blocks of the row. A recursive edge leaves a return that calls
the function; any other goes on, or back to a loop around its source. One that is typed as going
back goes back, and says how many loops lie around its target. So a cycle without recursive edges
passes through a loop. -/
theorem ofBlocks_shape (blocks : List Block) (functionName : Option String) :
    (∀ edge ∈ (ofBlocks blocks functionName).edges, ∃ source target : Nat,
      edge.source = source ∧ edge.target = target ∧
      source < blocks.length ∧ target < blocks.length ∧
      (edge.kind = .recursive → ∃ block name, blocks[source]? = some block ∧
        block.kind = .return ∧ functionName = some name ∧
        findCalls block.content.toList name.toList ≠ []) ∧
      (edge.kind ≠ .recursive → source < target ∨ InBody blocks target source) ∧
      (edge.kind = .loopBack →
        InBody blocks target source ∧ edge.depth = some (loopDepth blocks target : Int))) ∧
    ∀ cycle, (ofBlocks blocks functionName).IsCycle cycle →
      (∀ edge ∈ cycle, edge.kind ≠ .recursive) →
        ∃ edge ∈ cycle, ∃ loop : Nat, edge.target = loop ∧ IsLoop blocks loop := by
  constructor
  · intro edge member
    by_cases recursive : edge.kind = .recursive
    · rcases recursive_of_mem member recursive with
        ⟨source, target, isSource, isTarget, small, block, name, found, calls⟩
      exact ⟨source, target, isSource, isTarget, (List.getElem?_eq_some_iff.mp found).1, small,
        fun _ => ⟨block, name, found, calls⟩, fun plain => absurd recursive plain,
        fun back => by rw [recursive] at back; cases back⟩
    · rcases onward_or_back member recursive with
        ⟨source, target, isSource, isTarget, bound, small, way⟩
      refine ⟨source, target, isSource, isTarget, bound, small, fun same => absurd same recursive,
        fun _ => ?_, fun back => ?_⟩
      · cases way with
        | inl inside => exact .inr inside
        | inr onward => exact .inl onward.1
      · rcases depth_of_loopBack member back with ⟨loop, isLoop, isDepth⟩
        cases Int.natCast_inj.mp (isTarget.symm.trans isLoop)
        cases way with
        | inl inside => exact ⟨inside, isDepth⟩
        | inr onward => exact absurd back onward.2
  · intro cycle isCycle plain
    -- An edge that goes back leads to a loop. Were there none, the cycle would never come back.
    by_contra noLoop
    have onward : ∀ edge ∈ cycle, edge.source < edge.target := by
      intro edge member
      rcases onward_or_back (isCycle.edges edge member) (plain edge member) with
        ⟨source, target, isSource, isTarget, _, _, inside | ⟨later, _⟩⟩
      · exact absurd ⟨edge, member, target, isTarget, inside.isLoop⟩ noLoop
      · omega
    rcases isCycle.closed with ⟨first, last, starts, ends, closed⟩
    rcases List.head?_eq_some_iff.mp starts with ⟨walk, rfl⟩
    have order := lt_of_linked isCycle.linked onward ends
    omega

def nestedLoops : List Block :=
  [{ content := "Start", kind := .start },
    { content := "While a", kind := .loop },
    { content := "While b", level := 1, kind := .loop },
    { content := "Output x", level := 2, kind := .output },
    { content := "End", kind := .stop, closing := true }]

theorem ofBlocks_shape_nestedLoops :
    ∃ back ∈ (ofBlocks nestedLoops).edges, back.source = 3 ∧ back.target = 2 ∧
      InBody nestedLoops 2 3 ∧ back.depth = some 1 ∧
      (ofBlocks nestedLoops).IsCycle [{ source := 2, target := 3 }, back] ∧
      ∃ edge ∈ [{ source := 2, target := 3 }, back],
        ∃ loop : Nat, edge.target = loop ∧ IsLoop nestedLoops loop := by
  have member : { source := 3, target := 2, kind := .loopBack, depth := some 1 } ∈
      (ofBlocks nestedLoops).edges := by decide
  have isCycle : (ofBlocks nestedLoops).IsCycle [{ source := 2, target := 3 },
      { source := 3, target := 2, kind := .loopBack, depth := some 1 }] :=
    ⟨by decide, by decide, _, _, rfl, rfl, rfl⟩
  rcases ofBlocks_shape nestedLoops none with ⟨edges, cycles⟩
  rcases edges _ member with ⟨source, target, isSource, isTarget, _, _, _, _, back⟩
  cases Int.natCast_inj.mp (isSource : ((3 : Nat) : Int) = source)
  cases Int.natCast_inj.mp (isTarget : ((2 : Nat) : Int) = target)
  exact ⟨_, member, rfl, rfl, (back rfl).1, rfl, isCycle, cycles _ isCycle (by decide)⟩

end Graph

end Flowchart
