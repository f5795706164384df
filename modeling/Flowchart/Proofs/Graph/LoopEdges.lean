import Flowchart.Proofs.Graph.Targets

/-!
Edges and the bodies of loops.

Apart from recursive edges, every edge goes on to a later block or back to a loop around the block
that it leaves. A loop is left early only from the last block of the innermost loop there.
-/

namespace Flowchart.Graph

section

variable {blocks : List Block} {functionName : Option String} {index : Nat}

variable (functionName) in
theorem exists_innermost {loop : Nat} (bound : index < blocks.length)
    (inside : InBody blocks loop index) :
    ∃ innermost outer, InBody blocks innermost index ∧
      ((Plan.ofBlocks blocks functionName).scopesAt index).loops =
        loopExtent blocks innermost :: outer ∧
      ∀ other, InBody blocks other index → other ≤ innermost := by
  have members : ∀ extent, extent ∈ ((Plan.ofBlocks blocks functionName).scopesAt index).loops ↔
      ∃ loop, InBody blocks loop index ∧ extent = loopExtent blocks loop := fun _ =>
    Plan.mem_loops_scopesAt bound
  have sorted : ((Plan.ofBlocks blocks functionName).scopesAt index).loops.Pairwise
      fun inner outer => outer.start < inner.start := Plan.loops_scopesAt_sorted index
  cases equal : ((Plan.ofBlocks blocks functionName).scopesAt index).loops with
  | nil =>
      have member := (members (loopExtent blocks loop)).mpr ⟨loop, inside, rfl⟩
      rw [equal] at member
      cases member
  | cons first outer =>
      rw [equal] at sorted
      rcases (members first).mp (equal ▸ List.mem_cons_self) with ⟨innermost, around, rfl⟩
      refine ⟨innermost, outer, around, rfl, fun other otherInside => ?_⟩
      have member := (members (loopExtent blocks other)).mpr ⟨other, otherInside, rfl⟩
      rw [equal] at member
      rcases List.mem_cons.mp member with same | later
      · have starts := congrArg LoopExtent.start same
        rw [loopExtent_start, loopExtent_start] at starts
        exact Nat.le_of_eq starts
      · have order := (List.pairwise_cons.mp sorted).1 _ later
        rw [loopExtent_start, loopExtent_start] at order
        exact Nat.le_of_lt order

/-- An edge to a place goes back to a loop instead: to the innermost one that has a block behind its
body, which goes on behind the block that the edge leaves and does not reach that place. -/
structure TurnsBack (blocks : List Block) (functionName : Option String)
    (source target loop depth : Nat) : Prop where
  around : InBody blocks loop source
  goesOn : source ≠ bodyEnd blocks loop
  closed : bodyEnd blocks loop + 1 < blocks.length
  leaves : bodyEnd blocks loop < target
  split : ∃ outer, ((Plan.ofBlocks blocks functionName).scopesAt source).loops =
      ((Plan.ofBlocks blocks functionName).scopesAt source).loops.takeWhile (·.close.isNone) ++
        loopExtent blocks loop :: outer ∧
    depth = outer.length

theorem turnsBack_of_loopBack? {target loop depth : Nat} (bound : index < blocks.length)
    (back : Scopes.loopBack? index target
      ((Plan.ofBlocks blocks functionName).scopesAt index).loops = some (loop, depth)) :
    TurnsBack blocks functionName index target loop depth := by
  rcases Scopes.loopBack?_eq_some back with
    ⟨extent, close, outer, split, isClose, leaves, notLast, rfl, isDepth⟩
  have member : extent ∈ ((Plan.ofBlocks blocks functionName).scopesAt index).loops := by
    rw [split]
    exact List.mem_append_right _ List.mem_cons_self
  rcases (Plan.mem_loops_scopesAt bound).mp member with ⟨loop, inside, rfl⟩
  have around : InBody blocks loop index := inside
  have isClose : (loopExtent blocks loop).close = some close := isClose
  have notLast : (loopExtent blocks loop).last ≠ some index := notLast
  have after := around.after
  rw [loopExtent_close around.isLoop] at isClose
  rw [loopExtent_last around.isLoop] at notLast
  rw [loopExtent_start]
  split at isClose
  · rename_i closed
    cases isClose
    refine ⟨around, fun isLast => notLast ?_, closed, leaves, outer, split, isDepth⟩
    rw [if_neg (by omega), isLast]
  · cases isClose

/-- An edge that is turned back ends at the innermost loop around the block that it leaves: an outer
one has a block behind it only if the inner ones have. -/
theorem le_of_loopBack? {target loop depth other : Nat} (bound : index < blocks.length)
    (back : Scopes.loopBack? index target
      ((Plan.ofBlocks blocks functionName).scopesAt index).loops = some (loop, depth))
    (inside : InBody blocks other index) : other ≤ loop := by
  rcases exists_innermost functionName bound inside with ⟨innermost, _, around, loops, greatest⟩
  have turns := turnsBack_of_loopBack? bound back
  have nested := bodyEnd_le_bodyEnd (greatest loop turns.around)
    (Nat.le_trans (Nat.le_of_lt around.after) turns.around.within)
  have closed := turns.closed
  have closes : (loopExtent blocks innermost).close = some (bodyEnd blocks innermost + 1) := by
    rw [loopExtent_close around.isLoop, if_pos (by omega)]
  rcases turns.split with ⟨outer, split, _⟩
  rw [loops, List.takeWhile_cons_of_neg (by simp [closes]), List.nil_append] at split
  have starts := congrArg LoopExtent.start (List.cons.inj split).1
  rw [loopExtent_start, loopExtent_start] at starts
  exact starts ▸ greatest other inside

/-! ## How edges lead on -/

/-- How an edge leaves a block: on to a later block, back to a loop that it would leave too soon,
back from the last block of a body, or as the call that a return makes of its own function. -/
inductive Leads (blocks : List Block) (functionName : Option String) (edge : Edge) (source : Nat)
    (block : Block) : Prop
  | onward (target : Nat) (isTarget : edge.target = target) (later : source < target)
      (small : target < blocks.length) (kinds : edge.kind ≠ .loopBack ∧ edge.kind ≠ .recursive)
      (free : block.kind ≠ .return → Scopes.loopBack? source target
        ((Plan.ofBlocks blocks functionName).scopesAt source).loops = none)
  | turned (target loop depth : Nat) (isTarget : edge.target = loop) (later : source < target)
      (small : target < blocks.length)
      (back : Scopes.loopBack? source target
        ((Plan.ofBlocks blocks functionName).scopesAt source).loops = some (loop, depth))
      (kinds : edge.kind = .loopBack ∧ edge.depth = some (depth : Int) ∨
        edge.kind ≠ .default ∧ edge.kind ≠ .loopBack ∧ edge.kind ≠ .recursive)
  | repeats (loop : Nat) (isTarget : edge.target = loop) (around : InBody blocks loop source)
      (last : bodyEnd blocks loop = source) (kind : edge.kind = .loopBack)
      (depth : edge.depth =
        some (((Plan.ofBlocks blocks functionName).scopesAt loop).loops.length : Int))
  | recursive (target : Nat) (isTarget : edge.target = target) (small : target < blocks.length)
      (kind : edge.kind = .recursive) (returns : block.kind = .return)
      (calls : (Plan.ofBlocks blocks functionName).callsItself block = true)

theorem Leads.of_drawn {edge : Edge} {block : Block} (bound : index < blocks.length)
    (drawn : (Plan.ofBlocks blocks functionName).Drawn
      ((Plan.ofBlocks blocks functionName).scopesAt index) index block edge) :
    Leads blocks functionName edge index block := by
  cases drawn with
  | within target kind label later kinds stays member =>
      rcases mem_edgeWithin member with ⟨_, same, small, ⟨free, rfl⟩ | ⟨loop, depth, back, rfl⟩⟩
      · cases same
        exact .onward target rfl later small kinds fun _ => free
      · cases same
        by_cases isDefault : kind = .default
        · rw [if_pos isDefault]
          exact .turned target loop depth rfl later small back (.inl ⟨rfl, rfl⟩)
        · rw [if_neg isDefault]
          exact .turned target loop depth rfl later small back (.inr ⟨isDefault, kinds⟩)
  | beyond target later returns member =>
      rcases mem_edgeBeyond member with ⟨_, same, small, rfl⟩
      cases same
      exact .onward target rfl later small (by simp) fun stays => absurd returns stays
  | recursive target returns calls member =>
      rcases mem_edgeWithin member with ⟨drawn, _, small, ⟨_, rfl⟩ | ⟨loop, depth, back, rfl⟩⟩
      · exact .recursive drawn rfl small rfl returns calls
      · have around := (turnsBack_of_loopBack? bound back).around
        exact .recursive loop rfl (Nat.lt_trans around.after bound) rfl returns calls

theorem exists_leads {edge : Edge} (member : edge ∈ (ofBlocks blocks functionName).edges) :
    ∃ (source : Nat) (block : Block), blocks[source]? = some block ∧ edge.source = source ∧
      source < blocks.length ∧ Leads blocks functionName edge source block := by
  rcases (mem_edges_ofBlocks blocks functionName).mp member with
    ⟨source, block, found, isSource, own | repetition⟩
  · have bound := (List.getElem?_eq_some_iff.mp found).1
    exact ⟨source, block, found, isSource, bound,
      .of_drawn bound (Plan.drawn_of_mem_edgesAt blocks functionName found own)⟩
  · have bound := (List.getElem?_eq_some_iff.mp found).1
    rcases (Plan.mem_repetitionsAt _).mp repetition with ⟨loop, before, isLoop, ends, rfl⟩
    exact ⟨source, block, found, rfl, bound,
      .repeats loop rfl ⟨isLoop, before, Nat.le_of_eq ends.symm⟩ ends rfl rfl⟩

/-- Edges go on or back to a loop around their source; those typed as going back go back. -/
theorem onward_or_back {edge : Edge} (member : edge ∈ (ofBlocks blocks functionName).edges)
    (plain : edge.kind ≠ .recursive) :
    ∃ source target : Nat, edge.source = source ∧ edge.target = target ∧
      source < blocks.length ∧ target < blocks.length ∧
      (InBody blocks target source ∨ source < target ∧ edge.kind ≠ .loopBack) := by
  rcases exists_leads member with ⟨source, block, _, isSource, bound, leads⟩
  cases leads with
  | onward target isTarget later small kinds _ =>
      exact ⟨source, target, isSource, isTarget, bound, small, .inr ⟨later, kinds.1⟩⟩
  | turned _ loop _ isTarget _ _ back _ =>
      have around := (turnsBack_of_loopBack? bound back).around
      exact ⟨source, loop, isSource, isTarget, bound, Nat.lt_trans around.after bound, .inl around⟩
  | repeats loop isTarget around _ _ _ =>
      exact ⟨source, loop, isSource, isTarget, bound, Nat.lt_trans around.after bound, .inl around⟩
  | recursive _ _ _ kind _ _ => exact absurd kind plain

/-! ## Edges that go on -/

theorem plain_of_mem {edge : Edge} (member : edge ∈ (ofBlocks blocks).edges) :
    edge.kind ≠ .recursive := by
  rcases exists_leads member with ⟨_, _, _, _, _, leads⟩
  cases leads with
  | onward _ _ _ _ kinds _ => exact kinds.2
  | turned _ _ _ _ _ _ _ kinds =>
      rcases kinds with ⟨kind, _⟩ | ⟨_, _, plain⟩
      · simp [kind]
      · exact plain
  | repeats _ _ _ _ kind _ => simp [kind]
  | recursive _ _ _ _ _ calls => cases calls

theorem onward_of_default {edge : Edge} (member : edge ∈ (ofBlocks blocks functionName).edges)
    (isDefault : edge.kind = .default) :
    ∃ source target : Nat, edge.source = source ∧ edge.target = target ∧ source < target := by
  rcases exists_leads member with ⟨source, _, _, isSource, _, leads⟩
  cases leads with
  | onward target isTarget later _ _ _ => exact ⟨source, target, isSource, isTarget, later⟩
  | turned _ _ _ _ _ _ _ kinds =>
      rcases kinds with ⟨kind, _⟩ | ⟨typed, _⟩
      · cases kind.symm.trans isDefault
      · exact absurd isDefault typed
  | repeats _ _ _ _ kind _ => cases kind.symm.trans isDefault
  | recursive _ _ _ kind _ _ => cases kind.symm.trans isDefault

/-- An edge that goes back without being typed so ends at the innermost loop around its source. -/
theorem le_of_untyped {edge : Edge} {source target other : Nat}
    (member : edge ∈ (ofBlocks blocks).edges) (untyped : edge.kind ≠ .loopBack)
    (isSource : edge.source = source) (isTarget : edge.target = target) (back : target < source)
    (around : InBody blocks other source) : other ≤ target := by
  rcases exists_leads member with ⟨source', _, _, isSource', bound, leads⟩
  cases Int.natCast_inj.mp (isSource.symm.trans isSource')
  cases leads with
  | onward target' isTarget' later _ _ _ => omega
  | turned _ loop _ isTarget' _ _ turned _ =>
      have least := le_of_loopBack? bound turned around
      omega
  | repeats _ _ _ _ kind _ => exact absurd kind untyped
  | recursive _ _ _ kind _ _ => exact absurd kind (plain_of_mem member)

theorem default_or_loopBack {edge : Edge} {block : Block} (found : blocks[index]? = some block)
    (kind : block.kind = .loop ∨ block.kind = .call)
    (member : edge ∈ (ofBlocks blocks functionName).edges)
    (isSource : edge.source = (index : Int)) :
    edge.kind = .default ∨ edge.kind = .loopBack := by
  rcases (mem_edges_ofBlocks blocks functionName).mp member with
    ⟨source, block', found', same, own | repetition⟩
  · cases Int.natCast_inj.mp (isSource.symm.trans same)
    cases found.symm.trans found'
    have known : (Plan.ofBlocks blocks functionName).blocks[index]? = some block := found
    have drawn : ∃ target, edge ∈ edgeWithin (Plan.ofBlocks blocks functionName).size
        ((Plan.ofBlocks blocks functionName).scopesAt index) index target .default none := by
      rcases kind with kind | kind
      · refine ⟨some (index + 1), ?_⟩
        simpa [Plan.edgesAt, known, Plan.contribution, Plan.loopBlock, kind,
          Block.opensConditional, Block.isBranch, Block.isElse] using own
      · refine ⟨((Plan.ofBlocks blocks functionName).scopesAt index).resolve (some (index + 1)), ?_⟩
        simpa [Plan.edgesAt, known, Plan.contribution, kind,
          Block.opensConditional, Block.isBranch, Block.isElse] using own
    rcases drawn with ⟨target, inside⟩
    rcases mem_edgeWithin inside with ⟨_, _, _, ⟨_, rfl⟩ | ⟨_, _, _, rfl⟩⟩
    · exact .inl rfl
    · exact .inr rfl
  · rcases (Plan.mem_repetitionsAt _).mp repetition with ⟨_, _, _, _, rfl⟩
    exact .inr rfl

theorem later_of_loop {edge : Edge} {loop target : Nat} (isLoop : IsLoop blocks loop)
    (member : edge ∈ (ofBlocks blocks functionName).edges) (untyped : edge.kind ≠ .loopBack)
    (isSource : edge.source = loop) (isTarget : edge.target = target) : loop < target := by
  rcases isLoop_iff.mp isLoop with ⟨opener, found, kind⟩
  rcases default_or_loopBack found (.inl kind) member isSource with plain | typed
  · rcases onward_of_default member plain with ⟨_, _, isSource', isTarget', later⟩
    omega
  · exact absurd typed untyped

theorem loopBack?_of_bodyEnd {loop target : Nat} (isLoop : IsLoop blocks loop)
    (nonempty : loop < bodyEnd blocks loop) (small : target < blocks.length)
    (later : bodyEnd blocks loop < target) :
    Scopes.loopBack? (bodyEnd blocks loop) target
      ((Plan.ofBlocks blocks functionName).scopesAt (bodyEnd blocks loop)).loops = none := by
  have inside : InBody blocks loop (bodyEnd blocks loop) := ⟨isLoop, nonempty, Nat.le_refl _⟩
  have bound : bodyEnd blocks loop < blocks.length := Nat.lt_trans later small
  cases back : Scopes.loopBack? (bodyEnd blocks loop) target
    ((Plan.ofBlocks blocks functionName).scopesAt (bodyEnd blocks loop)).loops with
  | none => rfl
  | some place =>
      have turns := turnsBack_of_loopBack? bound back
      have ends := bodyEnd_le_bodyEnd (le_of_loopBack? bound back inside)
        (Nat.le_of_lt turns.around.after)
      exact absurd (Nat.le_antisymm turns.around.within ends) turns.goesOn

theorem onward_of_bodyEnd {edge : Edge} {loop : Nat} (isLoop : IsLoop blocks loop)
    (member : edge ∈ (ofBlocks blocks).edges) (onward : edge.kind ≠ .loopBack)
    (isSource : edge.source = (bodyEnd blocks loop : Nat)) :
    ∃ target : Nat, edge.target = target ∧ target < blocks.length ∧
      bodyEnd blocks loop < target := by
  rcases exists_leads member with ⟨source, _, _, same, bound, leads⟩
  cases Int.natCast_inj.mp (isSource.symm.trans same)
  cases leads with
  | onward target isTarget later small _ _ => exact ⟨target, isTarget, small, later⟩
  | turned _ back _ isTarget later small turned _ =>
      rcases Nat.eq_or_lt_of_le (le_bodyEnd blocks loop) with empty | nonempty
      · have before := (turnsBack_of_loopBack? bound turned).around.after
        have after := later_of_loop isLoop member onward (empty ▸ isSource) isTarget
        omega
      · rw [loopBack?_of_bodyEnd isLoop nonempty small later] at turned
        cases turned
  | repeats _ _ _ _ kind _ => exact absurd kind onward
  | recursive _ _ _ kind _ _ => exact absurd kind (plain_of_mem member)

/-! ## Into a body -/

theorem edgeWithin_of_free {size source target : Nat} {scopes : Scopes} {kind : Edge.Kind}
    {label : Option String} (small : target < size)
    (free : Scopes.loopBack? source target scopes.loops = none) :
    edgeWithin size scopes source (some target) kind label =
      [{ source, target, kind, label }] := by
  simp [edgeWithin, small, free]

theorem loopBack?_of_inside {target : Nat} (bound : index < blocks.length)
    (inside : ∀ loop, InBody blocks loop index → target ≤ bodyEnd blocks loop) :
    Scopes.loopBack? index target
      ((Plan.ofBlocks blocks functionName).scopesAt index).loops = none := by
  cases back : Scopes.loopBack? index target
    ((Plan.ofBlocks blocks functionName).scopesAt index).loops with
  | none => rfl
  | some place =>
      have turns := turnsBack_of_loopBack? bound back
      exact absurd turns.leaves (Nat.not_lt_of_ge (inside place.1 turns.around))

theorem forward_ofBlocks (bound : index < blocks.length) :
    (ofBlocks blocks functionName).forward (index : Int) =
      ((Plan.ofBlocks blocks functionName).edgesAt index).filter
        fun edge => edge.kind ≠ .loopBack := by
  have none : ((Plan.ofBlocks blocks functionName).repetitionsAt index).filter
      (fun edge => edge.kind ≠ .loopBack) = [] := by
    refine List.filter_eq_nil_iff.mpr fun edge member => ?_
    rcases (Plan.mem_repetitionsAt _).mp member with ⟨_, _, _, _, rfl⟩
    simp
  rw [forward, outgoing_ofBlocks blocks functionName bound, List.filter_append, none,
    List.append_nil]

theorem forward_of_loop (isLoop : IsLoop blocks index) (nonempty : index < bodyEnd blocks index) :
    (ofBlocks blocks functionName).forward (index : Int) =
      [{ source := index, target := (index + 1 : Nat) }] := by
  rcases isLoop_iff.mp isLoop with ⟨opener, found, kind⟩
  have bound := (List.getElem?_eq_some_iff.mp found).1
  have small := bodyEnd_lt bound
  have known : (Plan.ofBlocks blocks functionName).blocks[index]? = some opener := found
  have free : Scopes.loopBack? index (index + 1)
      ((Plan.ofBlocks blocks functionName).scopesAt index).loops = none :=
    loopBack?_of_inside bound fun outer around => Nat.le_trans nonempty around.bodyEnd_le
  have own : (Plan.ofBlocks blocks functionName).edgesAt index =
      edgeWithin (Plan.ofBlocks blocks functionName).size
        ((Plan.ofBlocks blocks functionName).scopesAt index) index (some (index + 1)) .default
        none := by
    simp [Plan.edgesAt, known, Plan.contribution, Plan.loopBlock, kind,
      Block.opensConditional, Block.isBranch, Block.isElse]
  have room : index + 1 < (Plan.ofBlocks blocks functionName).size :=
    Nat.lt_of_le_of_lt nonempty small
  rw [forward_ofBlocks bound, own, edgeWithin_of_free room free]
  rfl

/-! ## Leaving loops -/

/-- An edge that leaves a loop starts from the last block of the innermost loop around its
source, unless it is the edge of a return. -/
theorem bodyEnd_of_leaving {edge : Edge} {loop source : Nat}
    (member : edge ∈ (ofBlocks blocks functionName).edges) (plain : edge.kind ≠ .recursive)
    (isSource : edge.source = source)
    (stays : ∀ block, blocks[source]? = some block → block.kind ≠ .return)
    (inside : InBody blocks loop source) (leaves : (bodyEnd blocks loop : Int) < edge.target) :
    ∃ innermost, InBody blocks innermost source ∧ bodyEnd blocks innermost = source ∧
      ∀ other, InBody blocks other source → other ≤ innermost := by
  rcases exists_leads member with ⟨source', block, found, same, bound, leads⟩
  cases Int.natCast_inj.mp (isSource.symm.trans same)
  have within := inside.within
  cases leads with
  | onward target isTarget later small _ free =>
      rcases exists_innermost functionName bound inside with
        ⟨innermost, outer, around, loops, greatest⟩
      have nested := bodyEnd_le_bodyEnd (greatest loop inside)
        (Nat.le_trans (Nat.le_of_lt around.after) within)
      have closed : (loopExtent blocks innermost).close = some (bodyEnd blocks innermost + 1) := by
        rw [loopExtent_close around.isLoop, if_pos (by omega)]
      rcases Scopes.loopBack?_eq_none (free (stays block found))
          (loops.trans (List.nil_append _).symm) (by simp) closed with before | last
      · omega
      · rw [loopExtent_last around.isLoop] at last
        split at last
        · cases last
        · cases last
          exact ⟨innermost, around, rfl, greatest⟩
  | turned _ back _ isTarget _ _ turned _ =>
      have before := (turnsBack_of_loopBack? bound turned).around.after
      omega
  | repeats back isTarget around _ _ _ =>
      have before := around.after
      omega
  | recursive _ _ _ kind _ _ => exact absurd kind plain

end

end Flowchart.Graph
