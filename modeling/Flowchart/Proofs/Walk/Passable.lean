import Flowchart.Proofs.Program.MainFlow
import Flowchart.Proofs.Walk.Bound

/-!
Rows of blocks in which a walk has always somewhere to go.

An edge that was turned back to a loop is followed only while the loop is counted. A walk that comes
to such an edge after the loop was left is stuck, and a call in front of one remembers no place to
return to. A loop that takes edges back is sealed if it is entered from the top, no call returns
into it and none gives it its edge. Then the loop is counted whenever the walk is inside.
-/

namespace Flowchart

namespace Graph

def TurnsBackTo (graph : Graph) (loop : Nat) : Prop :=
  ∃ edge ∈ graph.edges, edge.kind = .loopBack ∧ edge.target = loop ∧
    edge.source ≠ (bodyEnd graph.blocks loop : Nat)

def Calls (graph : Graph) (edge : Edge) : Prop :=
  (graph.block? edge.source).map Block.kind = some .call

/-- A body that is entered through its loop only. No walk starts in it and no call returns to it,
and the edges that the loop takes back are not those of calls. -/
structure Sealed (graph : Graph) (loop : Nat) : Prop where
  starts : ∀ start ∈ graph.find? .start, ¬InBody graph.blocks loop start
  entered : ∀ edge ∈ graph.edges, InBody graph.blocks loop edge.target.toNat →
    edge.source.toNat = loop ∨ InBody graph.blocks loop edge.source.toNat
  returns : ∀ edge ∈ graph.edges, graph.Calls edge → edge.kind ≠ .loopBack →
    ¬InBody graph.blocks loop edge.target.toNat
  takes : ∀ edge ∈ graph.edges, graph.Calls edge → edge.kind = .loopBack → edge.target = loop →
    edge.source = (bodyEnd graph.blocks loop : Nat)

section

variable (graph : Graph) (loop : Nat) (edge : Edge)

instance : Decidable (graph.TurnsBackTo loop) :=
  inferInstanceAs (Decidable (∃ edge ∈ graph.edges, _))

instance : Decidable (graph.Calls edge) := inferInstanceAs (Decidable (_ = _))

instance : Decidable (graph.Sealed loop) :=
  decidable_of_iff
    ((∀ start ∈ graph.find? .start, ¬InBody graph.blocks loop start) ∧
      (∀ edge ∈ graph.edges, InBody graph.blocks loop edge.target.toNat →
        edge.source.toNat = loop ∨ InBody graph.blocks loop edge.source.toNat) ∧
      (∀ edge ∈ graph.edges, graph.Calls edge → edge.kind ≠ .loopBack →
        ¬InBody graph.blocks loop edge.target.toNat) ∧
      ∀ edge ∈ graph.edges, graph.Calls edge → edge.kind = .loopBack → edge.target = loop →
        edge.source = (bodyEnd graph.blocks loop : Nat))
    ⟨fun ⟨starts, entered, returns, takes⟩ => ⟨starts, entered, returns, takes⟩,
      fun isSealed => ⟨isSealed.starts, isSealed.entered, isSealed.returns, isSealed.takes⟩⟩

end

theorem TurnsBackTo.lt_length {blocks : List Block} {loop : Nat}
    (turns : (ofBlocks blocks).TurnsBackTo loop) : loop < blocks.length := by
  rcases turns with ⟨edge, member, _, isTarget, _⟩
  rcases onward_or_back member (plain_of_mem member) with ⟨_, target, _, same, _, small, _⟩
  omega

end Graph

namespace Walk

open Flowchart.Graph

/-! ## Somewhere to go -/

def Counted (graph : Graph) (counters : Counters) (place : Nat) : Prop :=
  ∀ loop, graph.TurnsBackTo loop → InBody graph.blocks loop place →
    (counters.lookup (loop : Int)).isSome

def Outside (graph : Graph) (place : Nat) : Prop :=
  ∀ loop, graph.TurnsBackTo loop → ¬InBody graph.blocks loop place

theorem Outside.counted {graph : Graph} {place : Nat} (outside : Outside graph place)
    (counters : Counters) : Counted graph counters place := by
  intro loop turns inside
  exact absurd inside (outside loop turns)

theorem liveLoop?_ne_none {graph : Graph} {counters : Counters} {index : Int} {edge : Edge}
    (member : edge ∈ graph.outgoing index) (back : edge.kind = .loopBack)
    (counted : (counters.lookup edge.target).isSome) : liveLoop? graph counters index ≠ none := by
  have among : edge ∈ (graph.outgoing index).filter fun edge =>
      edge.kind = .loopBack ∧ (counters.lookup edge.target).isSome :=
    List.mem_filter.mpr ⟨member, decide_eq_true ⟨back, counted⟩⟩
  rcases exists_deepest? (List.ne_nil_of_mem among) with ⟨deepest, found⟩
  rw [liveLoop?, found]
  simp

structure Passable (blocks : List Block) : Prop where
  ends : EndsWithStop blocks
  owned : Owned blocks none
  isSealed : ∀ loop, (ofBlocks blocks).TurnsBackTo loop → (ofBlocks blocks).Sealed loop

section

variable {blocks : List Block} {counters : Counters} {place : Nat} {block : Block}

/-- There is a way on, if the loops are counted that a place lies in but does not end. -/
theorem Passable.wayOut (passable : Passable blocks) (found : blocks[place]? = some block)
    (running : block.kind ≠ .stop)
    (counted : ∀ loop, (ofBlocks blocks).TurnsBackTo loop → InBody blocks loop place →
      place ≠ bodyEnd blocks loop → (counters.lookup (loop : Int)).isSome)
    (dead : liveLoop? (ofBlocks blocks) counters (place : Int) = none) :
    (ofBlocks blocks).forward (place : Int) ≠ [] := by
  cases forward_or_turnedBack passable.ends passable.owned found running with
  | inl onward => exact onward
  | inr turned =>
      rcases turned with ⟨edge, outgoing, back, loop, isTarget, inside, notLast⟩
      rcases mem_outgoing.mp outgoing with ⟨member, isSource⟩
      have turns : (ofBlocks blocks).TurnsBackTo loop := by
        refine ⟨edge, member, back, isTarget, ?_⟩
        rw [isSource]
        exact fun same => notLast (Int.natCast_inj.mp same)
      have live := counted loop turns inside notLast
      rw [← isTarget] at live
      exact absurd dead (liveLoop?_ne_none outgoing back live)

theorem edge_of_goal {graph : Graph} {index : Int} {chosen : Option Int} {goal : Int}
    (drawn : ∀ goal, chosen = some goal → ∃ edge ∈ graph.forward index, edge.target = goal)
    (moves : (liveLoop? graph counters index).or chosen = some goal) :
    ∃ edge ∈ graph.edges, edge.source = index ∧ edge.target = goal := by
  cases Option.or_eq_some_iff.mp moves with
  | inl live =>
      rcases exists_of_liveLoop? live with ⟨edge, outgoing, isTarget, _⟩
      rcases mem_outgoing.mp outgoing with ⟨member, isSource⟩
      exact ⟨edge, member, isSource, isTarget⟩
  | inr isChosen =>
      rcases drawn goal isChosen.2 with ⟨edge, forward, isTarget⟩
      rcases mem_outgoing.mp (mem_forward.mp forward).1 with ⟨member, isSource⟩
      exact ⟨edge, member, isSource, isTarget⟩

theorem Passable.counted_of_edge (passable : Passable blocks) {edge : Edge} {target : Nat}
    (other : ¬IsLoop blocks place) (member : edge ∈ (ofBlocks blocks).edges)
    (isSource : edge.source = (place : Int)) (isTarget : edge.target = (target : Int))
    (counted : Counted (ofBlocks blocks) counters place) :
    Counted (ofBlocks blocks) counters target := by
  intro loop turns inside
  have entered := (passable.isSealed loop turns).entered edge member
  rw [isSource, isTarget, Int.toNat_natCast, Int.toNat_natCast] at entered
  cases entered inside with
  | inl isLoop => exact absurd (isLoop ▸ inside.isLoop) other
  | inr around => exact counted loop turns around

theorem Passable.exists_goal_of_follow (passable : Passable blocks)
    (found : blocks[place]? = some block)
    (running : block.kind ≠ .stop ∧ block.kind ≠ .return ∧ block.kind ≠ .loop)
    (counted : Counted (ofBlocks blocks) counters place) {chosen : Option Int}
    (drawn : ∀ goal, chosen = some goal →
      ∃ edge ∈ (ofBlocks blocks).forward (place : Int), edge.target = goal)
    (wayOut : (liveLoop? (ofBlocks blocks) counters place).or chosen = none →
      liveLoop? (ofBlocks blocks) counters place = none ∧
        (ofBlocks blocks).forward (place : Int) = []) :
    ∃ target : Nat, (liveLoop? (ofBlocks blocks) counters place).or chosen = some (target : Int) ∧
      target < blocks.length ∧ Counted (ofBlocks blocks) counters target := by
  cases moves : (liveLoop? (ofBlocks blocks) counters place).or chosen with
  | none =>
      rcases wayOut moves with ⟨dead, closed⟩
      have onward := passable.wayOut found running.1
        (fun loop turns inside _ => counted loop turns inside) dead
      exact absurd closed onward
  | some goal =>
      have other : ¬IsLoop blocks place := by
        simp [IsLoop, found, running.2.2]
      rcases edge_of_goal drawn moves with ⟨edge, member, isSource, rfl⟩
      rcases onward_or_back member (plain_of_mem member) with
        ⟨_, target, _, isTarget, _, small, _⟩
      exact ⟨target, congrArg some isTarget, small,
        passable.counted_of_edge other member isSource isTarget counted⟩

/-- A call returns to a place outside all loops that take edges back. -/
theorem Passable.returnTo (passable : Passable blocks) (found : blocks[place]? = some block)
    (isCall : block.kind = .call) :
    ∃ target : Nat, firstForward? (ofBlocks blocks) (place : Int) = some (target : Int) ∧
      target < blocks.length ∧ Outside (ofBlocks blocks) target := by
  have calls : ∀ edge : Edge, edge.source = (place : Int) → (ofBlocks blocks).Calls edge := by
    intro edge isSource
    rw [Graph.Calls, isSource, block?, if_neg (by omega), Int.toNat_natCast, ofBlocks_blocks, found,
      Option.map_some, isCall]
  have onward : (ofBlocks blocks).forward (place : Int) ≠ [] := by
    cases forward_or_turnedBack passable.ends passable.owned found (by simp [isCall]) with
    | inl onward => exact onward
    | inr turned =>
        rcases turned with ⟨edge, outgoing, back, loop, isTarget, inside, notLast⟩
        rcases mem_outgoing.mp outgoing with ⟨member, isSource⟩
        have differs : edge.source ≠ (bodyEnd blocks loop : Nat) := by
          rw [isSource]
          exact fun same => notLast (Int.natCast_inj.mp same)
        have turns : (ofBlocks blocks).TurnsBackTo loop := ⟨edge, member, back, isTarget, differs⟩
        exact absurd ((passable.isSealed loop turns).takes edge member (calls edge isSource) back
          isTarget) differs
  rcases Option.ne_none_iff_exists'.mp (mt firstForward?_eq_none_iff.mp onward) with ⟨goal, first⟩
  rcases exists_of_firstForward? first with ⟨edge, forward, rfl⟩
  rcases mem_forward.mp forward with ⟨outgoing, notBack⟩
  rcases mem_outgoing.mp outgoing with ⟨member, isSource⟩
  rcases onward_or_back member (plain_of_mem member) with ⟨_, target, _, isTarget, _, small, _⟩
  refine ⟨target, isTarget ▸ first, small, fun loop turns inside => ?_⟩
  have returns := (passable.isSealed loop turns).returns edge member (calls edge isSource) notBack
  rw [isTarget, Int.toNat_natCast] at returns
  exact returns inside

theorem Passable.counted_of_leave (passable : Passable blocks) (isLoop : IsLoop blocks place)
    (counted : Counted (ofBlocks blocks) counters place) {goal : Int}
    (moves : (liveLoop? (ofBlocks blocks) (countersLeft (ofBlocks blocks) counters place)
        (exitOf (ofBlocks blocks) place : Nat)).or
      (firstForward? (ofBlocks blocks) (exitOf (ofBlocks blocks) place : Nat)) = some goal) :
    ∃ target : Nat, goal = target ∧ target < blocks.length ∧
      Counted (ofBlocks blocks) (countersLeft (ofBlocks blocks) counters place) target := by
  rcases exists_advance_of_leave isLoop moves with ⟨target, rfl, small, advance⟩
  refine ⟨target, rfl, small, fun loop turns inside => ?_⟩
  rcases edge_of_goal (fun goal first => exists_of_firstForward? first) moves with
    ⟨edge, member, isSource, isTarget⟩
  rw [exitOf_eq isLoop] at isSource
  have entered := (passable.isSealed loop turns).entered edge member
  rw [isSource, isTarget, Int.toNat_natCast, Int.toNat_natCast, ofBlocks_blocks] at entered
  have last := le_bodyEnd blocks place
  have exitWithin : loop ≤ bodyEnd blocks place ∧ (loop = bodyEnd blocks place ∨
      bodyEnd blocks place ≤ bodyEnd blocks loop) := by
    cases entered inside with
    | inl same => exact ⟨Nat.le_of_eq same.symm, .inl same.symm⟩
    | inr around => exact ⟨Nat.le_of_lt around.after, .inr around.within⟩
  -- The walk does not go on inside the body that it leaves.
  have before : loop < place := by
    apply Nat.lt_of_not_le
    intro late
    have nested := bodyEnd_le_bodyEnd late exitWithin.1
    have after := inside.after
    have within : target ≤ bodyEnd blocks loop := inside.within
    cases advance with
    | onward behind => omega
    | back around _ =>
        have start := around.after
        omega
  have around : InBody blocks loop place := by
    refine .of_le_bodyEnd before ?_
    rcases exitWithin.2 with same | within <;> omega
  have still := counted loop turns around
  rw [lookup_countersLeft isLoop, if_neg (by omega)]
  exact still

theorem Passable.exists_goal_of_leave (passable : Passable blocks)
    (found : blocks[place]? = some block) (kind : block.kind = .loop)
    (counted : Counted (ofBlocks blocks) counters place) :
    (liveLoop? (ofBlocks blocks) (countersLeft (ofBlocks blocks) counters place)
        (exitOf (ofBlocks blocks) place : Nat)).or
      (firstForward? (ofBlocks blocks) (exitOf (ofBlocks blocks) place : Nat)) ≠ none := by
  have isLoop := isLoop_iff.mpr ⟨block, found, kind⟩
  have bound := bodyEnd_lt (List.getElem?_eq_some_iff.mp found).1
  rw [exitOf_eq isLoop, ne_eq, Option.or_eq_none_iff]
  rintro ⟨dead, stuck⟩
  have known : ∃ last, blocks[bodyEnd blocks place]? = some last :=
    ⟨_, List.getElem?_eq_getElem bound⟩
  rcases known with ⟨last, atExit⟩
  have running : last.kind ≠ .stop := by
    rcases Nat.eq_or_lt_of_le (le_bodyEnd blocks place) with empty | nonempty
    · rw [← empty] at atExit
      cases found.symm.trans atExit
      simp [kind]
    · exact ((InBody.mk isLoop nonempty (Nat.le_refl _)).deeper found atExit).2
  refine passable.wayOut atExit running (fun loop turns inside notLast => ?_) dead
    (firstForward?_eq_none_iff.mp stuck)
  -- A loop that goes on behind the body lies around the whole of it.
  have before : loop < place := by
    apply Nat.lt_of_not_le
    intro late
    have nested := bodyEnd_le_bodyEnd late (Nat.le_of_lt inside.after)
    have within := inside.within
    omega
  have around : InBody blocks loop place :=
    .of_le_bodyEnd before (Nat.le_trans (le_bodyEnd blocks place) inside.within)
  rw [lookup_countersLeft isLoop, if_neg (by omega)]
  exact counted loop turns around

theorem Counted.put (counted : Counted (ofBlocks blocks) counters place) (count : Int)
    {target : Nat} (around : ∀ loop, InBody blocks loop target →
      loop = place ∨ InBody blocks loop place) :
    Counted (ofBlocks blocks) (counters.put place count) target := by
  intro loop turns inside
  rw [Counters.lookup_put]
  split
  · rfl
  · rename_i other
    cases around loop inside with
    | inl same => exact absurd (congrArg Int.ofNat same) other
    | inr around => exact counted loop turns around

theorem exists_goal_of_enter (isLoop : IsLoop blocks place)
    (counted : Counted (ofBlocks blocks) counters place) (count : Int) :
    ∃ target : Nat, (if (loopExtent (ofBlocks blocks).blocks place).last.isSome then
        firstForward? (ofBlocks blocks) place else some (place : Int)) = some (target : Int) ∧
      target < blocks.length ∧
      Counted (ofBlocks blocks) (counters.put place count) target := by
  rcases isLoop_iff.mp isLoop with ⟨opener, found, _⟩
  have bound := (List.getElem?_eq_some_iff.mp found).1
  have small := bodyEnd_lt bound
  rw [ofBlocks_blocks, loopExtent_last isLoop]
  rcases Nat.eq_or_lt_of_le (le_bodyEnd blocks place) with empty | nonempty
  · rw [if_pos empty.symm]
    exact ⟨place, rfl, bound, counted.put count fun loop inside => .inr inside⟩
  · rw [if_neg (Nat.ne_of_gt nonempty)]
    refine ⟨place + 1, ?_, Nat.lt_of_le_of_lt nonempty small,
      counted.put count fun loop inside => ?_⟩
    · rw [Option.isSome_some, if_pos rfl, firstForward?, forward_of_loop isLoop nonempty]
      rfl
    · rcases Nat.lt_or_eq_of_le (Nat.le_of_lt_succ inside.after) with before | same
      · exact .inr (.of_le_bodyEnd before (Nat.le_of_succ_le inside.within))
      · exact .inl same

end

end Walk

end Flowchart
