import Flowchart.Proofs.Walk.Rank

/-!
How long a walk without calls may take.

Every visit that goes on lowers the rank. A walk without calls is therefore completed before it has
taken as many steps as there are ranks.
-/

namespace Flowchart.Walk

open Flowchart.Graph

section

variable {blocks : List Block} {options : Options} {counters : Counters} {place : Nat}

theorem mem_outgoing {graph : Graph} {index : Int} {edge : Edge} :
    edge ∈ graph.outgoing index ↔ edge ∈ graph.edges ∧ edge.source = index := by
  rw [Graph.outgoing, List.mem_filter, decide_eq_true_eq]

/-! ## Where visits lead -/

theorem exists_inBody_of_liveLoop? {goal : Int}
    (live : liveLoop? (ofBlocks blocks) counters place = some goal) :
    ∃ target : Nat, goal = target ∧ target < blocks.length ∧ InBody blocks target place ∧
      (counters.lookup (target : Int)).isSome := by
  rcases exists_of_liveLoop? live with ⟨edge, outgoing, rfl, back, counted⟩
  rcases mem_outgoing.mp outgoing with ⟨member, isSource⟩
  rcases onward_or_back member (plain_of_mem member) with
    ⟨source, target, same, isTarget, _, small, around | ⟨_, onward⟩⟩
  · cases Int.natCast_inj.mp (isSource.symm.trans same)
    exact ⟨target, isTarget, small, around, isTarget ▸ counted⟩
  · exact absurd back onward

theorem exists_advance_of_follow {chosen : Option Int} {goal : Int} (other : ¬IsLoop blocks place)
    (drawn : ∀ goal, chosen = some goal →
      ∃ edge ∈ (ofBlocks blocks).forward (place : Int), edge.target = goal)
    (moves : (liveLoop? (ofBlocks blocks) counters place).or chosen = some goal) :
    ∃ target : Nat, goal = target ∧ target < blocks.length ∧
      Advance blocks counters place target := by
  rcases Option.or_eq_some_iff.mp moves with live | ⟨_, isChosen⟩
  · rcases exists_inBody_of_liveLoop? live with ⟨target, isTarget, small, around, counted⟩
    exact ⟨target, isTarget, small, .back around (.inl counted)⟩
  · rcases drawn goal isChosen with ⟨edge, forward, rfl⟩
    rcases mem_forward.mp forward with ⟨outgoing, notBack⟩
    rcases mem_outgoing.mp outgoing with ⟨member, isSource⟩
    rcases onward_or_back member (plain_of_mem member) with
      ⟨source, target, same, isTarget, _, small, turned⟩
    cases Int.natCast_inj.mp (isSource.symm.trans same)
    refine ⟨target, isTarget, small, ?_⟩
    rcases turned with around | ⟨later, _⟩
    · exact .back around (.inr ⟨edge, member, notBack, isTarget, Int.le_of_eq isSource.symm⟩)
    · exact .onward (by rw [bodyEnd_of_not_loop other]; exact later)

theorem exitOf_eq (isLoop : IsLoop blocks place) :
    exitOf (ofBlocks blocks) place = bodyEnd blocks place :=
  loopExtent_last_getD isLoop

theorem countersLeft_eq (isLoop : IsLoop blocks place) :
    countersLeft (ofBlocks blocks) counters place =
      counters.clear place (bodyEnd blocks place + 1 : Nat) := by
  rw [countersLeft, Graph.length, ofBlocks_blocks, loopExtent_close_getD isLoop]

theorem lookup_countersLeft (isLoop : IsLoop blocks place) (loop : Nat) :
    (countersLeft (ofBlocks blocks) counters place).lookup (loop : Int) =
      if place ≤ loop ∧ loop ≤ bodyEnd blocks place then none
      else counters.lookup (loop : Int) := by
  rw [countersLeft_eq isLoop, Counters.lookup_clear]
  by_cases inside : place ≤ loop ∧ loop ≤ bodyEnd blocks place
  · rw [if_pos inside, if_pos (by omega)]
  · rw [if_neg inside, if_neg (by omega)]

/-- A loop is left to a block behind its body or to a loop around it that is still counted. -/
theorem exists_advance_of_leave {goal : Int} (isLoop : IsLoop blocks place)
    (moves : (liveLoop? (ofBlocks blocks) (countersLeft (ofBlocks blocks) counters place)
        (exitOf (ofBlocks blocks) place : Nat)).or
      (firstForward? (ofBlocks blocks) (exitOf (ofBlocks blocks) place : Nat)) = some goal) :
    ∃ target : Nat, goal = target ∧ target < blocks.length ∧
      Advance blocks (countersLeft (ofBlocks blocks) counters place) place target := by
  rw [exitOf_eq isLoop] at moves
  rcases Option.or_eq_some_iff.mp moves with live | ⟨_, first⟩
  · rcases exists_inBody_of_liveLoop? live with ⟨target, isTarget, small, around, counted⟩
    have before : target < place := by
      have cleared := counted
      rw [lookup_countersLeft isLoop] at cleared
      split at cleared
      · cases cleared
      · have last := around.after
        omega
    have within := Nat.le_trans (le_bodyEnd blocks place) around.within
    exact ⟨target, isTarget, small, .back (.of_le_bodyEnd before within) (.inl counted)⟩
  · rcases exists_of_firstForward? first with ⟨edge, forward, rfl⟩
    rcases mem_forward.mp forward with ⟨outgoing, notBack⟩
    rcases mem_outgoing.mp outgoing with ⟨member, isSource⟩
    rcases onward_of_bodyEnd isLoop member notBack isSource with ⟨target, isTarget, small, behind⟩
    exact ⟨target, isTarget, small, .onward behind⟩

theorem target_of_enter {goal : Int} (isLoop : IsLoop blocks place)
    (moves : (if (loopExtent (ofBlocks blocks).blocks place).last.isSome then
      firstForward? (ofBlocks blocks) place else some (place : Int)) = some goal) :
    ∃ target : Nat, goal = target ∧ target ≤ bodyEnd blocks place ∧
      (target = place ∨ target = place + 1) := by
  have last := loopExtent_last isLoop
  rcases Nat.eq_or_lt_of_le (le_bodyEnd blocks place) with empty | nonempty
  · rw [if_pos empty.symm] at last
    rw [ofBlocks_blocks, last, Option.isSome_none, if_neg Bool.false_ne_true] at moves
    cases moves
    exact ⟨place, rfl, Nat.le_of_eq empty, .inl rfl⟩
  · rw [if_neg (Nat.ne_of_gt nonempty)] at last
    rw [ofBlocks_blocks, last, Option.isSome_some, if_pos rfl, firstForward?,
      forward_of_loop isLoop nonempty] at moves
    cases moves
    exact ⟨place + 1, rfl, nonempty, .inr rfl⟩

/-! ## The rank at a visit -/

def rankAt (blocks : List Block) (iterations : Int) (counters : Counters) (place : Nat) : Nat :=
  rankOf blocks (iterations.toNat + 1) (digitAt blocks iterations counters place) place

variable {iterations : Int} {later : Counters} {target : Nat}

theorem rankAt_lt_of_advance (sound : later.Sound)
    (agree : ∀ loop : Nat, loop < place →
      later.lookup (loop : Int) = counters.lookup (loop : Int))
    (small : target < blocks.length) (advance : Advance blocks later place target) :
    rankAt blocks iterations later target < rankAt blocks iterations counters place :=
  rankOf_lt_of_behind small (behind_of_advance advance)
    (digitAt_le_of_advance sound agree advance)

theorem rankAt_lt_of_enter (sound : counters.Sound) (small : target < blocks.length)
    (isLoop : IsLoop blocks place) (again : counters.countOf place < iterations)
    (within : target ≤ bodyEnd blocks place) (next : target = place ∨ target = place + 1) :
    rankAt blocks iterations (counters.put place (counters.countOf place + 1)) target <
      rankAt blocks iterations counters place := by
  have positive := sound.countOf place
  have counted := counters.lookup_put_self place (counters.countOf place + 1)
  refine rankOf_lt_of_digit small isLoop (fun outer before => ?_) ?_
    fun other => Nat.lt_succ_of_le (digitAt_le (sound.counted place) target other)
  · have fewer : leftInside blocks iterations
        (counters.put place (counters.countOf place + 1)) target outer ≤
          leftInside blocks iterations counters place outer :=
      leftInside_le_of_restarts (counters.lookup_put_of_ne _ (by omega)) (.of_le (by omega))
    simp only [digitAt, digit, if_neg (Nat.ne_of_lt before), if_pos before,
      if_neg (show outer ≠ target by omega), if_pos (show outer < target by omega)]
    by_cases inside : place ≤ bodyEnd blocks outer
    · rw [if_pos inside]
      split <;> omega
    · have outside : ¬target ≤ bodyEnd blocks outer := by omega
      rw [if_neg outside]
      exact Nat.zero_le _
  · have lowered : digitAt blocks iterations
        (counters.put place (counters.countOf place + 1)) target place =
          (iterations - (counters.countOf place + 1)).toNat := by
      rcases next with rfl | rfl
      · have count : (counters.put target (counters.countOf target + 1)).countOf target =
            counters.countOf target + 1 := by
          rw [Counters.countOf, counted, Option.getD_some]
        simp only [digitAt, digit, if_true, count]
      · simp only [digitAt, digit, if_neg (show place ≠ place + 1 by omega),
          if_pos (Nat.lt_succ_self place), if_pos within, leftInside, counted]
    rw [lowered]
    simp only [digitAt, digit, if_true]
    omega

/-- Every visit that goes on, other than to an end or a return, lowers the rank. -/
theorem rankAt_lt_of_visit {block : Block} {stack laterStack : List Frame} {goal : Int}
    (sound : counters.Sound) (found : blocks[place]? = some block)
    (goesOn : block.kind ≠ .stop ∧ block.kind ≠ .return)
    (visit : Visit (ofBlocks blocks) options place block stack counters laterStack later
      (some goal)) :
    ∃ target : Nat, goal = target ∧ target < blocks.length ∧ later.Sound ∧
      rankAt blocks options.iterations later target <
        rankAt blocks options.iterations counters place := by
  have bound := (List.getElem?_eq_some_iff.mp found).1
  generalize moves : some goal = moved at visit
  cases visit with
  | finish _ ends => exact absurd ends (not_or.mpr goesOn)
  | resume _ _ _ ends => exact absurd ends (not_or.mpr goesOn)
  | enter _ _ kind again =>
      have isLoop := isLoop_iff.mpr ⟨block, found, kind⟩
      rcases target_of_enter isLoop moves.symm with ⟨target, isTarget, within, next⟩
      have small := Nat.lt_of_le_of_lt within (bodyEnd_lt bound)
      exact ⟨target, isTarget, small, sound.counted place,
        rankAt_lt_of_enter sound small isLoop again within next⟩
  | leave _ _ kind enough =>
      have isLoop := isLoop_iff.mpr ⟨block, found, kind⟩
      rcases exists_advance_of_leave isLoop moves.symm with ⟨target, isTarget, small, advance⟩
      have cleared : (countersLeft (ofBlocks blocks) counters place).Sound := sound.clear _ _
      refine ⟨target, isTarget, small, cleared,
        rankAt_lt_of_advance cleared (fun loop before => ?_) small advance⟩
      rw [lookup_countersLeft isLoop, if_neg (by omega)]
  | call frame _ _ kind _ =>
      have other : ¬IsLoop blocks place := by
        simp [IsLoop, found, kind]
      rcases exists_advance_of_follow other (fun goal first => exists_of_firstForward? first)
        moves.symm with ⟨target, isTarget, small, advance⟩
      exact ⟨target, isTarget, small, sound,
        rankAt_lt_of_advance sound (fun _ _ => rfl) small advance⟩
  | follow _ _ chosen kinds drawn =>
      have other : ¬IsLoop blocks place := by
        simp [IsLoop, found, kinds.2.2.1]
      rcases exists_advance_of_follow other drawn moves.symm with
        ⟨target, isTarget, small, advance⟩
      exact ⟨target, isTarget, small, sound,
        rankAt_lt_of_advance sound (fun _ _ => rfl) small advance⟩

end

/-! ## The start -/

theorem exists_start {blocks : List Block} (starts : ∃ block ∈ blocks, block.kind = .start) :
    ∃ index block, (ofBlocks blocks).find? .start = some index ∧
      blocks[index]? = some block ∧ block.kind = .start := by
  have found : ((ofBlocks blocks).find? .start).isSome := by
    simpa [Graph.find?, List.findIdx?_isSome] using starts
  rcases Option.isSome_iff_exists.mp found with ⟨index, isFirst⟩
  rcases List.findIdx?_eq_some_iff_getElem.mp isFirst with ⟨small, isStart, _⟩
  exact ⟨index, _, isFirst, List.getElem?_eq_getElem small, of_decide_eq_true isStart⟩

theorem liveLoop?_nil (graph : Graph) (index : Int) : liveLoop? graph [] index = none := by
  simp [liveLoop?, deepest?]

theorem rankAt_lt_of_start {blocks : List Block} {block : Block} {index : Nat} {goal : Int}
    (iterations : Int) (found : blocks[index]? = some block) (isStart : block.kind = .start)
    (first : firstForward? (ofBlocks blocks) (index : Int) = some goal) :
    ∃ target : Nat, goal = target ∧ target < blocks.length ∧
      rankAt blocks iterations [] target < rankAt blocks iterations [] index := by
  have other : ¬IsLoop blocks index := by
    simp [IsLoop, found, isStart]
  have moves : (liveLoop? (ofBlocks blocks) [] (index : Int)).or (some goal) = some goal := by
    rw [liveLoop?_nil, Option.none_or]
  rcases exists_advance_of_follow other
    (fun place same => exists_of_firstForward? (first.trans same)) moves with
    ⟨target, isTarget, small, advance⟩
  exact ⟨target, isTarget, small,
    rankAt_lt_of_advance Counters.sound_nil (fun _ _ => rfl) small advance⟩

theorem rankAt_lt {blocks : List Block} {counters : Counters} {place : Nat} (iterations : Int)
    (sound : counters.Sound) (small : place < blocks.length) :
    rankAt blocks iterations counters place <
      blocks.length * (iterations.toNat + 1) ^ blocks.countP fun block => block.kind = .loop :=
  rankOf_lt small fun loop => Nat.lt_succ_of_le (digitAt_le sound place loop)

/-! ## Walks without calls -/

section

variable {blocks : List Block} {options : Options} {bound : Nat}

structure Bounded (blocks : List Block) (iterations : Int) (bound : Nat) (state : State)
    (place : Nat) : Prop where
  current : state.current = some (place : Int)
  small : place < blocks.length
  outside : state.stack = []
  sound : state.counters.Sound
  room : state.path.length + rankAt blocks iterations state.counters place < bound

variable {σ τ : Type} {oracle : Oracle σ} {now : τ}

/-- Outside all calls only a call changes the calls, and an end does not go on. -/
theorem Visit.outside {graph : Graph} {index : Nat} {block : Block} {stack : List Frame}
    {counters later : Counters} {goal : Int} (noCall : block.kind ≠ .call)
    (visit : Visit graph options index block [] counters stack later (some goal)) :
    (block.kind ≠ .stop ∧ block.kind ≠ .return) ∧ stack = [] := by
  generalize moves : some goal = moved at visit
  cases visit with
  | finish _ ends => cases moves
  | enter _ _ isLoop _ => simp [isLoop]
  | leave _ _ isLoop _ => simp [isLoop]
  | call _ _ _ isCall _ => exact absurd isCall noCall
  | follow _ _ _ other _ => exact ⟨⟨other.1, other.2.1⟩, rfl⟩

theorem Bounded.step {state : State} {place : Nat} {memory : σ} {knows : σ → Prop}
    (answers : oracle.Answers knows) (remembers : knows memory)
    (callFree : ∀ block ∈ blocks, block.kind ≠ .call)
    (bounded : Bounded blocks options.iterations bound state place)
    (paused : state.phase = .paused) :
    ∃ next, Tick oracle options (ofBlocks blocks) now (state, memory) next ∧ knows next.2 ∧
      (next.1.phase = .completed ∧ next.1.path.length ≤ bound ∨
        next.1.phase = .paused ∧ ∃ target,
          Bounded blocks options.iterations bound next.1 target ∧
            rankAt blocks options.iterations next.1.counters target <
              rankAt blocks options.iterations state.counters place) := by
  have small := bounded.small
  have room := bounded.room
  have found := List.getElem?_eq_getElem small
  rcases exists_visit options (ofBlocks blocks) place blocks[place] answers remembers now state with
    ⟨stack, counters, goal, entry, later, executed, knowing, visit⟩
  refine ⟨_, tick_of_execute paused bounded.current found executed, knowing, ?_⟩
  cases goal with
  | none =>
      refine .inl ⟨rfl, ?_⟩
      simp only [State.after_path, List.length_append, List.length_singleton]
      omega
  | some goal =>
      rw [bounded.outside] at visit
      rcases visit.outside (callFree _ (List.getElem_mem small)) with ⟨goesOn, outside⟩
      rcases rankAt_lt_of_visit bounded.sound found goesOn visit with
        ⟨target, rfl, inBlocks, sound, falls⟩
      refine .inr ⟨paused, target, ⟨rfl, inBlocks, ?_, ?_, ?_⟩, ?_⟩
      · rw [State.after_stack]
        exact outside
      · rw [State.after_counters]
        exact sound
      · simp only [State.after_path, State.after_counters, List.length_append,
          List.length_singleton]
        omega
      · rw [State.after_counters]
        exact falls

variable {χ : Type} [Zero τ] [ClockTime τ] [LE τ] [DecidableLE τ] [LT τ] [DecidableLT τ] [IntCast τ]

/-- A walk without calls is completed within `n * (k + 1) ^ l` steps, where `n` is the number of
blocks, `k` the number of iterations and `l` the number of loops, whatever the oracle answers. -/
theorem runUntilComplete_of_callFree (blocks : List Block) (options : Options) (oracle : Oracle σ)
    (memory : σ) (audience : χ) (knows : σ → Prop) (answers : oracle.Answers knows)
    (remembers : knows memory) (starts : ∃ block ∈ blocks, block.kind = .start)
    (callFree : ∀ block ∈ blocks, block.kind ≠ .call) :
    ∃ player : Player τ σ χ,
      (Player.runUntilComplete (.silent (ofBlocks blocks) options oracle)
        (blocks.length * (options.iterations.toNat + 1) ^
          blocks.countP fun block => block.kind = .loop : Nat)).run
          (Player.initial options memory audience) = (.ok (), player) ∧
      player.state.phase = .completed ∧
      player.state.path.length ≤
        blocks.length * (options.iterations.toNat + 1) ^
          blocks.countP fun block => block.kind = .loop := by
  rcases exists_start starts with ⟨start, block, found, atStart, isStart⟩
  have small := (List.getElem?_eq_some_iff.mp atStart).1
  have highest := rankAt_lt options.iterations Counters.sound_nil small
  revert highest
  generalize blocks.length * (options.iterations.toNat + 1) ^
    blocks.countP (fun block => block.kind = .loop) = bound
  intro highest
  refine exists_run_of_size memory audience
    (fun size place => knows place.2 ∧ ∃ position,
      Bounded blocks options.iterations bound place.1 position ∧
        rankAt blocks options.iterations place.1.counters position = size)
    (fun place => place.1.path.length ≤ bound) ?_ found (by omega) ?_ ?_
  · rintro _ ⟨state, memory⟩ paused ⟨remembers, place, bounded, rfl⟩
    rcases bounded.step answers remembers callFree paused with
      ⟨next, tick, knowing, completed | ⟨still, target, holds, falls⟩⟩
    · exact ⟨next, tick, .inl completed⟩
    · exact ⟨next, tick, .inr ⟨still, _, falls, knowing, target, holds, rfl⟩⟩
  · intro _ state
    simp only [State.after_path, State.fresh, State.initial, List.nil_append,
      List.length_singleton]
    omega
  · intro goal first
    rcases rankAt_lt_of_start options.iterations atStart isStart first with
      ⟨target, rfl, inBlocks, falls⟩
    refine ⟨rankAt blocks options.iterations [] target, by omega, fun state => ?_⟩
    refine ⟨remembers, target, ⟨rfl, inBlocks, rfl, Counters.sound_nil, ?_⟩, rfl⟩
    simp only [State.after_path, State.after_counters, State.fresh, State.initial,
      List.nil_append, List.length_singleton]
    omega

end

def countedLoop : List Block :=
  [⟨"Start", 0, .start, false, none⟩, ⟨"While x", 0, .loop, false, none⟩,
    ⟨"Output x", 1, .output, false, none⟩, ⟨"End", 0, .stop, false, none⟩]

theorem runUntilComplete_countedLoop :
    (∃ block ∈ countedLoop, block.kind = .start) ∧ (∀ block ∈ countedLoop, block.kind ≠ .call) ∧
      ∃ player : Player Number Oracle.Adviser Unit,
        (Player.runUntilComplete (.silent (ofBlocks countedLoop) {} Oracle.advising) 16).run
          (Player.initial {} (.fixed Oracle.no 0) ()) = (.ok (), player) ∧
        player.state.phase = .completed ∧ player.state.path.length ≤ 16 :=
  ⟨by decide, by decide,
    runUntilComplete_of_callFree countedLoop {} Oracle.advising (.fixed Oracle.no 0) ()
      (· = .fixed Oracle.no 0) (Oracle.answers_fixed _ _) rfl (by decide) (by decide)⟩

end Flowchart.Walk
