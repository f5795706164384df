import Flowchart.Proofs.Program.Compiled
import Flowchart.Proofs.Walk.Bound
import Flowchart.Proofs.Walk.Events

/-!
How long a walk with calls may take.

The end of the program goes on behind the innermost call, in the middle of loops that may have been
left since. As long as no call returns into a loop that an edge from there, or from further on,
enters again after it was left, the rank behind a call stays below the rank of the call. A call then
costs no more than twice the visits that are left behind it.
-/

namespace Flowchart.Walk

open Flowchart.Graph

section

variable {blocks : List Block} {iterations : Int} {counters later : Counters} {place : Nat}

/-! ## Places to return to -/

def Steady (blocks : List Block) (place : Nat) : Prop :=
  ∀ loop, InBody blocks loop place → ¬Restarts blocks place loop

def ReturnsSteadily (blocks : List Block) : Prop :=
  ∀ (index : Nat) (block : Block) (target : Nat), blocks[index]? = some block → block.kind = .call →
    firstForward? (ofBlocks blocks) (index : Int) = some (target : Int) → Steady blocks target

def rankFresh (blocks : List Block) (iterations : Int) (counters : Counters) (place : Nat) : Nat :=
  rankOf blocks (iterations.toNat + 1) (digitFresh blocks iterations counters place) place

theorem rankOf_le {base : Nat} {digits lower : Nat → Nat}
    (below : ∀ loop, lower loop ≤ digits loop) :
    rankOf blocks base lower place ≤ rankOf blocks base digits place :=
  Nat.add_le_add_right
    (Nat.mul_le_mul_right _ (number_le fun loop _ => below loop)) _

theorem rankAt_le_rankFresh (sound : counters.Sound) :
    rankAt blocks iterations counters place ≤ rankFresh blocks iterations counters place :=
  rankOf_le (digitAt_le_digitFresh sound place)

theorem rankFresh_le (below : ∀ loop, InBody blocks loop place →
      leftInside blocks iterations later place loop ≤
        leftInside blocks iterations counters place loop) :
    rankFresh blocks iterations later place ≤ rankFresh blocks iterations counters place := by
  refine rankOf_le fun loop => ?_
  unfold digitFresh digit
  split
  · exact Nat.le_refl _
  split
  · rename_i before
    split
    · rename_i within
      exact below loop (.of_le_bodyEnd before within)
    · exact Nat.le_refl _
  · exact Nat.le_refl _

/-- Leaving a loop raises no rank of a steady place. -/
theorem rankFresh_le_of_leave (isLoop : IsLoop blocks place) {target : Nat}
    (steady : Steady blocks target) :
    rankFresh blocks iterations (countersLeft (ofBlocks blocks) counters place) target ≤
      rankFresh blocks iterations counters target := by
  refine rankFresh_le fun loop around => ?_
  by_cases cleared : place ≤ loop ∧ loop ≤ bodyEnd blocks place
  · have nothing : (countersLeft (ofBlocks blocks) counters place).lookup (loop : Int) = none := by
      rw [lookup_countersLeft isLoop, if_pos cleared]
    simp only [leftInside, nothing, if_neg (steady loop around)]
    exact Nat.zero_le _
  · refine leftInside_le_of_restarts ?_ id
    rw [lookup_countersLeft isLoop, if_neg cleared]

theorem leftInside_put_le {count : Int} (live : counters.lookup (place : Int) = some count)
    (target : Nat) :
    leftInside blocks iterations (counters.put place (counters.countOf place + 1)) target place ≤
      leftInside blocks iterations counters target place := by
  have isCount : counters.countOf place = count := by
    rw [Counters.countOf, live, Option.getD_some]
  rw [leftInside, leftInside, Counters.lookup_put_self, live, isCount]
  simp only
  omega

theorem rankFresh_lt_of_startsOver (sound : counters.Sound) (isLoop : IsLoop blocks place)
    (again : counters.countOf place < iterations) {target : Nat} (small : target < blocks.length)
    (left : counters.lookup (place : Int) = none) (around : InBody blocks place target) :
    rankFresh blocks iterations (counters.put place (counters.countOf place + 1)) target <
      rankAt blocks iterations counters place := by
  have isCount : counters.countOf place = 0 := by
    rw [Counters.countOf, left, Option.getD_none]
  have counted := counters.lookup_put_self place (counters.countOf place + 1)
  have after := around.after
  refine rankOf_lt_of_digit small isLoop (fun outer before => ?_) ?_
    fun other => Nat.lt_succ_of_le (digitFresh_le (sound.counted place) target other)
  · simp only [digitFresh, digitAt, digit, if_neg (Nat.ne_of_lt before), if_pos before,
      if_neg (show outer ≠ target by omega), if_pos (show outer < target by omega)]
    by_cases inside : target ≤ bodyEnd blocks outer
    · rw [if_pos inside, if_pos (by omega)]
      exact leftInside_le_of_restarts (counters.lookup_put_of_ne _ (by omega))
        (.of_le (Nat.le_of_lt after))
    · rw [if_neg inside]
      exact Nat.zero_le _
  · simp only [digitFresh, digitAt, digit, if_true, if_neg (Nat.ne_of_lt after),
      if_pos after, if_pos around.within, leftInside, counted]
    omega

theorem rankFresh_le_of_enter (sound : counters.Sound) (isLoop : IsLoop blocks place)
    (again : counters.countOf place < iterations) {target : Nat} (small : target < blocks.length) :
    rankFresh blocks iterations (counters.put place (counters.countOf place + 1)) target ≤
      max (rankFresh blocks iterations counters target)
        (rankAt blocks iterations counters place) := by
  cases live : counters.lookup (place : Int) with
  | some count =>
      refine Nat.le_trans (rankFresh_le fun loop _ => ?_) (Nat.le_max_left _ _)
      by_cases same : loop = place
      · subst same
        exact leftInside_put_le live target
      · exact leftInside_le_of_restarts (counters.lookup_put_of_ne _ (by omega)) id
  | none =>
      by_cases around : InBody blocks place target
      · exact Nat.le_trans (Nat.le_of_lt
          (rankFresh_lt_of_startsOver sound isLoop again small live around)) (Nat.le_max_right _ _)
      · refine Nat.le_trans (rankFresh_le fun loop inside => ?_) (Nat.le_max_left _ _)
        have different : loop ≠ place := fun same => around (same ▸ inside)
        exact leftInside_le_of_restarts (counters.lookup_put_of_ne _ (by omega)) id

variable (iterations) in
theorem rankFresh_lt_of_call {block : Block} {goal : Int} (sound : counters.Sound)
    (found : blocks[place]? = some block) (isCall : block.kind = .call)
    (returns : firstForward? (ofBlocks blocks) (place : Int) = some goal) :
    ∃ target : Nat, goal = target ∧ target < blocks.length ∧
      rankFresh blocks iterations counters target < rankAt blocks iterations counters place := by
  rcases exists_of_firstForward? returns with ⟨edge, forward, rfl⟩
  rcases mem_forward.mp forward with ⟨outgoing, notBack⟩
  rcases mem_outgoing.mp outgoing with ⟨member, isSource⟩
  have plain : edge.kind = .default := by
    rcases default_or_loopBack found (.inr isCall) member isSource with plain | back
    · exact plain
    · exact absurd back notBack
  rcases onward_of_default member plain with ⟨source, target, same, isTarget, order⟩
  rcases onward_or_back member (plain_of_mem member) with ⟨_, other, _, isOther, _, small, _⟩
  have behind : bodyEnd blocks place < target := by
    rw [bodyEnd_of_not_loop (by simp [IsLoop, found, isCall])]
    omega
  have inBlocks : target < blocks.length := by omega
  exact ⟨target, isTarget, inBlocks, rankOf_lt_of_behind inBlocks
    (.inl (Nat.lt_of_lt_of_le behind (le_bodyEnd blocks target)))
    (digitFresh_le_of_onward sound (fun _ _ => rfl) behind)⟩

end

/-! ## Calls that have not returned -/

def visitsWithin (rank : Nat) : Nat := 2 ^ (rank + 1) - 1

theorem visitsWithin_pos (rank : Nat) : 0 < visitsWithin rank := by
  have positive := Nat.one_lt_two_pow (Nat.succ_ne_zero rank)
  rw [visitsWithin]
  omega

theorem visitsWithin_succ (rank : Nat) :
    visitsWithin (rank + 1) = 2 * visitsWithin rank + 1 := by
  have positive := Nat.two_pow_pos (rank + 1)
  rw [visitsWithin, visitsWithin, Nat.pow_succ 2 (rank + 1)]
  omega

theorem visitsWithin_lt {lower rank : Nat} (falls : lower < rank) :
    visitsWithin lower < visitsWithin rank := by
  have more := Nat.pow_lt_pow_right (a := 2) (by omega) (Nat.succ_lt_succ falls)
  have positive := Nat.two_pow_pos (lower + 1)
  rw [visitsWithin, visitsWithin]
  omega

theorem visitsWithin_le {lower rank : Nat} (below : lower ≤ rank) :
    visitsWithin lower ≤ visitsWithin rank := by
  rcases Nat.lt_or_eq_of_le below with falls | rfl
  · exact Nat.le_of_lt (visitsWithin_lt falls)
  · exact Nat.le_refl _

section

variable (blocks : List Block) (iterations : Int) (counters : Counters)

/-- The calls that have not returned from a walk of a given rank, and how many visits they may take
after their returns. Every call has a bound on the rank behind it, the outer ones higher bounds. -/
inductive Pending : Nat → List Frame → Nat → Prop
  | nil (rank : Nat) : Pending rank [] 0
  | cons {rank bound cost : Nat} {frame : Frame} {stack : List Frame} (within : rank ≤ bound)
      (returns : ∀ goal, frame.returnTo = some goal → ∃ target : Nat, goal = target ∧
        target < blocks.length ∧ Steady blocks target ∧
          rankFresh blocks iterations counters target ≤ bound)
      (outer : Pending bound stack cost) : Pending rank (frame :: stack) (visitsWithin bound + cost)

variable {blocks iterations counters} {later : Counters} {place rank less cost : Nat}
variable {stack : List Frame}

theorem Pending.lower (pending : Pending blocks iterations counters rank stack cost)
    (below : less ≤ rank) : Pending blocks iterations counters less stack cost := by
  cases pending with
  | nil => exact .nil less
  | cons within returns outer => exact .cons (Nat.le_trans below within) returns outer

theorem Pending.change (pending : Pending blocks iterations counters rank stack cost)
    (below : ∀ target < blocks.length, Steady blocks target →
      rankFresh blocks iterations later target ≤
        max (rankFresh blocks iterations counters target) rank) :
    Pending blocks iterations later rank stack cost := by
  induction pending with
  | nil rank => exact .nil rank
  | @cons rank bound cost frame stack within returns outer induction =>
      refine .cons within (fun goal isGoal => ?_) (induction fun target small steady => ?_)
      · rcases returns goal isGoal with ⟨target, isTarget, small, steady, bounded⟩
        have changed := below target small steady
        exact ⟨target, isTarget, small, steady, by omega⟩
      · have changed := below target small steady
        omega

theorem Pending.resume {frame : Frame} {goal : Int} (sound : counters.Sound)
    (pending : Pending blocks iterations counters rank (frame :: stack) cost)
    (returns : frame.returnTo = some goal) :
    ∃ (target laterCost : Nat), goal = target ∧ target < blocks.length ∧
      Pending blocks iterations counters (rankAt blocks iterations counters target) stack
        laterCost ∧
      visitsWithin (rankAt blocks iterations counters target) + laterCost <
        visitsWithin rank + cost := by
  cases pending with
  | cons within known outer =>
      rcases known goal returns with ⟨target, isTarget, inBlocks, _, bounded⟩
      have below := Nat.le_trans (rankAt_le_rankFresh sound) bounded
      have fewer := visitsWithin_le below
      have positive := visitsWithin_pos rank
      exact ⟨target, _, isTarget, inBlocks, outer.lower below, by omega⟩

/-- The ranks of the block behind a call and of the one that the walk goes on to are both lower than
that of the call, which therefore pays for both. -/
theorem Pending.push {frame : Frame} {block : Block} (steady : ReturnsSteadily blocks)
    (sound : counters.Sound) (found : blocks[place]? = some block) (isCall : block.kind = .call)
    (returns : frame.returnTo = firstForward? (ofBlocks blocks) (place : Int))
    (pending : Pending blocks iterations counters (rankAt blocks iterations counters place) stack
      cost)
    (falls : less < rankAt blocks iterations counters place) :
    ∃ laterCost : Nat, Pending blocks iterations counters less (frame :: stack) laterCost ∧
      visitsWithin less + laterCost <
        visitsWithin (rankAt blocks iterations counters place) + cost := by
  rcases Nat.exists_eq_add_one_of_ne_zero (Nat.ne_of_gt (Nat.zero_lt_of_lt falls)) with
    ⟨bound, isBound⟩
  have below : less ≤ bound := by omega
  have pushed : Pending blocks iterations counters less (frame :: stack)
      (visitsWithin bound + cost) := by
    refine .cons below (fun goal isGoal => ?_) (pending.lower (by omega))
    rw [returns] at isGoal
    rcases rankFresh_lt_of_call iterations sound found isCall isGoal with
      ⟨behind, rfl, inBlocks, lower⟩
    exact ⟨behind, rfl, inBlocks, steady place block behind found isCall isGoal, by omega⟩
  have fewer := visitsWithin_le below
  have twice := visitsWithin_succ bound
  refine ⟨_, pushed, ?_⟩
  rw [isBound]
  omega

/-- Every visit lowers the number of visits that are left, those behind calls included. -/
theorem Pending.visit {options : Options} {block : Block} {goal : Int}
    {laterStack : List Frame} (steady : ReturnsSteadily blocks) (sound : counters.Sound)
    (found : blocks[place]? = some block)
    (pending : Pending blocks options.iterations counters
      (rankAt blocks options.iterations counters place) stack cost)
    (visit : Visit (ofBlocks blocks) options place block stack counters laterStack later
      (some goal)) :
    ∃ (target : Nat) (laterCost : Nat), goal = target ∧ target < blocks.length ∧ later.Sound ∧
      Pending blocks options.iterations later
        (rankAt blocks options.iterations later target) laterStack laterCost ∧
      visitsWithin (rankAt blocks options.iterations later target) + laterCost <
        visitsWithin (rankAt blocks options.iterations counters place) + cost := by
  by_cases ends : block.kind = .stop ∨ block.kind = .return
  · generalize moves : some goal = moved at visit
    cases visit with
    | finish => cases moves
    | resume frame =>
        rcases pending.resume sound moves.symm with
          ⟨target, laterCost, isTarget, inBlocks, still, fewer⟩
        exact ⟨target, laterCost, isTarget, inBlocks, sound, still, fewer⟩
    | enter _ _ isLoop _ => simp [isLoop] at ends
    | leave _ _ isLoop _ => simp [isLoop] at ends
    | call _ _ _ isCall _ => simp [isCall] at ends
    | follow _ _ _ other _ => exact absurd ends (not_or.mpr ⟨other.1, other.2.1⟩)
  · rcases rankAt_lt_of_visit sound found (not_or.mp ends) visit with
      ⟨target, isTarget, inBlocks, stillSound, falls⟩
    have fewer := visitsWithin_lt falls
    generalize moves : some goal = moved at visit
    cases visit with
    | finish _ stops => exact absurd stops ends
    | resume _ _ _ stops => exact absurd stops ends
    | enter _ _ kind again =>
        have isLoop := isLoop_iff.mpr ⟨block, found, kind⟩
        have changed := pending.change fun target inBlocks _ =>
          rankFresh_le_of_enter sound isLoop again inBlocks
        exact ⟨target, cost, isTarget, inBlocks, stillSound,
          changed.lower (Nat.le_of_lt falls), by omega⟩
    | leave _ _ kind enough =>
        have isLoop := isLoop_iff.mpr ⟨block, found, kind⟩
        have changed := pending.change fun target _ steady =>
          Nat.le_trans (rankFresh_le_of_leave isLoop steady) (Nat.le_max_left _ _)
        exact ⟨target, cost, isTarget, inBlocks, stillSound,
          changed.lower (Nat.le_of_lt falls), by omega⟩
    | call frame _ _ isCall returns =>
        rcases pending.push steady sound found isCall returns falls with
          ⟨laterCost, pushed, less⟩
        exact ⟨target, laterCost, isTarget, inBlocks, stillSound, pushed, less⟩
    | follow _ _ _ _ _ =>
        exact ⟨target, cost, isTarget, inBlocks, stillSound,
          pending.lower (Nat.le_of_lt falls), by omega⟩

end

/-! ## Walks whose calls return to steady places -/

section

variable {σ τ χ : Type} {oracle : Oracle σ} {knows : σ → Prop} {memory : σ}

def Costs (blocks : List Block) (iterations : Int) (size : Nat) (state : State) : Prop :=
  ∃ place cost : Nat, state.current = some (place : Int) ∧ place < blocks.length ∧
    state.counters.Sound ∧
    Pending blocks iterations state.counters (rankAt blocks iterations state.counters place)
      state.stack cost ∧
    visitsWithin (rankAt blocks iterations state.counters place) + cost = size

theorem Costs.tick {blocks : List Block} {options : Options} {size : Nat} {state : State} {now : τ}
    (steady : ReturnsSteadily blocks) (costs : Costs blocks options.iterations size state)
    (paused : state.phase = .paused) :
    (∃ error, transition oracle options (ofBlocks blocks) now state memory .tick =
        .error (.unreadable error) ∧ ∀ knows, oracle.Answers knows → ¬knows memory) ∨
      ∃ next, Tick oracle options (ofBlocks blocks) now (state, memory) next ∧
        (∀ knows, oracle.Answers knows → knows memory → knows next.2) ∧
        (next.1.phase = .completed ∨ next.1.phase = .paused ∧
          ∃ smaller < size, Costs blocks options.iterations smaller next.1) := by
  rcases costs with ⟨place, cost, current, small, sound, pending, rfl⟩
  have found := List.getElem?_eq_getElem small
  cases outcome oracle options (ofBlocks blocks) now state memory place blocks[place] with
  | failed error executed unknown =>
      refine .inl ⟨error, ?_, unknown⟩
      have atBlock : (ofBlocks blocks).block? (place : Int) = some blocks[place] := by
        rw [block?, if_neg (by omega), Int.toNat_natCast]
        exact found
      rw [tick_of_inside (by simp [State.Idle, paused]) current atBlock, executed]
      rfl
  | visited stack counters goal entry later executed _ keeps visit _ =>
      refine .inr ⟨_, tick_of_execute paused current found executed, keeps, ?_⟩
      cases goal with
      | none => exact .inl rfl
      | some goal =>
          rcases pending.visit steady sound found visit with
            ⟨target, laterCost, rfl, inBlocks, stillSound, stillPending, fewer⟩
          refine .inr ⟨paused, _, fewer, target, laterCost, rfl, inBlocks, ?_, ?_, ?_⟩
          · rw [State.after_counters]
            exact stillSound
          · rw [State.after_counters, State.after_stack]
            exact stillPending
          · rw [State.after_counters]

variable [Zero τ] [ClockTime τ] [LE τ] [DecidableLE τ] [LT τ] [DecidableLT τ] [IntCast τ]

/-- A walk whose calls return to steady places is completed in time, unless the oracle does not
answer. -/
theorem ends_of_returnsSteadily (blocks : List Block) (options : Options) (oracle : Oracle σ)
    (memory : σ) (audience : χ) (starts : ∃ block ∈ blocks, block.kind = .start)
    (steady : ReturnsSteadily blocks) :
    Player.Ends (fun _ => True)
      (fun fault => (∃ error, fault = .unreadable error) ∧
        ∀ knows, oracle.Answers knows → ¬knows memory)
      ((Player.runUntilComplete (.silent (ofBlocks blocks) options oracle)
        (2 ^ (blocks.length * (options.iterations.toNat + 1) ^
          blocks.countP fun block => block.kind = .loop) - 1 : Nat)).run
        (Player.initial options memory audience : Player τ σ χ)) := by
  rcases exists_start starts with ⟨start, block, found, atStart, isStart⟩
  have small := (List.getElem?_eq_some_iff.mp atStart).1
  have highest := rankAt_lt options.iterations Counters.sound_nil small
  revert highest
  generalize blocks.length * (options.iterations.toNat + 1) ^
    blocks.countP (fun block => block.kind = .loop) = bound
  intro highest
  have some : 2 ^ 1 ≤ 2 ^ bound := Nat.pow_le_pow_right (by omega) (Nat.zero_lt_of_lt highest)
  refine runUntilComplete_ends memory audience
    (fun size place => (∀ knows, oracle.Answers knows → knows memory → knows place.2) ∧
      Costs blocks options.iterations size place.1)
    _ _ ?_ found (by omega) (fun _ _ => trivial) ?_
  · rintro size ⟨state, current⟩ paused ⟨keeps, costs⟩
    rcases costs.tick steady paused with
      ⟨error, failed, unknown⟩ | ⟨next, tick, remembers, completed | ⟨still, smaller, fewer, holds⟩⟩
    · exact .inl ⟨_, ⟨⟨error, rfl⟩, fun knows answers known =>
        unknown knows answers (keeps knows answers known)⟩, failed⟩
    · exact .inr ⟨next, tick, .inl ⟨completed, trivial⟩⟩
    · exact .inr ⟨next, tick, .inr ⟨still, smaller, fewer, fun knows answers known =>
        remembers knows answers (keeps knows answers known), holds⟩⟩
  · intro goal first
    rcases rankAt_lt_of_start options.iterations atStart isStart first with
      ⟨target, rfl, inBlocks, falls⟩
    refine ⟨visitsWithin (rankAt blocks options.iterations [] target) + 0, ?_, fun state =>
      ⟨fun _ _ => id, target, 0, rfl, inBlocks, Counters.sound_nil, .nil _, rfl⟩⟩
    have power := Nat.pow_le_pow_right (n := 2) (by omega)
      (show rankAt blocks options.iterations [] target + 2 ≤ bound by omega)
    have positive := Nat.two_pow_pos (rankAt blocks options.iterations [] target)
    rw [Nat.pow_succ 2 (rankAt blocks options.iterations [] target + 1)] at power
    rw [visitsWithin]
    have twice := Nat.pow_succ 2 (rankAt blocks options.iterations [] target)
    omega

theorem exists_run_of_returnsSteadily (blocks : List Block) (options : Options) (audience : χ)
    (answers : oracle.Answers knows) (remembers : knows memory)
    (starts : ∃ block ∈ blocks, block.kind = .start) (steady : ReturnsSteadily blocks) :
    ∃ player : Player τ σ χ,
      (Player.runUntilComplete (.silent (ofBlocks blocks) options oracle)
        (2 ^ (blocks.length * (options.iterations.toNat + 1) ^
          blocks.countP fun block => block.kind = .loop) - 1 : Nat)).run
          (Player.initial options memory audience) = (.ok (), player) ∧
      player.state.phase = .completed := by
  have ends := ends_of_returnsSteadily (τ := τ) blocks options oracle memory audience starts steady
  generalize (Player.runUntilComplete (.silent (ofBlocks blocks) options oracle) _).run
    (Player.initial options memory audience : Player τ σ χ) = result at ends ⊢
  cases ends with
  | completed completed => exact ⟨_, rfl, completed⟩
  | failed isFault => exact absurd remembers (isFault.2 knows answers)

/-- If no call of the main flow returns into a loop that an edge from there, or from further on,
enters again after it was left, the main flow is completed, whatever the oracle answers. -/
theorem runUntilComplete_of_returnsSteadily {scorer : Recursion.Scorer} {source : String}
    {program : Program} (compiled : Program.compile scorer source = .ok program)
    (starts : ∃ block ∈ program.main.blocks, block.kind = .start)
    (steady : ReturnsSteadily program.main.blocks) (options : Options) (oracle : Oracle σ)
    (memory : σ) (audience : χ) (knows : σ → Prop) (answers : oracle.Answers knows)
    (remembers : knows memory) :
    ∃ (limit : Nat) (player : Player τ σ χ),
      (Player.runUntilComplete (.silent program.main options oracle) limit).run
        (Player.initial options memory audience) = (.ok (), player) ∧
      player.state.phase = .completed := by
  rw [Program.main_eq_ofBlocks compiled]
  exact ⟨_, exists_run_of_returnsSteadily program.main.blocks options audience answers remembers
    starts steady⟩

end

def callInLoop : String :=
  "Start\nWhile i\n    If b\n    Else\n        Call f\n        Output x\nEnd"

theorem callInLoop_blocks :
    Program.tagCalls [] (completeConditionals (outline
      (Text.joinLines (Text.lines callInLoop.toList)))) =
      [⟨"Start", 0, .start, false, none⟩, ⟨"While i", 0, .loop, false, none⟩,
        ⟨"If b", 1, .condition, false, none⟩, ⟨"Else", 1, .condition, true, none⟩,
        ⟨"Call f", 2, .call, false, some false⟩, ⟨"Output x", 2, .output, false, none⟩,
        ⟨"End", 0, .stop, true, none⟩] := by
  decide +kernel

/-- It is enough that every edge that goes back is typed so or starts before every return. -/
theorem returnsSteadily_of_edges {blocks : List Block}
    (early : ∀ edge ∈ (ofBlocks blocks).edges, edge.target < edge.source → edge.kind ≠ .loopBack →
      ∀ call ∈ (ofBlocks blocks).edges,
        blocks[call.source.toNat]?.map Block.kind = some .call → edge.source < call.target) :
    ReturnsSteadily blocks := by
  rintro index block target found isCall returns loop around
    ⟨edge, member, untyped, isTarget, behind⟩
  rcases exists_of_firstForward? returns with ⟨call, forward, leads⟩
  rcases mem_outgoing.mp (mem_forward.mp forward).1 with ⟨callMember, isSource⟩
  have after := around.after
  have calls : blocks[call.source.toNat]?.map Block.kind = some .call := by
    rw [isSource, Int.toNat_natCast, found, Option.map_some, isCall]
  have before := early edge member (by omega) untyped call callMember calls
  omega

theorem runUntilComplete_callInLoop :
    ∃ program, Program.compile .standard callInLoop = .ok program ∧
      (∃ block ∈ program.main.blocks, block.kind = .start) ∧
      ReturnsSteadily program.main.blocks ∧
      ∃ (limit : Nat) (player : Player Number Oracle.Adviser Unit),
        (Player.runUntilComplete (.silent program.main {} Oracle.advising) limit).run
          (Player.initial {} (.fixed Oracle.yes 0) ()) = (.ok (), player) ∧
        player.state.phase = .completed := by
  rcases Program.compile_of_plain .standard callInLoop (by decide +kernel) with
    ⟨program, compiled, _, main⟩
  rw [callInLoop_blocks] at main
  have starts : ∃ block ∈ program.main.blocks, block.kind = .start := by
    rw [main]
    decide
  have steady : ReturnsSteadily program.main.blocks := by
    rw [main]
    exact returnsSteadily_of_edges (by decide +kernel)
  exact ⟨program, compiled, starts, steady,
    runUntilComplete_of_returnsSteadily compiled starts steady {} Oracle.advising
      (.fixed Oracle.yes 0) () (· = .fixed Oracle.yes 0) (Oracle.answers_fixed _ _) rfl⟩

/-! ## A call that starts its loop again -/

/-- The inner condition goes back to the loop without being typed so. The end of the program returns
behind the call, from where the loop is entered again. -/
def callBeforeConditions : String :=
  "Start\nWhile i\n    Call f\n    If b\n        If c\n        Else\nEnd"

def callBeforeConditionsBlocks : List Block :=
  [⟨"Start", 0, .start, false, none⟩, ⟨"While i", 0, .loop, false, none⟩,
    ⟨"Call f", 1, .call, false, some false⟩, ⟨"If b", 1, .condition, false, none⟩,
    ⟨"If c", 2, .condition, false, none⟩, ⟨"Else", 2, .condition, true, none⟩,
    ⟨"No", 1, .implicitElse, true, none⟩, ⟨"End", 0, .stop, true, none⟩]

theorem callBeforeConditions_blocks :
    Program.tagCalls [] (completeConditionals (outline
      (Text.joinLines (Text.lines callBeforeConditions.toList)))) = callBeforeConditionsBlocks := by
  decide +kernel

def Around (state : State) : Prop :=
  state.stack = [] ∧ state.counters = [] ∨
    (∃ frame, state.stack = [frame] ∧ frame.returnTo = some 3) ∧ state.counters = [(1, 1)]

inductive Circling (state : State) : Prop
  | outer (atOuter : state.current = some 3) (around : Around state)
  | inner (atInner : state.current = some 4) (around : Around state)
  | loop (atLoop : state.current = some 1) (around : Around state)
  | call (atCall : state.current = some 2) (outside : state.stack = [])
      (entered : state.counters = [(1, 1)])
  | stop (atEnd : state.current = some 7)
      (inside : ∃ frame, state.stack = [frame] ∧ frame.returnTo = some 3)
      (left : state.counters = [])

theorem Around.after {state : State} (around : Around state) (index : Nat) (goal : Int) :
    Around (state.after index state.stack state.counters (some goal)) := by
  simpa [Around] using around

theorem tick_condition_yes {state : State} (place : Nat) (goal : Int)
    (paused : state.phase = .paused) (current : state.current = some (place : Int))
    (around : Around state)
    (found : ∃ block, callBeforeConditionsBlocks[place]? = some block ∧
      block.opensConditional = true)
    (moves : ∀ counters ∈ [[], [(1, 1)]],
      (liveLoop? (ofBlocks callBeforeConditionsBlocks) counters (place : Int)).or
        ((answeredEdge? (ofBlocks callBeforeConditionsBlocks) place Oracle.yes).map Edge.target) =
          some goal) :
    Tick Oracle.advising { iterations := 1 } (ofBlocks callBeforeConditionsBlocks) (0 : Number)
      (state, .fixed Oracle.yes 0)
      (state.after place state.stack state.counters (some goal), .fixed Oracle.yes 0) := by
  rcases found with ⟨block, found, asks⟩
  have executed := execute_condition Oracle.advising { iterations := 1 }
    (ofBlocks callBeforeConditionsBlocks) (0 : Number) state (.fixed Oracle.yes 0) place (.inl asks)
    rfl
  have counters : state.counters ∈ [[], [((1 : Int), (1 : Int))]] := by
    rcases around with ⟨_, none⟩ | ⟨_, one⟩
    · simp [none]
    · simp [one]
  rw [moves state.counters counters] at executed
  exact tick_of_execute paused current found executed

theorem Circling.step {state : State} (circling : Circling state)
    (paused : state.phase = .paused) :
    ∃ next : State, Tick Oracle.advising { iterations := 1 } (ofBlocks callBeforeConditionsBlocks)
      (0 : Number) (state, .fixed Oracle.yes 0) (next, .fixed Oracle.yes 0) ∧
        next.phase = .paused ∧ Circling next := by
  cases circling with
  | outer atOuter around =>
      have tick := tick_condition_yes 3 4 paused atOuter around ⟨_, rfl, rfl⟩ (by decide)
      exact ⟨_, tick, paused, .inner rfl (around.after 3 4)⟩
  | inner atInner around =>
      have tick := tick_condition_yes 4 1 paused atInner around ⟨_, rfl, rfl⟩ (by decide)
      exact ⟨_, tick, paused, .loop rfl (around.after 4 1)⟩
  | loop atLoop around =>
      have found : ∃ block, callBeforeConditionsBlocks[1]? = some block ∧ block.kind = .loop :=
        ⟨_, rfl, rfl⟩
      rcases found with ⟨block, found, isLoop⟩
      rcases around with ⟨outside, none⟩ | ⟨inside, one⟩
      · have executed := execute_loop_again Oracle.advising { iterations := 1 }
          (ofBlocks callBeforeConditionsBlocks) (0 : Number) state (.fixed Oracle.yes 0) 1 isLoop
          (by rw [none]; decide)
        have body : (if (loopExtent (ofBlocks callBeforeConditionsBlocks).blocks 1).last.isSome then
            firstForward? (ofBlocks callBeforeConditionsBlocks) (1 : Nat)
            else some ((1 : Nat) : Int)) = some 2 := by decide
        rw [body, outside, none] at executed
        exact ⟨_, tick_of_execute paused atLoop found executed, paused,
          .call rfl (State.after_stack ..) (by rw [State.after_counters]; decide)⟩
      · have executed := execute_loop_enough Oracle.advising { iterations := 1 }
          (ofBlocks callBeforeConditionsBlocks) (0 : Number) state (.fixed Oracle.yes 0) 1 isLoop
          (by rw [one]; decide)
        have left : countersLeft (ofBlocks callBeforeConditionsBlocks) [(1, 1)] 1 = [] := by
          decide
        have behind : (liveLoop? (ofBlocks callBeforeConditionsBlocks) []
            (exitOf (ofBlocks callBeforeConditionsBlocks) 1 : Nat)).or
              (firstForward? (ofBlocks callBeforeConditionsBlocks)
                (exitOf (ofBlocks callBeforeConditionsBlocks) 1 : Nat)) = some 7 := by
          decide
        rw [one, left, behind] at executed
        exact ⟨_, tick_of_execute paused atLoop found executed, paused,
          .stop rfl (by rw [State.after_stack]; exact inside) (State.after_counters ..)⟩
  | call atCall outside entered =>
      have found : ∃ block, callBeforeConditionsBlocks[2]? = some block ∧ block.kind = .call :=
        ⟨_, rfl, rfl⟩
      rcases found with ⟨block, found, isCall⟩
      have executed := execute_call Oracle.advising { iterations := 1 }
        (ofBlocks callBeforeConditionsBlocks) (0 : Number) state (.fixed Oracle.yes 0) 2 isCall
      have behind : firstForward? (ofBlocks callBeforeConditionsBlocks) (2 : Nat) = some 3 := by
        decide
      have onward : (liveLoop? (ofBlocks callBeforeConditionsBlocks) [(1, 1)] (2 : Nat)).or
          (some 3) = some 3 := by decide
      rw [behind, outside, entered, onward] at executed
      refine ⟨_, tick_of_execute paused atCall found executed, paused, .outer rfl (.inr ?_)⟩
      rw [State.after_stack, State.after_counters]
      exact ⟨⟨_, rfl, rfl⟩, rfl⟩
  | stop atEnd inside left =>
      have found : ∃ block, callBeforeConditionsBlocks[7]? = some block ∧ block.kind = .stop :=
        ⟨_, rfl, rfl⟩
      rcases found with ⟨block, found, isStop⟩
      rcases inside with ⟨frame, calls, returns⟩
      have executed := execute_ending_cons Oracle.advising { iterations := 1 }
        (ofBlocks callBeforeConditionsBlocks) (0 : Number) state (.fixed Oracle.yes 0) 7
        (.inl isStop) calls
      rw [returns, left] at executed
      exact ⟨_, tick_of_execute paused atEnd found executed, paused,
        .outer rfl (.inl ⟨State.after_stack .., State.after_counters ..⟩)⟩

/-- With an oracle that always says yes, the calls before a condition are never completed. -/
theorem exists_endless_calls :
    ¬∀ (scorer : Recursion.Scorer) (source : String) (program : Program),
      Program.compile scorer source = .ok program →
        (∃ block ∈ program.main.blocks, block.kind = .start) →
          ∀ (options : Options) (answer : String) (choice : Int),
            answer = Oracle.yes ∨ answer = Oracle.no →
              ∃ (limit : Nat) (player : Player Number Oracle.Adviser Unit),
                (Player.runUntilComplete (.silent program.main options Oracle.advising) limit).run
                  (Player.initial options (.fixed answer choice) ()) = (.ok (), player) ∧
                player.state.phase = .completed := by
  intro always
  rcases Program.compile_of_plain .standard callBeforeConditions (by decide +kernel) with
    ⟨program, compiled, _, main⟩
  rw [callBeforeConditions_blocks] at main
  have starts : ∃ block ∈ program.main.blocks, block.kind = .start := by
    rw [main]
    decide
  rcases always .standard callBeforeConditions program compiled starts { iterations := 1 }
    Oracle.yes 0 (.inl rfl) with ⟨limit, player, ran, _⟩
  rw [main] at ran
  have found : (ofBlocks callBeforeConditionsBlocks).find? .start = some 0 := by decide
  rcases begin_of_find? found (0 : Number) (.initial (Options.clamp { iterations := 1 } (.int 500)))
    with ⟨entries, begins⟩
  have first : firstForward? (ofBlocks callBeforeConditionsBlocks) (0 : Nat) = some 1 := by
    decide +kernel
  rw [first] at begins
  have endless : ∃ final : Player Number Oracle.Adviser Unit,
      (Player.runUntilComplete (.silent (ofBlocks callBeforeConditionsBlocks) { iterations := 1 }
        Oracle.advising) limit).run
          (Player.initial { iterations := 1 } (.fixed Oracle.yes 0) ()) =
        (.error (.unfinished limit), final) := by
    refine Player.runUntilComplete_run_of_invariant (.fixed Oracle.yes 0) () limit
      (fun place : State × Oracle.Adviser =>
        place.1.phase = .paused ∧ Circling place.1 ∧ place.2 = .fixed Oracle.yes 0)
      begins ⟨rfl, .loop rfl (.inl ⟨rfl, rfl⟩), rfl⟩ ?_
    rintro ⟨state, memory⟩ ⟨paused, circling, rfl⟩
    rcases circling.step paused with ⟨next, tick, still, circles⟩
    exact ⟨paused, (next, _), tick, still, circles, rfl⟩
  rcases endless with ⟨final, endless⟩
  rw [endless] at ran
  cases ran

end Flowchart.Walk
