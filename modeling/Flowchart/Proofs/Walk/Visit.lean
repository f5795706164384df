import Flowchart.Proofs.Player.Stepping
import Flowchart.Proofs.Walk.Counters

/-!
What one visit to a block does to the calls, to the counters and to the place of the walk.

Everything that a step can do is said once, in `Visit`; ranks and invariants are derived from it.
-/

namespace Flowchart

/-- From what it remembers, an oracle always answers, and what it remembers then is of the same
kind. -/
structure Oracle.Answers {σ : Type} (oracle : Oracle σ) (knows : σ → Prop) : Prop where
  decides : ∀ memory, knows memory → ∀ index block, ∃ answer later,
    oracle.decide memory index block = .ok (answer, later) ∧ knows later
  selects : ∀ memory, knows memory → ∀ index block labels, ∃ choice later,
    oracle.selectCase memory index block labels = .ok (choice, later) ∧ knows later

theorem Oracle.answers_fixed (answer : String) (choice : Int) :
    Oracle.advising.Answers (· = .fixed answer choice) where
  decides := by
    rintro _ rfl index block
    exact ⟨_, _, rfl, rfl⟩
  selects := by
    rintro _ rfl index block labels
    exact ⟨_, _, rfl, rfl⟩

namespace Walk

/-! ## Loops that are still counted -/

theorem mem_of_deepest? {edges : List Edge} {edge : Edge} (found : deepest? edges = some edge) :
    edge ∈ edges := by
  induction edges generalizing edge with
  | nil => cases found
  | cons head tail induction =>
      cases later : deepest? tail with
      | none =>
          simp only [deepest?, later, Option.some.injEq] at found
          exact found ▸ List.mem_cons_self
      | some other =>
          simp only [deepest?, later] at found
          split at found
          · cases found
            exact List.mem_cons_of_mem _ (induction later)
          · cases found
            exact List.mem_cons_self

theorem exists_deepest? {edges : List Edge} (some : edges ≠ []) :
    ∃ edge, deepest? edges = .some edge := by
  cases edges with
  | nil => exact absurd rfl some
  | cons head tail =>
      rw [deepest?]
      split
      · exact ⟨_, rfl⟩
      · split <;> exact ⟨_, rfl⟩

section

variable {graph : Graph} {counters : Counters} {index target : Int}

theorem exists_of_liveLoop? (live : liveLoop? graph counters index = some target) :
    ∃ edge ∈ graph.outgoing index, edge.target = target ∧ edge.kind = .loopBack ∧
      (counters.lookup target).isSome := by
  rcases Option.map_eq_some_iff.mp live with ⟨edge, deepest, rfl⟩
  have member := mem_of_deepest? deepest
  rw [List.mem_filter, decide_eq_true_eq] at member
  exact ⟨edge, member.1, rfl, member.2⟩

theorem exists_of_firstForward? (first : firstForward? graph index = some target) :
    ∃ edge ∈ graph.forward index, edge.target = target := by
  rcases Option.map_eq_some_iff.mp first with ⟨edge, head, rfl⟩
  exact ⟨edge, List.mem_of_head? head, rfl⟩

theorem firstForward?_eq_none_iff :
    firstForward? graph index = none ↔ graph.forward index = [] := by
  rw [firstForward?, Option.map_eq_none_iff, List.head?_eq_none_iff]

theorem mem_forward {edge : Edge} :
    edge ∈ graph.forward index ↔ edge ∈ graph.outgoing index ∧ edge.kind ≠ .loopBack := by
  simp [Graph.forward]

end

/-! ## Visits -/

def exitOf (graph : Graph) (index : Nat) : Nat := (loopExtent graph.blocks index).last.getD index

def countersLeft (graph : Graph) (counters : Counters) (index : Nat) : Counters :=
  counters.clear index ((loopExtent graph.blocks index).close.getD graph.length : Nat)

def State.after (state : State) (index : Nat) (stack : List Frame) (counters : Counters)
    (target : Option Int) : State :=
  ({ state.visit index with stack, counters }).move target

section

variable (state : State) (index : Nat) (stack : List Frame) (counters : Counters)
variable (target : Option Int)

@[simp] theorem State.after_stack : (state.after index stack counters target).stack = stack := by
  cases target <;> rfl

@[simp] theorem State.after_counters :
    (state.after index stack counters target).counters = counters := by
  cases target <;> rfl

@[simp] theorem State.after_path :
    (state.after index stack counters target).path = state.path ++ [(index : Int)] := by
  cases target <;> rfl

@[simp] theorem State.after_none_phase :
    (state.after index stack counters none).phase = .completed := rfl

@[simp] theorem State.after_some_phase (place : Int) :
    (state.after index stack counters (some place)).phase = state.phase := rfl

@[simp] theorem State.after_some_current (place : Int) :
    (state.after index stack counters (some place)).current = some place := rfl

end

section

variable (graph : Graph) (options : Options) (index : Nat) (block : Block)

/-- A visit to a block: the calls and the counters before it, those after it, and where the walk
goes on, if anywhere. -/
inductive Visit :
    List Frame → Counters → List Frame → Counters → Option Int → Prop
  /-- An end or a return outside all calls. -/
  | finish (counters : Counters) (ends : block.kind = .stop ∨ block.kind = .return) :
      Visit [] counters [] counters none
  /-- An end or a return goes on behind the innermost call. -/
  | resume (frame : Frame) (stack : List Frame) (counters : Counters)
      (ends : block.kind = .stop ∨ block.kind = .return) :
      Visit (frame :: stack) counters stack counters frame.returnTo
  /-- A loop is entered once more. -/
  | enter (stack : List Frame) (counters : Counters) (isLoop : block.kind = .loop)
      (again : counters.countOf index < options.iterations) :
      Visit stack counters stack (counters.put index (counters.countOf index + 1))
        (if (loopExtent graph.blocks index).last.isSome then firstForward? graph index
          else some (index : Int))
  /-- A loop was entered often enough. -/
  | leave (stack : List Frame) (counters : Counters) (isLoop : block.kind = .loop)
      (enough : options.iterations ≤ counters.countOf index) :
      Visit stack counters stack (countersLeft graph counters index)
        ((liveLoop? graph (countersLeft graph counters index) (exitOf graph index : Nat)).or
          (firstForward? graph (exitOf graph index : Nat)))
  /-- A call leaves a frame and goes on with the next block. -/
  | call (frame : Frame) (stack : List Frame) (counters : Counters) (isCall : block.kind = .call)
      (returns : frame.returnTo = firstForward? graph (index : Int)) :
      Visit stack counters (frame :: stack) counters
        ((liveLoop? graph counters index).or (firstForward? graph (index : Int)))
  /-- Any other block follows one of its edges. -/
  | follow (stack : List Frame) (counters : Counters) (target : Option Int)
      (other : block.kind ≠ .stop ∧ block.kind ≠ .return ∧ block.kind ≠ .loop ∧
        block.kind ≠ .call)
      (drawn : ∀ place, target = some place →
        ∃ edge ∈ graph.forward (index : Int), edge.target = place) :
      Visit stack counters stack counters
        ((liveLoop? graph counters index).or target)

end

section

variable {σ τ : Type} (oracle : Oracle σ) (options : Options) (graph : Graph) (now : τ)
variable (state : State) (memory : σ) (index : Nat) {later : σ} {block : Block}

/-! ## The block at a position, kind by kind -/

def entryAt (index : Nat) (block : Block) (action : Action) (details : Option String) : Entry τ :=
  ⟨now, index, block.content, block.kind, action, details⟩

theorem execute_ending_nil (ends : block.kind = .stop ∨ block.kind = .return)
    (outside : state.stack = []) :
    execute oracle options graph now state memory index block =
      .ok (state.after index [] state.counters none, entryAt now index block .exit none,
        memory) := by
  unfold execute
  simp only [pure, Except.pure, if_pos ends, State.visit, outside]
  rfl

theorem execute_ending_cons {frame : Frame} {stack : List Frame}
    (ends : block.kind = .stop ∨ block.kind = .return) (inside : state.stack = frame :: stack) :
    execute oracle options graph now state memory index block =
      .ok (state.after index stack state.counters frame.returnTo,
        entryAt now index block .return (some ("return from " ++ frame.functionName)),
        memory) := by
  unfold execute
  simp only [pure, Except.pure, if_pos ends, State.visit, inside]
  rfl

theorem execute_loop_again (isLoop : block.kind = .loop)
    (again : state.counters.countOf index < options.iterations) :
    execute oracle options graph now state memory index block =
      .ok (state.after index state.stack
        (state.counters.put index (state.counters.countOf index + 1))
        (if (loopExtent graph.blocks index).last.isSome then firstForward? graph index
          else some (index : Int)),
        entryAt now index block .loop (some s!"iteration {state.counters.countOf index + 1}"),
        memory) := by
  have counted : ((state.visit index).counters.lookup (index : Int)).getD 0 < options.iterations :=
    again
  unfold execute
  simp only [pure, Except.pure, isLoop, reduceCtorEq, or_self, if_false, if_true, stepLoop,
    if_pos counted, entryAt]
  rfl

theorem leaveLoop_visit :
    leaveLoop graph (state.visit index) index =
      state.after index state.stack (countersLeft graph state.counters index)
        ((liveLoop? graph (countersLeft graph state.counters index) (exitOf graph index : Nat)).or
          (firstForward? graph (exitOf graph index : Nat))) := by
  simp only [leaveLoop, State.after, countersLeft, exitOf, State.visit]
  split
  · rename_i loop live
    rw [live, Option.some_or]
  · rename_i dead
    rw [dead, Option.none_or]

theorem execute_loop_enough (isLoop : block.kind = .loop)
    (enough : options.iterations ≤ state.counters.countOf index) :
    execute oracle options graph now state memory index block =
      .ok (state.after index state.stack (countersLeft graph state.counters index)
        ((liveLoop? graph (countersLeft graph state.counters index) (exitOf graph index : Nat)).or
          (firstForward? graph (exitOf graph index : Nat))),
        entryAt now index block .loop (some "loop complete"), memory) := by
  have counted : ¬((state.visit index).counters.lookup (index : Int)).getD 0 < options.iterations :=
    Int.not_lt.mpr enough
  unfold execute
  simp only [pure, Except.pure, isLoop, reduceCtorEq, or_self, if_false, if_true, stepLoop,
    if_neg counted, leaveLoop_visit, entryAt]

theorem goOn_eq (target : Option Int) :
    goOn graph state index target =
      state.move ((liveLoop? graph state.counters index).or target) := by
  rw [goOn, Option.orElse_eq_or]

def answeredEdge? (answer : String) : Option Edge :=
  ((graph.forward index).find? fun edge => edge.kind.name == answer).or (graph.forward index).head?

theorem execute_condition {answer : String}
    (asks : block.opensConditional = true ∨ block.kind = .elseIf)
    (answered : oracle.decide memory index block = .ok (answer, later)) :
    execute oracle options graph now state memory index block =
      .ok (state.after index state.stack state.counters
        ((liveLoop? graph state.counters index).or
          ((answeredEdge? graph index answer).map Edge.target)),
        entryAt now index block .branch (some
          (((answeredEdge? graph index answer).map fun edge => edge.kind.name).getD answer)),
        later) := by
  have goesOn : ¬(block.kind = .stop ∨ block.kind = .return) := by
    rintro (kind | kind) <;> simp [Block.opensConditional, kind] at asks
  have noLoop : block.kind ≠ .loop := by
    intro kind
    simp [Block.opensConditional, kind] at asks
  unfold execute
  simp only [if_neg goesOn, if_neg noLoop, if_pos asks, answered, goOn_eq,
    Option.orElse_eq_or]
  rfl

def pick (first : Edge) (rest : List Edge) (choice : Int) : Edge :=
  if choice < 0 then first else (first :: rest)[choice.toNat]?.getD first

theorem pick_mem (first : Edge) (rest : List Edge) (choice : Int) :
    pick first rest choice ∈ first :: rest := by
  unfold pick
  split
  · exact List.mem_cons_self
  · cases found : (first :: rest)[choice.toNat]? with
    | none => exact List.mem_cons_self
    | some edge => exact List.mem_of_getElem? found

theorem execute_switch {choice : Int} {first : Edge} {rest : List Edge}
    (isSwitch : block.kind = .switch)
    (cases : (graph.outgoing index).filter (fun edge => edge.kind = .case) = first :: rest)
    (selected : oracle.selectCase memory index block
      ((first :: rest).map fun edge => edge.label.getD "") = .ok (choice, later)) :
    execute oracle options graph now state memory index block =
      .ok (state.after index state.stack state.counters
        ((liveLoop? graph state.counters index).or (some (pick first rest choice).target)),
        entryAt now index block .branch (pick first rest choice).label, later) := by
  unfold execute
  simp only [isSwitch, reduceCtorEq, or_self, if_false, Block.opensConditional, cases, selected,
    goOn_eq, entryAt]
  rfl

def calleeOf (block : Block) : String :=
  ((Call.callee? block.content.toList).map String.ofList).getD block.content

theorem execute_call (isCall : block.kind = .call) :
    execute oracle options graph now state memory index block =
      .ok (state.after index
        (⟨calleeOf block, firstForward? graph (index : Int), []⟩ :: state.stack) state.counters
          ((liveLoop? graph state.counters index).or (firstForward? graph (index : Int))),
        entryAt now index block .call (some (calleeOf block)), memory) := by
  unfold execute
  simp only [isCall, reduceCtorEq, or_self, if_false, Block.opensConditional, goOn_eq, entryAt]
  rfl

theorem execute_plain (goesOn : block.kind ≠ .stop ∧ block.kind ≠ .return)
    (other : block.kind ≠ .loop ∧ block.kind ≠ .call)
    (asksNothing : ¬(block.opensConditional = true ∨ block.kind = .elseIf))
    (noCases : block.kind = .switch →
      (graph.outgoing index).filter (fun edge => edge.kind = .case) = []) :
    execute oracle options graph now state memory index block =
      .ok (state.after index state.stack state.counters
        ((liveLoop? graph state.counters index).or (firstForward? graph (index : Int))),
        entryAt now index block .enter none, memory) := by
  have goesOn : ¬(block.kind = .stop ∨ block.kind = .return) := not_or.mpr goesOn
  unfold execute
  simp only [if_neg goesOn, if_neg other.1, if_neg asksNothing, goOn_eq]
  split
  · rename_i first rest isSwitch cases
    rw [noCases isSwitch] at cases
    cases cases
  · rename_i isCall
    exact absurd isCall other.2
  · rfl

variable {oracle options graph now state memory index}

def State.fresh (state : State) (index : Nat) : State :=
  { State.initial state.speed with current := some (index : Int), phase := .paused }

theorem begin_of_find? (found : graph.find? .start = some index) (now : τ) (state : State) :
    ∃ entries, begin graph now state true =
      .ok ((state.fresh index).after index [] [] (firstForward? graph (index : Int)), entries) := by
  unfold begin
  rw [found]
  exact ⟨_, rfl⟩

theorem tick_of_execute {next : State} {entry : Entry τ} (paused : state.phase = .paused)
    (current : state.current = some (index : Int)) (found : graph.blocks[index]? = some block)
    (executed : execute oracle options graph now state memory index block =
      .ok (next, entry, later)) :
    Tick oracle options graph now (state, memory) (next, later) := by
  have atBlock : graph.block? (index : Int) = some block := by
    rw [Graph.block?, if_neg (by omega), Int.toNat_natCast]
    exact found
  refine ⟨[entry], ?_⟩
  simp [transition, paused, current, atBlock, executed, Except.map]

/-! ## Any block -/

theorem Visit.of_chosen {chosen : Option Edge} (stack : List Frame)
    (counters : Counters) (other : block.kind ≠ .stop ∧ block.kind ≠ .return ∧
      block.kind ≠ .loop ∧ block.kind ≠ .call)
    (chosenAmong : ∀ edge, chosen = some edge → edge ∈ graph.forward (index : Int)) :
    Visit graph options index block stack counters stack counters
      ((liveLoop? graph counters index).or (chosen.map Edge.target)) := by
  refine .follow stack counters _ other fun place equal => ?_
  rcases Option.map_eq_some_iff.mp equal with ⟨edge, isChosen, rfl⟩
  exact ⟨edge, chosenAmong edge isChosen, rfl⟩

theorem execute_condition_error {error : NumeralError}
    (goesOn : block.kind ≠ .stop ∧ block.kind ≠ .return) (noLoop : block.kind ≠ .loop)
    (asks : block.opensConditional = true ∨ block.kind = .elseIf)
    (failed : oracle.decide memory index block = .error error) :
    execute oracle options graph now state memory index block = .error (.unreadable error) := by
  unfold execute
  simp only [if_neg (not_or.mpr goesOn), if_neg noLoop, if_pos asks, failed]
  rfl

theorem execute_switch_error {error : NumeralError} {first : Edge} {rest : List Edge}
    (isSwitch : block.kind = .switch)
    (cases : (graph.outgoing index).filter (fun edge => edge.kind = .case) = first :: rest)
    (failed : oracle.selectCase memory index block
      ((first :: rest).map fun edge => edge.label.getD "") = .error error) :
    execute oracle options graph now state memory index block = .error (.unreadable error) := by
  unfold execute
  simp only [isSwitch, reduceCtorEq, or_self, if_false, Block.opensConditional, cases, failed]
  rfl

structure Tells (index : Nat) (block : Block) (stack : List Frame) (entry : Entry τ) : Prop where
  index : entry.index = index
  calls : entry.action = .call ↔ block.kind = .call
  returns : entry.action = .return ↔ (block.kind = .stop ∨ block.kind = .return) ∧ stack ≠ []
  exits : entry.action = .exit ↔ (block.kind = .stop ∨ block.kind = .return) ∧ stack = []

theorem tells_of_plain {action : Action} (stack : List Frame) (details : Option String)
    (other : block.kind ≠ .stop ∧ block.kind ≠ .return ∧ block.kind ≠ .call)
    (plain : action ≠ .call ∧ action ≠ .return ∧ action ≠ .exit) :
    Tells index block stack (entryAt now index block action details) where
  index := rfl
  calls := ⟨fun calls => absurd calls plain.1, fun kind => absurd kind other.2.2⟩
  returns := ⟨fun pops => absurd pops plain.2.1,
    fun ends => absurd ends.1 (not_or.mpr ⟨other.1, other.2.1⟩)⟩
  exits := ⟨fun exits => absurd exits plain.2.2,
    fun ends => absurd ends.1 (not_or.mpr ⟨other.1, other.2.1⟩)⟩

variable (oracle options graph now state memory index block) in
/-- What the execution of a block comes to. It is a visit, or the oracle does not answer. A visit to
a block that neither ends nor opens a loop goes on, unless the block has no way out. -/
inductive Outcome : Prop
  | visited (stack : List Frame) (counters : Counters) (target : Option Int) (entry : Entry τ)
      (later : σ)
      (executed : execute oracle options graph now state memory index block =
        .ok (state.after index stack counters target, entry, later))
      (told : Tells index block state.stack entry)
      (remembers : ∀ knows, oracle.Answers knows → knows memory → knows later)
      (visit : Visit graph options index block state.stack state.counters stack counters target)
      (wayOut : target = none → block.kind ≠ .stop ∧ block.kind ≠ .return ∧ block.kind ≠ .loop →
        liveLoop? graph state.counters index = none ∧ graph.forward (index : Int) = [])
  | failed (error : NumeralError)
      (executed : execute oracle options graph now state memory index block =
        .error (.unreadable error))
      (unknown : ∀ knows, oracle.Answers knows → ¬knows memory)

theorem outcome_of_ending (ends : block.kind = .stop ∨ block.kind = .return) :
    Outcome oracle options graph now state memory index block := by
  have running : ¬(block.kind ≠ .stop ∧ block.kind ≠ .return ∧ block.kind ≠ .loop) :=
    fun other => ends.elim other.1 other.2.1
  have noCall : block.kind ≠ .call := by
    intro kind
    simp [kind] at ends
  cases calls : state.stack with
  | nil =>
      have executed := execute_ending_nil oracle options graph now state memory index ends calls
      refine .visited _ _ _ _ memory executed ⟨rfl, ?_, ?_, ?_⟩ (fun _ _ remembers => remembers) ?_
        fun _ other => absurd other running
      · simp [entryAt, noCall]
      · simp [entryAt, calls]
      · simp [entryAt, ends, calls]
      · rw [calls]
        exact .finish state.counters ends
  | cons frame stack =>
      have executed := execute_ending_cons oracle options graph now state memory index ends calls
      refine .visited _ _ _ _ memory executed ⟨rfl, ?_, ?_, ?_⟩ (fun _ _ remembers => remembers) ?_
        fun _ other => absurd other running
      · simp [entryAt, noCall]
      · simp [entryAt, ends, calls]
      · simp [entryAt, calls]
      · rw [calls]
        exact .resume frame stack state.counters ends

theorem outcome_of_loop (isLoop : block.kind = .loop) :
    Outcome oracle options graph now state memory index block := by
  have told (details : Option String) :
      Tells index block state.stack (entryAt now index block .loop details) :=
    tells_of_plain state.stack details (by simp [isLoop]) (by decide)
  by_cases again : state.counters.countOf index < options.iterations
  · exact .visited _ _ _ _ memory
      (execute_loop_again oracle options graph now state memory index isLoop again) (told _)
      (fun _ _ remembers => remembers) (.enter state.stack state.counters isLoop again)
      fun _ other => absurd isLoop other.2.2
  · have enough := Int.not_lt.mp again
    exact .visited _ _ _ _ memory
      (execute_loop_enough oracle options graph now state memory index isLoop enough) (told _)
      (fun _ _ remembers => remembers) (.leave state.stack state.counters isLoop enough)
      fun _ other => absurd isLoop other.2.2

theorem outcome_of_call (isCall : block.kind = .call) :
    Outcome oracle options graph now state memory index block := by
  refine .visited _ _ _ _ memory
    (execute_call oracle options graph now state memory index isCall) ⟨rfl, ?_, ?_, ?_⟩
    (fun _ _ remembers => remembers) (.call _ state.stack state.counters isCall rfl) ?_
  · simp [entryAt, isCall]
  · simp [entryAt, isCall]
  · simp [entryAt, isCall]
  · intro none _
    rcases Option.or_eq_none_iff.mp none with ⟨dead, none⟩
    exact ⟨dead, firstForward?_eq_none_iff.mp none⟩

theorem outcome_of_condition (other : block.kind ≠ .stop ∧ block.kind ≠ .return ∧
      block.kind ≠ .loop ∧ block.kind ≠ .call)
    (asks : block.opensConditional = true ∨ block.kind = .elseIf) :
    Outcome oracle options graph now state memory index block := by
  cases answered : oracle.decide memory index block with
  | error error =>
      refine .failed _ (execute_condition_error ⟨other.1, other.2.1⟩ other.2.2.1 asks answered) ?_
      intro knows answers remembers
      rcases answers.decides memory remembers index block with ⟨_, _, answer, _⟩
      cases answered.symm.trans answer
  | ok result =>
      rcases result with ⟨answer, later⟩
      refine .visited _ _ _ _ later
        (execute_condition oracle options graph now state memory index asks answered)
        (tells_of_plain _ _ ⟨other.1, other.2.1, other.2.2.2⟩ (by decide)) ?_
        (.of_chosen _ _ other ?_) ?_
      · intro knows answers remembers
        rcases answers.decides memory remembers index block with ⟨_, _, answer, knowing⟩
        cases answered.symm.trans answer
        exact knowing
      · intro edge isChosen
        rw [answeredEdge?, Option.or_eq_some_iff] at isChosen
        rcases isChosen with found | ⟨_, head⟩
        · exact List.mem_of_find?_eq_some found
        · exact List.mem_of_head? head
      · intro none _
        rcases Option.or_eq_none_iff.mp none with ⟨dead, none⟩
        rcases Option.or_eq_none_iff.mp (Option.map_eq_none_iff.mp none) with ⟨_, none⟩
        exact ⟨dead, List.head?_eq_none_iff.mp none⟩

theorem outcome_of_switch {first : Edge} {rest : List Edge} (isSwitch : block.kind = .switch)
    (cases : (graph.outgoing index).filter (fun edge => edge.kind = .case) = first :: rest) :
    Outcome oracle options graph now state memory index block := by
  cases selected : oracle.selectCase memory index block
    ((first :: rest).map fun edge => edge.label.getD "") with
  | error error =>
      refine .failed _ (execute_switch_error isSwitch cases selected) ?_
      intro knows answers remembers
      rcases answers.selects memory remembers index block
        ((first :: rest).map fun edge => edge.label.getD "") with ⟨_, _, choice, _⟩
      cases selected.symm.trans choice
  | ok result =>
      rcases result with ⟨choice, later⟩
      refine .visited _ _ _ _ later
        (execute_switch oracle options graph now state memory index isSwitch cases selected)
        (tells_of_plain _ _ (by simp [isSwitch]) (by decide)) ?_
        (.follow _ _ _ (by simp [isSwitch]) ?_) ?_
      · intro knows answers remembers
        rcases answers.selects memory remembers index block
          ((first :: rest).map fun edge => edge.label.getD "") with ⟨_, _, choice, knowing⟩
        cases selected.symm.trans choice
        exact knowing
      · intro place equal
        cases equal
        have member := pick_mem first rest choice
        rw [← cases, List.mem_filter, decide_eq_true_eq] at member
        exact ⟨_, mem_forward.mpr ⟨member.1, by simp [member.2]⟩, rfl⟩
      · intro none _
        cases (Option.or_eq_none_iff.mp none).2

variable (oracle options graph now state memory index block) in
theorem outcome : Outcome oracle options graph now state memory index block := by
  by_cases ends : block.kind = .stop ∨ block.kind = .return
  · exact outcome_of_ending ends
  by_cases isLoop : block.kind = .loop
  · exact outcome_of_loop isLoop
  by_cases isCall : block.kind = .call
  · exact outcome_of_call isCall
  have goesOn := not_or.mp ends
  by_cases asks : block.opensConditional = true ∨ block.kind = .elseIf
  · exact outcome_of_condition ⟨goesOn.1, goesOn.2, isLoop, isCall⟩ asks
  by_cases noCases : block.kind = .switch →
      (graph.outgoing index).filter (fun edge => edge.kind = .case) = []
  · refine .visited _ _ _ _ memory
      (execute_plain oracle options graph now state memory index goesOn ⟨isLoop, isCall⟩ asks
        noCases)
      (tells_of_plain _ _ ⟨goesOn.1, goesOn.2, isCall⟩ (by decide)) (fun _ _ remembers => remembers)
      (.follow _ _ _ ⟨goesOn.1, goesOn.2, isLoop, isCall⟩
        fun place first => exists_of_firstForward? first) fun none _ => ?_
    rcases Option.or_eq_none_iff.mp none with ⟨dead, none⟩
    exact ⟨dead, firstForward?_eq_none_iff.mp none⟩
  · rw [Classical.not_imp] at noCases
    rcases noCases with ⟨isSwitch, some⟩
    rcases List.exists_cons_of_ne_nil some with ⟨first, rest, cases⟩
    exact outcome_of_switch isSwitch cases

variable (options graph index block) in
theorem exists_visit {knows : σ → Prop} (answers : oracle.Answers knows) (remembers : knows memory)
    (now : τ) (state : State) :
    ∃ stack counters target entry later,
      execute oracle options graph now state memory index block =
        .ok (state.after index stack counters target, entry, later) ∧ knows later ∧
      Visit graph options index block state.stack state.counters stack counters target := by
  cases outcome oracle options graph now state memory index block with
  | visited stack counters target entry later executed _ keeps visit _ =>
      exact ⟨stack, counters, target, entry, later, executed, keeps knows answers remembers, visit⟩
  | failed _ _ unknown => exact absurd remembers (unknown knows answers)

/-! ## Whole runs -/

variable {χ : Type} [Zero τ] [ClockTime τ] [LE τ] [DecidableLE τ] [LT τ] [DecidableLT τ] [IntCast τ]

/-- A player comes to an end if a size falls at every tick that neither completes the walk nor
fails, and if the steps are enough for the size behind the start block. -/
theorem runUntilComplete_ends (memory : σ) (audience : χ) {limit : Int}
    (holds : Nat → State × σ → Prop) (done : State × σ → Prop) (faults : Fault → Prop)
    (ticks : ∀ size place, place.1.phase = .paused → holds size place →
      (∃ fault, faults fault ∧
        transition oracle options graph (0 : τ) place.1 place.2 .tick = .error fault) ∨
      ∃ next, Tick oracle options graph (0 : τ) place next ∧
        (next.1.phase = .completed ∧ done next ∨
          next.1.phase = .paused ∧ ∃ smaller < size, holds smaller next))
    (found : graph.find? .start = some index) (some : 1 ≤ limit)
    (alone : firstForward? graph (index : Int) = none →
      ∀ state : State, done ((state.fresh index).after index [] [] none, memory))
    (initially : ∀ target, firstForward? graph (index : Int) = .some target →
      ∃ size : Nat, size + 2 ≤ limit ∧ ∀ state : State,
        holds size ((state.fresh index).after index [] [] (.some target), memory)) :
    Player.Ends done faults ((Player.runUntilComplete (.silent graph options oracle) limit).run
      (Player.initial options memory audience : Player τ σ χ)) := by
  rcases begin_of_find? found (0 : τ) (.initial (options.clamp (.int options.speed))) with
    ⟨entries, begins⟩
  cases first : firstForward? graph (index : Int) with
  | none =>
      rw [first] at begins
      rw [Player.runUntilComplete_run_of_begin memory audience begins rfl some]
      exact .completed rfl (alone first _)
  | some target =>
      rw [first] at begins
      rcases initially target first with ⟨size, room, holding⟩
      rcases Nat.exists_eq_succ_of_ne_zero (show limit.toNat ≠ 0 by omega) with ⟨steps, enough⟩
      rw [Player.runUntilComplete_run_succ memory audience enough begins]
      exact Player.stepUntilComplete_ends limit holds done faults ticks (by omega) rfl rfl
        (holding _)

theorem exists_run_of_size (memory : σ) (audience : χ) {limit : Int}
    (holds : Nat → State × σ → Prop) (done : State × σ → Prop)
    (step : ∀ size place, place.1.phase = .paused → holds size place →
      ∃ next, Tick oracle options graph (0 : τ) place next ∧
        (next.1.phase = .completed ∧ done next ∨
          next.1.phase = .paused ∧ ∃ smaller < size, holds smaller next))
    (found : graph.find? .start = some index) (some : 1 ≤ limit)
    (alone : firstForward? graph (index : Int) = none →
      ∀ state : State, done ((state.fresh index).after index [] [] none, memory))
    (initially : ∀ target, firstForward? graph (index : Int) = .some target →
      ∃ size : Nat, size + 2 ≤ limit ∧ ∀ state : State,
        holds size ((state.fresh index).after index [] [] (.some target), memory)) :
    ∃ player : Player τ σ χ,
      (Player.runUntilComplete (.silent graph options oracle) limit).run
        (Player.initial options memory audience) = (.ok (), player) ∧
      player.state.phase = .completed ∧ done (player.state, player.memory) := by
  have ends : Player.Ends done (fun _ => False)
      ((Player.runUntilComplete (.silent graph options oracle) limit).run
        (Player.initial options memory audience : Player τ σ χ)) :=
    runUntilComplete_ends memory audience holds done _
      (fun size place paused holding => .inr (step size place paused holding)) found some alone
      initially
  generalize (Player.runUntilComplete (.silent graph options oracle) limit).run
    (Player.initial options memory audience : Player τ σ χ) = result at ends ⊢
  cases ends with
  | completed completed isDone => exact ⟨_, rfl, completed, isDone⟩
  | failed never => exact never.elim

end

end Walk

end Flowchart
