import Flowchart.Proofs.Graph.Cycles
import Flowchart.Proofs.Walk.Completion
import Flowchart.Proofs.Walk.Events

/-!
What a walk comes to does not depend on when its steps are taken.

A tick looks neither at the time nor at the speed, and at a walk that is running no differently than
at one that is paused. So a walk may be followed with all of these left out: the state at rest, and
entries without a time. In a built graph a walk never leaves the row of blocks, so that every tick
that changes it visits a block.
-/

namespace Flowchart.Walk

open Flowchart.Graph

def Entry.untimed {τ : Type} (entry : Entry τ) : Entry Unit := { entry with time := () }

namespace State

/-- A state at rest: paused if it was running, at no speed. -/
def still (state : State) : State :=
  { state with
    phase := if state.phase = .running then .paused else state.phase
    speed := 0 }

section

variable (state : State)

theorem still_phase_eq_iff {phase : Phase} (stays : phase ≠ .running ∧ phase ≠ .paused) :
    state.still.phase = phase ↔ state.phase = phase := by
  change (if state.phase = .running then .paused else state.phase) = phase ↔ _
  split
  · rename_i running
    rw [running]
    exact ⟨fun paused => absurd paused.symm stays.2, fun runs => absurd runs.symm stays.1⟩
  · rfl

@[simp] theorem idle_still_iff : state.still.Idle ↔ state.Idle := by
  rw [Idle, Idle, still_phase_eq_iff _ (by simp), still_phase_eq_iff _ (by simp)]

theorem still_after (index : Nat) (stack : List Frame) (counters : Counters)
    (target : Option Int) :
    (state.after index stack counters target).still =
      state.still.after index stack counters target := by
  cases target <;> rfl

variable {state} in
theorem agree_of_still {other : State} (same : state.still = other.still) :
    state.current = other.current ∧ state.visited = other.visited ∧ state.path = other.path ∧
      state.stack = other.stack ∧ state.counters = other.counters ∧
      (state.phase = .completed ↔ other.phase = .completed) := by
  have completed (state : State) : state.still.phase = .completed ↔ state.phase = .completed :=
    still_phase_eq_iff state (by simp)
  refine ⟨(congrArg State.current same :), (congrArg State.visited same :),
    (congrArg State.path same :), (congrArg State.stack same :),
    (congrArg State.counters same :), ?_⟩
  rw [← completed state, same, completed]

end

end State

section

variable {σ τ : Type} (oracle : Oracle σ) (options : Options) (graph : Graph) (now : τ)
variable (state : State) (memory : σ) (index : Nat) (block : Block)

/-! ## Ticks at rest -/

variable {oracle options graph now state memory index block} in
theorem map_still_of_after {stack : List Frame} {counters : Counters} {target : Option Int}
    {action : Action} {details : Option String} {later : σ}
    (moves : execute oracle options graph now state memory index block =
      .ok (state.after index stack counters target, entryAt now index block action details, later))
    (still : execute oracle options graph () state.still memory index block =
      .ok (state.still.after index stack counters target, entryAt () index block action details,
        later)) :
    execute oracle options graph () state.still memory index block =
      (execute oracle options graph now state memory index block).map
        fun (next, entry, later) => (next.still, entry.untimed, later) := by
  rw [moves, still, ← State.still_after]
  rfl

/-- At rest a block is executed just as well. -/
theorem execute_still :
    execute oracle options graph () state.still memory index block =
      (execute oracle options graph now state memory index block).map
        fun (next, entry, later) => (next.still, entry.untimed, later) := by
  -- The equation for each kind of block asks for the stack, the counters and the memory only.
  by_cases ends : block.kind = .stop ∨ block.kind = .return
  · cases calls : state.stack with
    | nil =>
        exact map_still_of_after (execute_ending_nil _ _ _ _ _ _ _ ends calls)
          (execute_ending_nil _ _ _ _ state.still _ _ ends calls)
    | cons frame stack =>
        exact map_still_of_after (execute_ending_cons _ _ _ _ _ _ _ ends calls)
          (execute_ending_cons _ _ _ _ state.still _ _ ends calls)
  by_cases isLoop : block.kind = .loop
  · by_cases again : state.counters.countOf index < options.iterations
    · exact map_still_of_after (execute_loop_again _ _ _ _ _ _ _ isLoop again)
        (execute_loop_again _ _ _ _ state.still _ _ isLoop again)
    · have enough := Int.not_lt.mp again
      exact map_still_of_after (execute_loop_enough _ _ _ _ _ _ _ isLoop enough)
        (execute_loop_enough _ _ _ _ state.still _ _ isLoop enough)
  by_cases isCall : block.kind = .call
  · exact map_still_of_after (execute_call _ _ _ _ _ _ _ isCall)
      (execute_call _ _ _ _ state.still _ _ isCall)
  have goesOn := not_or.mp ends
  by_cases asks : block.opensConditional = true ∨ block.kind = .elseIf
  · cases answered : oracle.decide memory index block with
    | error error =>
        rw [execute_condition_error goesOn isLoop asks answered,
          execute_condition_error goesOn isLoop asks answered]
        rfl
    | ok result =>
        exact map_still_of_after (execute_condition _ _ _ _ _ _ _ asks answered)
          (execute_condition _ _ _ _ state.still _ _ asks answered)
  by_cases noCases : block.kind = .switch →
      (graph.outgoing index).filter (fun edge => edge.kind = .case) = []
  · exact map_still_of_after (execute_plain _ _ _ _ _ _ _ goesOn ⟨isLoop, isCall⟩ asks noCases)
      (execute_plain _ _ _ _ state.still _ _ goesOn ⟨isLoop, isCall⟩ asks noCases)
  · rw [Classical.not_imp] at noCases
    rcases noCases with ⟨isSwitch, some⟩
    rcases List.exists_cons_of_ne_nil some with ⟨first, rest, cases⟩
    cases selected : oracle.selectCase memory index block
      ((first :: rest).map fun edge => edge.label.getD "") with
    | error error =>
        rw [execute_switch_error isSwitch cases selected,
          execute_switch_error isSwitch cases selected]
        rfl
    | ok result =>
        exact map_still_of_after (execute_switch _ _ _ _ _ _ _ isSwitch cases selected)
          (execute_switch _ _ _ _ state.still _ _ isSwitch cases selected)

theorem tickOn_still (log : List (Entry τ)) :
    tickOn oracle options graph (state.still, log.map Entry.untimed, memory) () =
      (tickOn oracle options graph (state, log, memory) now).map
        fun (next, log, later) => (next.still, log.map Entry.untimed, later) := by
  unfold tickOn
  cases standing graph state with
  | idle idle =>
      rw [tick_of_idle idle, tick_of_idle ((State.idle_still_iff state).mpr idle)]
      simp [Except.map]
  | outside underWay outside =>
      have underWay' := mt (State.idle_still_iff state).mp underWay
      rw [tick_of_outside underWay outside, tick_of_outside underWay' outside]
      simp [Except.map, State.still]
  | inside underWay index block current found =>
      have underWay' := mt (State.idle_still_iff state).mp underWay
      rw [tick_of_inside underWay current found, tick_of_inside underWay' current found,
        execute_still oracle options graph now]
      cases execute oracle options graph now state memory index block with
      | error fault => rfl
      | ok result => simp [Except.map]

theorem begin_still (paused : Bool) :
    begin graph () (.initial 0) true =
      (begin graph now state paused).map
        fun (next, entries) => (next.still, entries.map Entry.untimed) := by
  unfold begin
  cases graph.find? .start with
  | none => rfl
  | some index =>
      dsimp only [Except.map]
      cases firstForward? graph index <;> cases paused <;> rfl

end

/-! ## Walks inside the graph -/

def Closed (graph : Graph) : Prop :=
  ∀ edge ∈ graph.edges, (graph.block? edge.target).isSome

theorem closed_ofBlocks (blocks : List Block) (functionName : Option String) :
    Closed (ofBlocks blocks functionName) := by
  intro edge member
  rcases exists_target_of_mem member with ⟨target, isTarget, small⟩
  rw [isTarget, block?, if_neg (by omega), Int.toNat_natCast]
  exact Option.isSome_iff_exists.mpr ⟨_, List.getElem?_eq_getElem small⟩

/-- A walk that stands at a block unless it is idle, and whose calls return to blocks, if anywhere.
One that has not started has visited nothing. -/
structure Grounded (graph : Graph) (state : State) : Prop where
  fresh : state.phase = .notStarted → state.path = []
  stands : ¬state.Idle → (state.current.bind graph.block?).isSome
  returns : ∀ frame ∈ state.stack, ∀ place, frame.returnTo = some place →
    (graph.block? place).isSome

section

variable {graph : Graph} {index : Int} {target : Int}

theorem Closed.firstForward? (closed : Closed graph)
    (first : Walk.firstForward? graph index = some target) : (graph.block? target).isSome := by
  rcases exists_of_firstForward? first with ⟨edge, member, rfl⟩
  exact closed edge (mem_outgoing.mp (mem_forward.mp member).1).1

theorem Closed.liveLoop? (closed : Closed graph) {counters : Counters}
    (live : Walk.liveLoop? graph counters index = some target) :
    (graph.block? target).isSome := by
  rcases exists_of_liveLoop? live with ⟨edge, member, rfl, _⟩
  exact closed edge (mem_outgoing.mp member).1

theorem Closed.visit (closed : Closed graph) {options : Options} {index : Nat} {block : Block}
    (found : (graph.block? index).isSome) {stack later : List Frame} {counters known : Counters}
    {target : Option Int}
    (visit : Visit graph options index block stack counters later known target)
    (returns : ∀ frame ∈ stack, ∀ place, frame.returnTo = some place →
      (graph.block? place).isSome) :
    (∀ place, target = some place → (graph.block? place).isSome) ∧
      ∀ frame ∈ later, ∀ place, frame.returnTo = some place → (graph.block? place).isSome := by
  have either {first second : Option Int}
      (left : ∀ place, first = some place → (graph.block? place).isSome)
      (right : ∀ place, second = some place → (graph.block? place).isSome) (place : Int)
      (goes : first.or second = some place) : (graph.block? place).isSome := by
    rcases Option.or_eq_some_iff.mp goes with goes | ⟨_, goes⟩
    · exact left place goes
    · exact right place goes
  cases visit with
  | finish _ ends => exact ⟨nofun, returns⟩
  | resume frame _ _ ends =>
      exact ⟨returns frame List.mem_cons_self,
        fun other member => returns other (List.mem_cons_of_mem _ member)⟩
  | enter _ _ isLoop again =>
      refine ⟨fun place goes => ?_, returns⟩
      split at goes
      · exact closed.firstForward? goes
      · cases goes
        exact found
  | leave _ _ isLoop enough =>
      exact ⟨either (fun _ => closed.liveLoop?) (fun _ => closed.firstForward?), returns⟩
  | call frame _ _ isCall isReturnTo =>
      refine ⟨either (fun _ => closed.liveLoop?) (fun _ => closed.firstForward?),
        fun other member => ?_⟩
      rcases List.mem_cons.mp member with rfl | earlier
      · rw [isReturnTo]
        exact fun _ => closed.firstForward?
      · exact returns other earlier
  | follow _ _ chosen other drawn =>
      refine ⟨either (fun _ => closed.liveLoop?) fun place goes => ?_, returns⟩
      rcases drawn place goes with ⟨edge, member, rfl⟩
      exact closed edge (mem_outgoing.mp (mem_forward.mp member).1).1

variable {σ τ : Type} {oracle : Oracle σ} {options : Options} {now : τ} {state next : State}
variable {memory later : σ} {entries : List (Entry τ)}

theorem Grounded.tick (closed : Closed graph) (grounded : Grounded graph state)
    (ticked : transition oracle options graph now state memory .tick =
      .ok (next, entries, later)) :
    Grounded graph next ∧
      (state.Idle ∧ next = state ∧ entries = [] ∧ later = memory ∨
        ¬state.Idle ∧ next.path.length = state.path.length + 1) := by
  cases standing graph state with
  | idle idle =>
      rw [tick_of_idle idle] at ticked
      cases ticked
      exact ⟨grounded, .inl ⟨idle, rfl, rfl, rfl⟩⟩
  | outside underWay outside =>
      have stands := grounded.stands underWay
      rw [outside] at stands
      cases stands
  | inside underWay index block current found =>
      rw [tick_of_inside underWay current found] at ticked
      cases executed : execute oracle options graph now state memory index block with
      | error fault =>
          rw [executed] at ticked
          cases ticked
      | ok result =>
          rcases result with ⟨after, entry, remembered⟩
          rw [executed] at ticked
          cases ticked
          rcases visit_of_execute executed with ⟨stack, counters, target, rfl, _, visit, _⟩
          rcases closed.visit (by rw [found]; rfl) visit grounded.returns with ⟨goes, returns⟩
          refine ⟨⟨?_, ?_, ?_⟩, .inr ⟨underWay, by simp⟩⟩
          · intro fresh
            rcases State.phase_after state index stack counters target with same | completed
            · exact absurd (.inl (same.symm.trans fresh)) underWay
            · cases completed.symm.trans fresh
          · intro goesOn
            cases target with
            | none => exact absurd (.inr rfl) goesOn
            | some place => exact goes place rfl
          · rw [State.after_stack]
            exact returns

theorem Grounded.begin (closed : Closed graph) {paused : Bool}
    (begun : begin graph now state paused = .ok (next, entries)) :
    Grounded graph next ∧ next.path.length = 1 := by
  unfold Walk.begin at begun
  cases found : graph.find? .start with
  | none =>
      rw [found] at begun
      cases begun
  | some index =>
      rw [found] at begun
      dsimp only at begun
      cases first : firstForward? graph index with
      | none =>
          rw [first] at begun
          cases begun
          exact ⟨⟨nofun, fun goesOn => absurd (.inr rfl) goesOn, nofun⟩, rfl⟩
      | some target =>
          rw [first] at begun
          cases begun
          refine ⟨⟨fun fresh => ?_, fun _ => closed.firstForward? first, nofun⟩, rfl⟩
          cases paused <;> cases fresh

theorem grounded_initial (graph : Graph) (speed : Int) : Grounded graph (.initial speed) where
  fresh _ := rfl
  stands goesOn := absurd (.inl rfl) goesOn
  returns := nofun

end

end Flowchart.Walk
