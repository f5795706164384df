import Flowchart.Proofs.Walk.Visit

/-!
What every event keeps.

An event leaves the speed as it is or brings it within its limits, and an oracle that answers goes
on answering. A tick never fails with such an oracle; it goes on in the phase in which the walk is,
or it completes the walk.
-/

namespace Flowchart.Walk

variable {σ τ : Type} {oracle : Oracle σ} {options : Options} {graph : Graph} {now : τ}
variable {state : State} {memory : σ} {index : Nat} {block : Block}

/-! ## Where a tick finds a walk -/

def State.Idle (state : State) : Prop := state.phase = .notStarted ∨ state.phase = .completed

instance (state : State) : Decidable state.Idle :=
  inferInstanceAs (Decidable (state.phase = .notStarted ∨ state.phase = .completed))

variable (graph state) in
inductive Standing : Prop
  | idle (idle : state.Idle)
  | outside (underWay : ¬state.Idle) (outside : state.current.bind graph.block? = none)
  | inside (underWay : ¬state.Idle) (index : Nat) (block : Block)
      (current : state.current = some (index : Int)) (found : graph.block? index = some block)

theorem natCast_toNat_of_block? {position : Int} (found : graph.block? position = some block) :
    (position.toNat : Int) = position := by
  rw [Graph.block?] at found
  split at found
  · cases found
  · omega

variable (graph state) in
theorem standing : Standing graph state := by
  by_cases idle : state.Idle
  · exact .idle idle
  · cases found : state.current.bind graph.block? with
    | none => exact .outside idle found
    | some block =>
        rcases Option.bind_eq_some_iff.mp found with ⟨position, current, found⟩
        rw [← natCast_toNat_of_block? found] at current found
        exact .inside idle _ block current found

theorem tick_of_idle (idle : state.Idle) :
    transition oracle options graph now state memory .tick = .ok (state, [], memory) := by
  exact if_pos idle

theorem tick_of_outside (underWay : ¬state.Idle)
    (outside : state.current.bind graph.block? = none) :
    transition oracle options graph now state memory .tick =
      .ok ({ state with phase := .completed }, [], memory) := by
  refine (if_neg underWay).trans ?_
  have nowhere : (state.current.bind fun position =>
      (graph.block? position).map (position.toNat, ·)) = none := by
    cases current : state.current with
    | none => rfl
    | some position =>
        rw [current, Option.bind_some] at outside
        rw [Option.bind_some, outside, Option.map_none]
  rw [nowhere]

theorem tick_of_inside (underWay : ¬state.Idle) (current : state.current = some (index : Int))
    (found : graph.block? index = some block) :
    transition oracle options graph now state memory .tick =
      (execute oracle options graph now state memory index block).map
        fun (next, entry, later) => (next, [entry], later) := by
  refine (if_neg underWay).trans ?_
  simp only [current, Option.bind_some, found, Option.map_some, Int.toNat_natCast]

/-! ## What starts and ticks come to -/

variable {next : State} {entries : List (Entry τ)} {later : σ}

theorem start_eq {paused : Bool} (stopped : state.phase ≠ .running)
    (begun : transition oracle options graph now state memory (.start paused) =
      .ok (next, entries, later)) :
    ∃ (index : Nat) (entry : Entry τ), graph.find? .start = some index ∧ entries = [entry] ∧
      entry.index = index ∧ entry.action = .enter ∧
      next = ({ State.initial state.speed with
        current := some (index : Int)
        phase := if paused then .paused else .running } : State).after index [] []
          (firstForward? graph (index : Int)) ∧ later = memory := by
  rw [transition, if_neg stopped, begin] at begun
  cases found : graph.find? .start with
  | none =>
      rw [found] at begun
      cases begun
  | some index =>
      rw [found] at begun
      cases begun
      exact ⟨index, _, rfl, rfl, rfl, rfl, rfl, rfl⟩

theorem find?_eq_none_of_start {paused : Bool} {fault : Fault}
    (failed : transition oracle options graph now state memory (.start paused) = .error fault) :
    graph.find? .start = none := by
  rw [transition] at failed
  split at failed
  · cases failed
  · cases found : graph.find? .start with
    | none => rfl
    | some index =>
        rw [begin, found] at failed
        cases failed

theorem tick_cases (ticked : transition oracle options graph now state memory .tick =
      .ok (next, entries, later)) :
    entries = [] ∧ (next = state ∨ ¬state.Idle ∧ next = { state with phase := .completed }) ∨
      ∃ (index : Nat) (block : Block) (entry : Entry τ), ¬state.Idle ∧
        state.current = some (index : Int) ∧ graph.block? index = some block ∧
        entries = [entry] ∧
        execute oracle options graph now state memory index block = .ok (next, entry, later) := by
  cases standing graph state with
  | idle idle =>
      rw [tick_of_idle idle] at ticked
      cases ticked
      exact .inl ⟨rfl, .inl rfl⟩
  | outside underWay outside =>
      rw [tick_of_outside underWay outside] at ticked
      cases ticked
      exact .inl ⟨rfl, .inr ⟨underWay, rfl⟩⟩
  | inside underWay index block current found =>
      rw [tick_of_inside underWay current found] at ticked
      cases executed : execute oracle options graph now state memory index block with
      | error fault =>
          rw [executed] at ticked
          cases ticked
      | ok result =>
          rcases result with ⟨after, entry, remembered⟩
          rw [executed] at ticked
          cases ticked
          exact .inr ⟨index, block, entry, underWay, current, found, rfl, executed⟩

/-! ## What is kept -/

@[simp] theorem State.after_speed (state : State) (index : Nat) (stack : List Frame)
    (counters : Counters) (target : Option Int) :
    (state.after index stack counters target).speed = state.speed := by
  cases target <;> rfl

theorem State.phase_after (state : State) (index : Nat) (stack : List Frame) (counters : Counters)
    (target : Option Int) :
    (state.after index stack counters target).phase = state.phase ∨
      (state.after index stack counters target).phase = .completed := by
  cases target with
  | none => exact .inr rfl
  | some place => exact .inl rfl

variable {knows : σ → Prop} (answers : oracle.Answers knows) (remembers : knows memory)

variable (options graph now state) in
include answers remembers in
/-- A tick succeeds with an oracle that answers, and keeps the speed and the phase, or completes the
walk. -/
theorem exists_tick :
    ∃ next entries later,
      transition oracle options graph now state memory .tick = .ok (next, entries, later) ∧
        knows later ∧ next.speed = state.speed ∧
        (next.phase = state.phase ∨ next.phase = .completed) := by
  cases standing graph state with
  | idle idle => exact ⟨_, _, _, tick_of_idle idle, remembers, rfl, .inl rfl⟩
  | outside underWay outside =>
      exact ⟨_, _, _, tick_of_outside underWay outside, remembers, rfl, .inr rfl⟩
  | inside underWay index block current found =>
      rcases exists_visit options graph index block answers remembers now state with
        ⟨stack, counters, target, entry, later, executed, knowing, _⟩
      refine ⟨state.after index stack counters target, [entry], later, ?_, knowing,
        State.after_speed .., State.phase_after ..⟩
      rw [tick_of_inside underWay current found, executed]
      rfl

theorem start_cases {paused : Bool} (moved : transition oracle options graph now state memory
      (.start paused) = .ok (next, entries, later)) (stopped : state.phase ≠ .running) :
    next.speed = state.speed ∧ later = memory ∧
      (next.phase = (if paused then .paused else .running) ∨ next.phase = .completed) := by
  rcases start_eq stopped moved with ⟨index, entry, _, _, _, _, rfl, rfl⟩
  exact ⟨State.after_speed .., rfl, State.phase_after ..⟩

end Flowchart.Walk
