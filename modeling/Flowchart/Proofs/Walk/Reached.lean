import Flowchart.Proofs.Walk.Still

/-!
The states that a walk can reach.

A walk is reached by a start from any state, by ticks, and by events that only adjust it: pauses,
resumptions and new speeds. Nothing is said about what the oracle remembers from one tick to the
next, so that it may answer at each tick as it likes, also after it did not answer before. In a
built graph the parts of a state that is reached agree with each other and with the log.
-/

namespace Flowchart.Walk

open Flowchart.Graph

/-! ## Positions in rising order -/

theorem State.mem_insertPosition {position other : Int} {positions : List Int} :
    other ∈ insertPosition position positions ↔ other = position ∨ other ∈ positions := by
  induction positions with
  | nil => simp [insertPosition]
  | cons first rest induction =>
      rw [insertPosition]
      split
      · rw [List.mem_cons]
      · split
        · rename_i same
          rw [same, List.mem_cons, ← or_assoc, or_self]
        · rw [List.mem_cons, induction, List.mem_cons, or_left_comm]

theorem State.rising_insertPosition {positions : List Int} (position : Int)
    (rising : positions.Pairwise (· < ·)) :
    (insertPosition position positions).Pairwise (· < ·) := by
  induction rising with
  | nil => exact List.pairwise_singleton _ _
  | @cons first rest least rising induction =>
      rw [insertPosition]
      split
      · rename_i before
        refine List.pairwise_cons.mpr ⟨fun other member => ?_, .cons least rising⟩
        rcases List.mem_cons.mp member with rfl | behind
        · exact before
        · exact Int.lt_trans before (least other behind)
      · rename_i notBefore
        split
        · exact .cons least rising
        · rename_i different
          refine List.pairwise_cons.mpr ⟨fun other member => ?_, induction⟩
          rcases mem_insertPosition.mp member with rfl | behind
          · omega
          · exact least other behind

/-! ## Reached states -/

inductive Event.Adjusts : Event → Prop
  | pause : Adjusts .pause
  | resume : Adjusts .resume
  | setSpeed (value : Option Number) : Adjusts (.setSpeed value)

section

variable {σ τ : Type} (oracle : Oracle σ) (options : Options) (graph : Graph)

inductive Reached : State → List (Entry τ) → Prop
  | initial (speed : Int) : Reached (.initial speed) []
  | start {state next : State} {now : τ} {memory later : σ} {paused : Bool} {log : List (Entry τ)}
      (stopped : state.phase ≠ .running)
      (begun : transition oracle options graph now state memory (.start paused) =
        .ok (next, log, later)) : Reached next log
  | tick {state next : State} {now : τ} {memory later : σ} {log entries : List (Entry τ)}
      (reached : Reached state log)
      (ticked : transition oracle options graph now state memory .tick =
        .ok (next, entries, later)) : Reached next (log ++ entries)
  | adjust {state next : State} {now : τ} {memory later : σ} {log entries : List (Entry τ)}
      {event : Event} (reached : Reached state log) (adjusts : event.Adjusts)
      (moved : transition oracle options graph now state memory event =
        .ok (next, entries, later)) : Reached next (log ++ entries)

variable {oracle options graph} {state next : State} {now : τ} {memory later : σ}
variable {log entries : List (Entry τ)}

theorem Event.Adjusts.exists_eq {event : Event} (adjusts : event.Adjusts)
    (moved : transition oracle options graph now state memory event = .ok (next, entries, later)) :
    entries = [] ∧ ∃ phase speed, next = { state with phase, speed } ∧
      (phase = .notStarted ↔ state.phase = .notStarted) ∧
      (phase = .completed ↔ state.phase = .completed) := by
  cases adjusts with
  | pause =>
      cases moved
      refine ⟨rfl, ?_⟩
      split
      · rename_i running
        exact ⟨.paused, state.speed, rfl, by simp [running], by simp [running]⟩
      · exact ⟨state.phase, state.speed, rfl, .rfl, .rfl⟩
  | resume =>
      cases moved
      refine ⟨rfl, ?_⟩
      split
      · rename_i paused
        exact ⟨.running, state.speed, rfl, by simp [paused], by simp [paused]⟩
      · exact ⟨state.phase, state.speed, rfl, .rfl, .rfl⟩
  | setSpeed value =>
      cases moved
      exact ⟨rfl, state.phase, _, rfl, .rfl, .rfl⟩

theorem State.phase_after_ne_notStarted {state : State} {index : Nat} {stack : List Frame}
    {counters : Counters} {target : Option Int} (underWay : ¬state.Idle) :
    (state.after index stack counters target).phase ≠ .notStarted := by
  intro fresh
  rcases State.phase_after state index stack counters target with same | completed
  · exact underWay (.inl (same.symm.trans fresh))
  · cases completed.symm.trans fresh

theorem speed_of_tick (ticked : transition oracle options graph now state memory .tick =
      .ok (next, entries, later)) : next.speed = state.speed := by
  rcases tick_cases ticked with
    ⟨_, rfl | ⟨_, rfl⟩⟩ | ⟨index, block, entry, _, _, _, _, executed⟩
  · rfl
  · rfl
  · rcases visit_of_execute executed with ⟨stack, counters, target, rfl, _⟩
    exact State.after_speed ..

structure Rooted (graph : Graph) (state : State) (log : List (Entry τ)) : Prop where
  fresh : state.phase = .notStarted → log = []
  starts : state.phase ≠ .notStarted → (graph.find? .start).isSome

theorem Reached.rooted (reached : Reached oracle options graph state log) :
    Rooted graph state log := by
  induction reached with
  | initial speed => exact ⟨fun _ => rfl, fun begun => absurd rfl begun⟩
  | @start _ _ _ _ _ paused _ stopped begun =>
      rcases start_eq stopped begun with ⟨index, entry, found, _, _, _, rfl, _⟩
      refine ⟨fun fresh => absurd fresh (State.phase_after_ne_notStarted ?_), fun _ => ?_⟩
      · cases paused <;> simp [State.Idle]
      · rw [found]
        rfl
  | tick _ ticked rooted =>
      rcases tick_cases ticked with
        ⟨rfl, rfl | ⟨underWay, rfl⟩⟩ | ⟨index, block, entry, underWay, _, _, rfl, executed⟩
      · rw [List.append_nil]
        exact rooted
      · refine ⟨fun fresh => ?_, fun _ => rooted.starts (underWay ∘ .inl)⟩
        cases fresh
      · rcases visit_of_execute executed with ⟨stack, counters, target, rfl, _⟩
        exact ⟨fun fresh => absurd fresh (State.phase_after_ne_notStarted underWay),
          fun _ => rooted.starts (underWay ∘ .inl)⟩
  | adjust _ adjusts moved rooted =>
      rcases adjusts.exists_eq moved with ⟨rfl, phase, speed, rfl, notStarted, _⟩
      rw [List.append_nil]
      exact ⟨fun fresh => rooted.fresh (notStarted.mp fresh),
        fun begun => rooted.starts (mt notStarted.mpr begun)⟩

/-! ## Parts of a state that agree -/

/-- Counters of loops among the visited positions, which were entered at least once and no oftener
than the options say. -/
def Counters.Within (options : Options) (graph : Graph) (visited : List Int) (counters : Counters) :
    Prop :=
  ∀ loop count, (loop, count) ∈ counters →
    loop ∈ visited ∧ (∃ block, graph.block? loop = some block ∧ block.kind = .loop) ∧
      1 ≤ count ∧ count ≤ options.iterations

/-- What the parts of a state and its log say about each other. -/
structure Consistent (options : Options) (graph : Graph) (state : State) (log : List (Entry τ)) :
    Prop where
  path : state.path = log.map Entry.index
  rising : state.visited.Pairwise (· < ·)
  visited : ∀ place, place ∈ state.visited ↔ place ∈ state.path
  calls : log.countP (fun entry => entry.action = .call) =
    log.countP (fun entry => entry.action = .return) + state.stack.length
  counters : Counters.Within options graph state.visited state.counters

theorem Consistent.adjusted (consistent : Consistent options graph state log) (phase : Phase)
    (speed : Int) : Consistent options graph { state with phase, speed } log :=
  ⟨consistent.path, consistent.rising, consistent.visited, consistent.calls, consistent.counters⟩

section

variable {index : Nat} {block : Block} {stack : List Frame} {counters : Counters}
variable {target : Option Int} {entry : Entry τ}

@[simp] theorem State.after_visited (state : State) (index : Nat) (stack : List Frame)
    (counters : Counters) (target : Option Int) :
    (state.after index stack counters target).visited =
      State.insertPosition index state.visited := by
  cases target <;> rfl

/-- A visit adds one entry, and calls and returns account for the calls on the stack. -/
theorem calls_concat_of_visit {pending : List Frame} {known : Counters}
    (told : Tells index block pending entry)
    (visit : Visit graph options index block pending known stack counters target)
    (calls : log.countP (fun entry => entry.action = .call) =
      log.countP (fun entry => entry.action = .return) + pending.length) :
    (log ++ [entry]).countP (fun entry => entry.action = .call) =
      (log ++ [entry]).countP (fun entry => entry.action = .return) + stack.length := by
  have same (noCall : block.kind ≠ .call)
      (goesOn : ¬((block.kind = .stop ∨ block.kind = .return) ∧ pending ≠ [])) :=
    calls_concat_of_other calls (mt told.calls.mp noCall) (mt told.returns.mp goesOn)
  cases visit with
  | finish _ ends =>
      refine same (fun isCall => ?_) (fun inside => inside.2 rfl)
      simp [isCall] at ends
  | resume frame _ _ ends => exact calls_concat_of_return calls (told.returns.mpr ⟨ends, by simp⟩)
  | enter _ _ isLoop _ => exact same (by simp [isLoop]) (by simp [isLoop])
  | leave _ _ isLoop _ => exact same (by simp [isLoop]) (by simp [isLoop])
  | call frame _ _ isCall _ => exact calls_concat_of_call calls (told.calls.mpr isCall)
  | follow _ _ _ other _ =>
      exact same other.2.2.2 fun inside => not_or.mpr ⟨other.1, other.2.1⟩ inside.1

theorem Counters.Within.countOf {visited : List Int} {known : Counters}
    (within : Counters.Within options graph visited known) (loop : Int) :
    0 ≤ known.countOf loop := by
  rw [Counters.countOf]
  cases found : known.lookup loop with
  | none => exact Int.le_refl 0
  | some count =>
      rcases List.lookup_eq_some_iff.mp found with ⟨front, back, rfl, _⟩
      have member : (loop, count) ∈ front ++ (loop, count) :: back :=
        List.mem_append_right front List.mem_cons_self
      exact Int.le_trans (by decide) (within loop count member).2.2.1

theorem Counters.Within.visit {pending : List Frame} {visited : List Int} {known : Counters}
    (found : graph.block? index = some block)
    (visit : Visit graph options index block pending known stack counters target)
    (within : Counters.Within options graph visited known) :
    Counters.Within options graph (State.insertPosition index visited) counters := by
  have wider : Counters.Within options graph (State.insertPosition index visited) known :=
    fun loop count member => (within loop count member).imp_left fun visited =>
      State.mem_insertPosition.mpr (.inr visited)
  cases visit with
  | enter _ _ isLoop again =>
      intro loop count member
      rcases List.mem_cons.mp member with isNew | kept
      · cases isNew
        have positive := within.countOf index
        exact ⟨State.mem_insertPosition.mpr (.inl rfl), ⟨block, found, isLoop⟩, by omega, by omega⟩
      · exact wider loop count (List.mem_of_mem_filter kept)
  | leave _ _ isLoop _ =>
      exact fun loop count member => wider loop count (List.mem_of_mem_filter member)
  | finish | resume | call | follow => exact wider

theorem Consistent.after (consistent : Consistent options graph state log)
    (found : graph.block? index = some block) (told : Tells index block state.stack entry)
    (visit : Visit graph options index block state.stack state.counters stack counters target) :
    Consistent options graph (state.after index stack counters target) (log ++ [entry]) where
  path := by
    rw [State.after_path, List.map_append, consistent.path, List.map_singleton, told.index]
  rising := by
    rw [State.after_visited]
    exact State.rising_insertPosition _ consistent.rising
  visited place := by
    rw [State.after_visited, State.after_path, State.mem_insertPosition, consistent.visited,
      List.mem_append, List.mem_singleton, or_comm]
  calls := by
    rw [State.after_stack]
    exact calls_concat_of_visit told visit consistent.calls
  counters := by
    rw [State.after_visited, State.after_counters]
    exact consistent.counters.visit found visit

end

theorem Reached.consistent (reached : Reached oracle options graph state log) :
    Consistent options graph state log := by
  induction reached with
  | initial speed => exact ⟨rfl, .nil, fun _ => .rfl, rfl, fun _ _ member => by cases member⟩
  | start stopped begun =>
      rcases start_eq stopped begun with ⟨index, entry, _, rfl, isIndex, enters, rfl, _⟩
      refine ⟨?_, ?_, fun place => ?_, ?_, ?_⟩
      · rw [State.after_path, List.map_singleton, isIndex]
        rfl
      · rw [State.after_visited]
        exact State.rising_insertPosition _ .nil
      · rw [State.after_visited, State.after_path, State.mem_insertPosition]
        simp [State.initial]
      · rw [State.after_stack]
        simp [enters]
      · rw [State.after_counters]
        intro _ _ member
        cases member
  | tick _ ticked consistent =>
      rcases tick_cases ticked with
        ⟨rfl, rfl | ⟨_, rfl⟩⟩ | ⟨index, block, entry, _, _, found, rfl, executed⟩
      · rwa [List.append_nil]
      · rw [List.append_nil]
        exact consistent.adjusted .completed _
      · rcases visit_of_execute executed with ⟨stack, counters, target, rfl, told, visit, _⟩
        exact consistent.after found told visit
  | adjust _ adjusts moved consistent =>
      rcases adjusts.exists_eq moved with ⟨rfl, phase, speed, rfl, _, _⟩
      rw [List.append_nil]
      exact consistent.adjusted phase speed

theorem Reached.grounded (closed : Closed graph)
    (reached : Reached oracle options graph state log) : Grounded graph state := by
  induction reached with
  | initial speed => exact grounded_initial graph speed
  | @start _ _ _ _ _ paused _ stopped begun =>
      rcases start_eq stopped begun with ⟨index, entry, _, _, _, _, rfl, _⟩
      refine ⟨fun fresh => absurd fresh (State.phase_after_ne_notStarted ?_), fun underWay => ?_,
        ?_⟩
      · cases paused <;> simp [State.Idle]
      · cases first : firstForward? graph (index : Int) with
        | none =>
            rw [first] at underWay
            exact absurd (.inr rfl) underWay
        | some place => exact closed.firstForward? first
      · rw [State.after_stack]
        intro _ member
        cases member
  | tick _ ticked grounded => exact (grounded.tick closed ticked).1
  | adjust _ adjusts moved grounded =>
      rcases adjusts.exists_eq moved with ⟨rfl, phase, speed, rfl, notStarted, completed⟩
      refine ⟨fun fresh => grounded.fresh (notStarted.mp fresh), fun underWay => ?_,
        grounded.returns⟩
      refine grounded.stands fun idle => underWay ?_
      exact idle.imp notStarted.mpr completed.mpr

end

end Flowchart.Walk
