import Flowchart.Proofs.Walk.Reached

/-!
The trail that a walk leaves in its log.

Calls and returns are bracketed, and every entry leads to the next one: along an edge of the graph,
behind the body of a loop, or behind the call that returns. This is so in every graph, also in one
that was not built, and whatever the oracle answers.
-/

namespace Flowchart.Walk

section

variable {τ : Type}

/-! ## Brackets -/

inductive Balanced : List (Entry τ) → Prop
  | nil : Balanced []
  | plain {entry : Entry τ} {rest : List (Entry τ)}
      (other : entry.action ≠ .call ∧ entry.action ≠ .return) (behind : Balanced rest) :
      Balanced (entry :: rest)
  | call {call back : Entry τ} {inner rest : List (Entry τ)} (calls : call.action = .call)
      (inside : Balanced inner) (returns : back.action = .return) (behind : Balanced rest) :
      Balanced (call :: inner ++ back :: rest)

theorem Balanced.append {left right : List (Entry τ)} (before : Balanced left)
    (after : Balanced right) : Balanced (left ++ right) := by
  induction before with
  | nil => exact after
  | plain other _ induction => exact .plain other induction
  | call calls inside returns _ _ induction =>
      rw [List.append_assoc]
      exact .call calls inside returns induction

theorem Balanced.singleton {entry : Entry τ}
    (other : entry.action ≠ .call ∧ entry.action ≠ .return) : Balanced [entry] :=
  .plain other .nil

inductive Open : List (Entry τ) → List (Entry τ) → Prop
  | outside {log : List (Entry τ)} (balanced : Balanced log) : Open log []
  | inside {before inner calls : List (Entry τ)} {call : Entry τ} (outer : Open before calls)
      (isCall : call.action = .call) (balanced : Balanced inner) :
      Open (before ++ call :: inner) (call :: calls)

variable {log calls : List (Entry τ)}

theorem Open.append {entries : List (Entry τ)} (isOpen : Open log calls)
    (balanced : Balanced entries) : Open (log ++ entries) calls := by
  cases isOpen with
  | outside before => exact .outside (before.append balanced)
  | inside outer isCall inner =>
      rw [List.append_assoc]
      exact .inside outer isCall (inner.append balanced)

theorem Open.close {call back : Entry τ} (isOpen : Open log (call :: calls))
    (returns : back.action = .return) : Open (log ++ [back]) calls := by
  cases isOpen with
  | inside outer isCall balanced =>
      rw [List.append_assoc]
      exact outer.append (.call isCall balanced returns .nil)

end

/-! ## The way from entry to entry -/

section

variable {τ : Type} (graph : Graph)

def StandsAt (kind : Block.Kind) (place : Int) : Prop :=
  ∃ block, graph.block? place = some block ∧ block.kind = kind

/-- Behind a log and an entry that ends a call, the walk goes on behind the call. The call is the
last one that has not returned, and the edge is the first of its edges that goes on. -/
inductive Resumes (before : List (Entry τ)) (next : Int) : Prop
  | behind (earlier inner : List (Entry τ)) (call : Entry τ)
      (parts : before = earlier ++ call :: inner) (calls : call.action = .call)
      (balanced : Balanced inner) (isCall : StandsAt graph .call call.index)
      (first : firstForward? graph call.index = some next)

inductive LeadsTo (before : List (Entry τ)) (entry : Entry τ) (next : Int) : Prop
  | along (goesOn : entry.action ≠ .return) (edge : Edge) (member : edge ∈ graph.edges)
      (isSource : edge.source = entry.index) (isTarget : edge.target = next)
  /-- A loop without a body is entered again. -/
  | again (goesOn : entry.action ≠ .return) (isLoop : StandsAt graph .loop entry.index)
      (empty : (loopExtent graph.blocks entry.index.toNat).last = none) (same : next = entry.index)
  /-- A loop is left from the last block of its body. -/
  | leave (goesOn : entry.action ≠ .return) (isLoop : StandsAt graph .loop entry.index)
      (last : Nat) (isLast : (loopExtent graph.blocks entry.index.toNat).last = some last)
      (edge : Edge) (member : edge ∈ graph.edges) (isSource : edge.source = last)
      (isTarget : edge.target = next)
  /-- An end or a return goes on behind a call. -/
  | resume (returns : entry.action = .return)
      (ends : StandsAt graph .stop entry.index ∨ StandsAt graph .return entry.index)
      (resumes : Resumes graph before next)

structure Remembers (frame : Frame) (call : Entry τ) : Prop where
  isCall : StandsAt graph .call call.index
  returnTo : frame.returnTo = firstForward? graph call.index

def Awaits (stack : List Frame) (log : List (Entry τ)) : Prop :=
  ∃ calls, Open log calls ∧ List.Forall₂ (Remembers graph) stack calls

structure OnTrail (state : State) (log : List (Entry τ)) : Prop where
  path : state.path = log.map Entry.index
  leads : ∀ before first second after, log = before ++ first :: second :: after →
    LeadsTo graph before first second.index
  calls : Awaits graph state.stack log
  stands : ¬state.Idle → ∃ before last place, log = before ++ [last] ∧
    state.current = some place ∧ LeadsTo graph before last place

variable {graph}

theorem OnTrail.adjusted {state : State} {log : List (Entry τ)} (onTrail : OnTrail graph state log)
    {phase : Phase} (speed : Int) (underWay : ¬(phase = .notStarted ∨ phase = .completed) →
      ¬state.Idle) : OnTrail graph { state with phase, speed } log :=
  ⟨onTrail.path, onTrail.leads, onTrail.calls, fun goesOn => onTrail.stands (underWay goesOn)⟩

/-! ## Visits -/

section

variable {options : Options} {index : Nat} {block : Block} {pending stack : List Frame}
variable {known counters : Counters} {target : Option Int} {entry : Entry τ} {log : List (Entry τ)}

/-- Wherever a visit leads, the graph or a call that has not returned leads there. -/
theorem LeadsTo.of_visit {next : Int} (found : graph.block? index = some block)
    (told : Tells index block pending entry) (awaits : Awaits graph pending log)
    (visit : Visit graph options index block pending known stack counters (some next)) :
    LeadsTo graph log entry next := by
  have standsAt {kind : Block.Kind} (isKind : block.kind = kind) :
      StandsAt graph kind entry.index :=
    ⟨block, by rw [told.index, found], isKind⟩
  have along {counters : Counters} {chosen : Option Int} (goesOn : entry.action ≠ .return)
      (drawn : ∀ goal, chosen = some goal →
        ∃ edge ∈ graph.forward (index : Int), edge.target = goal)
      (moves : some next = (liveLoop? graph counters index).or chosen) :
      LeadsTo graph log entry next := by
    rcases edge_of_goal drawn moves.symm with ⟨edge, member, isSource, isTarget⟩
    exact .along goesOn edge member (isSource.trans told.index.symm) isTarget
  have goesOn (other : ¬(block.kind = .stop ∨ block.kind = .return)) : entry.action ≠ .return :=
    fun returns => other (told.returns.mp returns).1
  have isIndex : entry.index.toNat = index := by rw [told.index, Int.toNat_natCast]
  generalize moves : some next = moved at visit
  cases visit with
  | finish _ ends => cases moves
  | resume frame _ _ ends =>
      rcases awaits with ⟨calls, isOpen, remembered⟩
      cases remembered with
      | cons remembers _ =>
          cases isOpen with
          | inside _ isCall balanced =>
              refine .resume (told.returns.mpr ⟨ends, List.cons_ne_nil _ _⟩)
                (ends.imp standsAt standsAt) (.behind _ _ _ rfl isCall balanced remembers.isCall ?_)
              exact remembers.returnTo.symm.trans moves.symm
  | enter _ _ isLoop _ =>
      have goesOn := goesOn (by simp [isLoop])
      cases isLast : (loopExtent graph.blocks index).last with
      | none =>
          rw [isLast] at moves
          cases moves
          exact .again goesOn (standsAt isLoop) (by rw [isIndex, isLast]) told.index.symm
      | some last =>
          rw [isLast] at moves
          exact @along [] _ goesOn (fun _ first => exists_of_firstForward? first)
            (by rwa [liveLoop?_nil, Option.none_or])
  | leave _ _ isLoop _ =>
      have goesOn := goesOn (by simp [isLoop])
      cases isLast : (loopExtent graph.blocks index).last with
      | none =>
          rw [exitOf, isLast] at moves
          exact along goesOn (fun _ first => exists_of_firstForward? first) moves
      | some last =>
          rw [exitOf, isLast] at moves
          rcases edge_of_goal (fun _ first => exists_of_firstForward? first) moves.symm with
            ⟨edge, member, isSource, isTarget⟩
          exact .leave goesOn (standsAt isLoop) last (by rw [isIndex, isLast]) edge member isSource
            isTarget
  | call frame _ _ isCall _ =>
      exact along (goesOn (by simp [isCall])) (fun _ first => exists_of_firstForward? first) moves
  | follow _ _ _ other drawn => exact along (goesOn (not_or.mpr ⟨other.1, other.2.1⟩)) drawn moves

/-- A call adds its frame, a return takes off that of the innermost call. -/
theorem Awaits.visit (found : graph.block? index = some block)
    (told : Tells index block pending entry) (awaits : Awaits graph pending log)
    (visit : Visit graph options index block pending known stack counters target) :
    Awaits graph stack (log ++ [entry]) := by
  rcases awaits with ⟨calls, isOpen, remembered⟩
  have plain (noCall : block.kind ≠ .call)
      (other : ¬((block.kind = .stop ∨ block.kind = .return) ∧ pending ≠ [])) :
      Awaits graph pending (log ++ [entry]) :=
    ⟨calls, isOpen.append (.singleton ⟨mt told.calls.mp noCall, mt told.returns.mp other⟩),
      remembered⟩
  cases visit with
  | finish _ ends =>
      refine plain (fun isCall => ?_) fun inside => inside.2 rfl
      simp [isCall] at ends
  | resume frame _ _ ends =>
      cases remembered with
      | cons _ remembered =>
          exact ⟨_, isOpen.close (told.returns.mpr ⟨ends, List.cons_ne_nil _ _⟩), remembered⟩
  | enter _ _ isLoop _ => exact plain (by simp [isLoop]) (by simp [isLoop])
  | leave _ _ isLoop _ => exact plain (by simp [isLoop]) (by simp [isLoop])
  | call frame _ _ isCall returns =>
      refine ⟨entry :: calls, .inside isOpen (told.calls.mpr isCall) .nil,
        .cons ⟨?_, ?_⟩ remembered⟩
      · exact ⟨block, by rw [told.index, found], isCall⟩
      · rw [told.index, returns]
  | follow _ _ _ other _ =>
      exact plain other.2.2.2 fun inside => not_or.mpr ⟨other.1, other.2.1⟩ inside.1

theorem OnTrail.after {state : State} (onTrail : OnTrail graph state log) (underWay : ¬state.Idle)
    (current : state.current = some (index : Int)) (found : graph.block? index = some block)
    (told : Tells index block state.stack entry)
    (visit : Visit graph options index block state.stack state.counters stack counters target) :
    OnTrail graph (state.after index stack counters target) (log ++ [entry]) where
  path := by
    rw [State.after_path, List.map_append, onTrail.path, List.map_singleton, told.index]
  leads before first second after parts := by
    rcases List.eq_nil_or_concat after with rfl | ⟨front, last, rfl⟩
    · rcases onTrail.stands underWay with ⟨earlier, last, place, rfl, isCurrent, leads⟩
      have split : (earlier ++ [last]) ++ [entry] = (before ++ [first]) ++ [second] := by
        rw [parts, List.append_assoc]
        rfl
      rcases List.append_inj' split rfl with ⟨same, isEntry⟩
      rcases List.append_inj' same rfl with ⟨rfl, isLast⟩
      cases isEntry
      cases isLast
      rw [current] at isCurrent
      cases isCurrent
      rw [told.index]
      exact leads
    · refine onTrail.leads before first second front ?_
      have split : log ++ [entry] = before ++ first :: second :: front ++ [last] := by
        rw [parts, List.append_assoc]
        simp
      exact (List.append_inj' split rfl).1
  calls := by
    rw [State.after_stack]
    exact onTrail.calls.visit found told visit
  stands goesOn := by
    cases target with
    | none => exact absurd (.inr rfl) goesOn
    | some place => exact ⟨log, entry, place, rfl, rfl, .of_visit found told onTrail.calls visit⟩

end

/-! ## Reached states -/

variable {σ : Type} {oracle : Oracle σ} {options : Options} {state : State} {log : List (Entry τ)}

theorem Reached.onTrail (reached : Reached oracle options graph state log) :
    OnTrail graph state log := by
  induction reached with
  | initial speed =>
      refine ⟨rfl, fun before first second after parts => ?_, ⟨[], .outside .nil, .nil⟩,
        fun underWay => absurd (.inl rfl) underWay⟩
      simp at parts
  | @start _ _ _ _ _ paused _ stopped begun =>
      rcases start_eq stopped begun with ⟨index, entry, _, rfl, isIndex, enters, rfl, _⟩
      have other : entry.action ≠ .call ∧ entry.action ≠ .return := by simp [enters]
      refine ⟨?_, fun before first second after parts => ?_, ⟨[], ?_, ?_⟩, fun underWay => ?_⟩
      · rw [State.after_path, List.map_singleton, isIndex]
        rfl
      · have short := congrArg List.length parts
        simp only [List.length_append, List.length_cons, List.length_nil] at short
        omega
      · exact .outside (.singleton other)
      · rw [State.after_stack]
        exact .nil
      · cases first : firstForward? graph (index : Int) with
        | none =>
            rw [first] at underWay
            exact absurd (.inr rfl) underWay
        | some place =>
            rcases exists_of_firstForward? first with ⟨edge, forward, isTarget⟩
            rcases mem_outgoing.mp (mem_forward.mp forward).1 with ⟨member, isSource⟩
            exact ⟨[], entry, place, rfl, rfl,
              .along other.2 edge member (isSource.trans isIndex.symm) isTarget⟩
  | tick _ ticked onTrail =>
      rcases tick_cases ticked with
        ⟨rfl, rfl | ⟨underWay, rfl⟩⟩ | ⟨index, block, entry, underWay, current, found, rfl,
          executed⟩
      · rwa [List.append_nil]
      · rw [List.append_nil]
        exact onTrail.adjusted _ fun goesOn => absurd (.inr rfl) goesOn
      · rcases visit_of_execute executed with ⟨stack, counters, target, rfl, told, visit, _⟩
        exact onTrail.after underWay current found told visit
  | adjust _ adjusts moved onTrail =>
      rcases adjusts.exists_eq moved with ⟨rfl, phase, speed, rfl, notStarted, completed⟩
      rw [List.append_nil]
      exact onTrail.adjusted speed fun goesOn idle =>
        goesOn (idle.imp notStarted.mpr completed.mpr)

theorem Reached.of_runFor {speed : Int} {memory later : σ} {paused : Bool} {start : τ}
    {ticks : List τ}
    (ran : runFor oracle options graph speed memory paused start ticks = .ok (state, log, later)) :
    Reached oracle options graph state log := by
  refine runFor_induction _ (fun state log begun => ?_)
    (fun _ _ _ _ _ _ _ reached ticked => .tick reached ticked) ran
  have unstarted : (State.initial speed).phase ≠ .running := by simp [State.initial]
  have starts : transition oracle options graph start (.initial speed) memory (.start paused) =
      .ok (state, log, memory) := by
    rw [transition, if_neg unstarted, begun]
    rfl
  exact .start unstarted starts

/-- A walk keeps to its graph, whatever it is made of and whatever the oracle answers. -/
theorem Reached.keepsToGraph (reached : Reached oracle options graph state log) :
    state.path = log.map Entry.index ∧
      ∀ before first second after, log = before ++ first :: second :: after →
        LeadsTo graph before first second.index :=
  ⟨reached.onTrail.path, reached.onTrail.leads⟩

end

/-- A graph made by hand: a loop without a body, a loop around one block and a call. Between the
loop and the call there is no edge, and one that leads nowhere is at the end. -/
def byHand : Graph where
  blocks := [⟨"Start", 0, .start, false, none⟩, ⟨"While a", 0, .loop, false, none⟩,
    ⟨"While b", 0, .loop, false, none⟩, ⟨"Output x", 1, .output, false, none⟩,
    ⟨"Call f", 0, .call, false, some false⟩, ⟨"End", 0, .stop, true, none⟩]
  edges := [
    { source := 0, target := 1 }, { source := 1, target := 2 }, { source := 2, target := 3 },
    { source := 3, target := 2, kind := .loopBack, depth := some 0 }, { source := 3, target := 4 },
    { source := 4, target := 5 }, { source := 5, target := 9 }]

theorem keepsToGraph_byHand :
    ∃ state log, Reached Oracle.advising { iterations := 1 } byHand state log ∧
      state.path = [0, 1, 1, 2, 3, 2, 4, 5, 5] ∧ state.phase = .completed ∧
      state.path = log.map (Entry.index (τ := Nat)) ∧
      ∀ before first second after, log = before ++ first :: second :: after →
        LeadsTo byHand before first second.index := by
  have walks : (runFor Oracle.advising { iterations := 1 } byHand 500 (.fixed Oracle.no 0) false
      (0 : Nat) (List.range 9)).toOption.map (fun place => (place.1.path, place.1.phase)) =
        some ([0, 1, 1, 2, 3, 2, 4, 5, 5], .completed) := by decide +kernel
  rcases exists_run_of_view _ walks with ⟨⟨state, log, later⟩, ran, seen⟩
  have reached := Reached.of_runFor ran
  exact ⟨state, log, reached, congrArg Prod.fst seen, congrArg Prod.snd seen,
    reached.keepsToGraph⟩

end Flowchart.Walk
