import Flowchart.Proofs.Structured.Wired
import Flowchart.Proofs.Walk.Visit

/-!
A walk through a wired program takes the way that the program reads.

Between a part and its goal, the counters of all loops outside are as they were, and the loops
inside are not counted. A loop is the one place where its own counter is, so that the number of
rounds still to come is what the induction over a loop goes by.
-/

namespace Flowchart

structure Oracle.Decides {σ : Type} (oracle : Oracle σ) (knows : σ → Prop) : Prop where
  decides : ∀ memory, knows memory → ∀ index block, ∃ verdict later,
    oracle.decide memory index block = .ok (ofBool verdict, later) ∧ knows later
  selects : ∀ memory, knows memory → ∀ index block labels, ∃ choice later,
    oracle.selectCase memory index block labels = .ok (choice, later) ∧ knows later

theorem Oracle.decides_fixed (verdict : Bool) (choice : Int) :
    Oracle.advising.Decides (· = .fixed (ofBool verdict) choice) where
  decides := by
    rintro _ rfl index block
    exact ⟨verdict, _, rfl, rfl⟩
  selects := by
    rintro _ rfl index block labels
    exact ⟨_, _, rfl, rfl⟩

namespace Structured

open Flowchart.Walk

def Goal.Live (goal : Goal) (counters : Int → Option Int) : Prop :=
  match goal with
  | .block _ => True
  | .loop header _ => (counters header).isSome = true

def Uncounted (counters : Int → Option Int) (first stop : Nat) : Prop :=
  ∀ loop, (first : Int) ≤ loop → loop < (stop : Int) → counters loop = none

theorem Uncounted.inside {counters : Int → Option Int} {first stop : Nat}
    (fresh : Uncounted counters first stop) {inner last : Nat} (after : first ≤ inner)
    (before : last ≤ stop) : Uncounted counters inner last :=
  fun loop above below => fresh loop (by omega) (by omega)

structure Stands (state : State) (place : Nat) (counters : Int → Option Int) : Prop where
  current : state.current = some (place : Int)
  outside : state.stack = []
  paused : state.phase = .paused
  counted : ∀ loop, state.counters.lookup loop = counters loop

section

variable {σ τ : Type} {oracle : Oracle σ} {options : Options} {graph : Graph} {now : τ}

variable (oracle options graph now) in
structure Passage (before : State × σ) (path : List Int) (after : State × σ) : Prop where
  ticks : Ticks oracle options graph now path.length before after
  path : after.1.path = before.1.path ++ path

theorem Passage.refl (place : State × σ) : Passage oracle options graph now place [] place where
  ticks := .refl place
  path := (List.append_nil _).symm

theorem Passage.append {first second third : State × σ} {left right : List Int}
    (before : Passage oracle options graph now first left second)
    (after : Passage oracle options graph now second right third) :
    Passage oracle options graph now first (left ++ right) third where
  ticks := by
    rw [List.length_append]
    exact before.ticks.trans after.ticks
  path := by rw [after.path, before.path, List.append_assoc]

theorem Passage.cons {first second third : State × σ} {place : Int} {path : List Int}
    (before : Passage oracle options graph now first [place] second)
    (after : Passage oracle options graph now second path third) :
    Passage oracle options graph now first (place :: path) third :=
  before.append after

/-! ## Going on behind a block -/

theorem liveLoop?_of_onward {index : Nat} (counters : Counters)
    (onward : ∀ edge ∈ graph.outgoing (index : Int), edge.kind ≠ .loopBack) :
    liveLoop? graph counters (index : Int) = none := by
  cases live : liveLoop? graph counters (index : Int) with
  | none => rfl
  | some loop =>
      rcases exists_of_liveLoop? live with ⟨edge, member, _, isBack, _⟩
      exact absurd isBack (onward edge member)

theorem next_of_links {index : Nat} {goal : Goal} {counters : Counters}
    (links : Links graph index goal) (live : goal.Live fun loop => counters.lookup loop) :
    (liveLoop? graph counters (index : Int)).or (firstForward? graph (index : Int)) =
      some (goal.place : Int) := by
  cases goal with
  | block place =>
      rw [liveLoop?_of_onward counters links.2, links.1]
      rfl
  | loop header close =>
      rcases links with ⟨_, ⟨edge, member, isBack⟩, back⟩
      have counted : edge ∈ (graph.outgoing (index : Int)).filter fun edge =>
          edge.kind = .loopBack ∧ (counters.lookup edge.target).isSome := by
        rw [List.mem_filter, decide_eq_true_eq, back edge member isBack]
        exact ⟨member, isBack, live⟩
      rcases exists_deepest? (List.ne_nil_of_mem counted) with ⟨deepest, found⟩
      have among := mem_of_deepest? found
      rw [List.mem_filter, decide_eq_true_eq] at among
      rw [liveLoop?, found, Option.map_some, back deepest among.1 among.2.1]
      rfl

theorem stands_after {state : State} {index place : Nat} {counters : Counters}
    (paused : state.phase = .paused) :
    Stands (state.after index [] counters (some (place : Int))) place
      fun loop => counters.lookup loop where
  current := rfl
  outside := State.after_stack _ _ _ _ _
  paused := by rw [State.after_some_phase, paused]
  counted loop := by rw [State.after_counters]

theorem passage_of_execute {state : State} {index place : Nat} {counters : Counters}
    {memory later : σ} {block : Block} {entry : Entry τ} {lookups : Int → Option Int}
    (found : graph.blocks[index]? = some block) (stands : Stands state index lookups)
    (executed : execute oracle options graph now state memory index block =
      .ok (state.after index state.stack counters (some (place : Int)), entry, later)) :
    ∃ next, Passage oracle options graph now (state, memory) [(index : Int)] (next, later) ∧
      Stands next place fun loop => counters.lookup loop := by
  rw [stands.outside] at executed
  have tick := tick_of_execute stands.paused stands.current found executed
  have standing : Stands (state.after index [] counters (some (place : Int))) place
      fun loop => counters.lookup loop := stands_after stands.paused
  exact ⟨_, ⟨Ticks.single tick standing.paused, State.after_path _ _ _ _ _⟩, standing⟩

theorem Stands.lookup_eq {state : State} {place : Nat} {counters : Int → Option Int}
    (stands : Stands state place counters) :
    (fun loop => state.counters.lookup loop) = counters :=
  funext stands.counted

/-! ## Blocks -/

variable {state : State} {index : Nat} {counters : Int → Option Int} {block : Block} {goal : Goal}
variable {knows : σ → Prop} {memory : σ}

theorem Passes.passage (passes : Passes graph index block goal)
    (stands : Stands state index counters) (live : goal.Live counters) (memory : σ) :
    ∃ next, Passage oracle options graph now (state, memory) [(index : Int)] (next, memory) ∧
      Stands next goal.place counters := by
  have executed := execute_plain oracle options graph now state memory index passes.goesOn
    ⟨passes.other.1, passes.other.2.1⟩ passes.asksNothing
    fun isSwitch => absurd isSwitch passes.other.2.2
  rw [next_of_links passes.links (stands.lookup_eq ▸ live)] at executed
  have passed := passage_of_execute passes.found stands executed
  rwa [stands.lookup_eq] at passed

theorem Asks.passage {yes no : Nat} (asks : Asks graph index block yes no)
    (decides : oracle.Decides knows) (remembers : knows memory)
    (stands : Stands state index counters) :
    ∃ verdict later next, oracle.decide memory index block = .ok (Oracle.ofBool verdict, later) ∧
      knows later ∧
      Passage oracle options graph now (state, memory) [(index : Int)] (next, later) ∧
      Stands next (if verdict then yes else no) counters := by
  rcases decides.decides memory remembers index block with ⟨verdict, later, answered, knowing⟩
  have chosen : (answeredEdge? graph index (Oracle.ofBool verdict)).map Edge.target =
      some (((if verdict then yes else no : Nat)) : Int) := by
    rw [answeredEdge?, asks.forks.forward]
    cases verdict <;> rfl
  have executed := execute_condition oracle options graph now state memory index asks.asks answered
  rw [liveLoop?_of_onward state.counters asks.forks.onward, Option.none_or, chosen] at executed
  rcases passage_of_execute asks.found stands executed with ⟨next, passage, standing⟩
  rw [stands.lookup_eq] at standing
  exact ⟨verdict, later, next, answered, knowing, passage, standing⟩

theorem getElem?_caseOf (first : Edge) (rest : List Edge) (choice : Int) :
    (first :: rest)[Part.caseOf (first :: rest).length choice]? =
      some (pick first rest choice) := by
  unfold pick Part.caseOf
  by_cases negative : choice < 0
  · rw [if_neg (by omega), if_pos negative]
    rfl
  · rw [if_neg negative]
    by_cases small : choice < (first :: rest).length
    · have bound : choice.toNat < (first :: rest).length := by omega
      rw [if_pos ⟨by omega, small⟩, List.getElem?_eq_getElem bound]
      rfl
    · have beyond : (first :: rest).length ≤ choice.toNat := by omega
      rw [if_neg (by omega), List.getElem?_eq_none beyond]
      rfl

theorem Selects.passage {places : List Nat} {labels : List String}
    (selects : Selects graph index places labels) (some : places ≠ [])
    (found : graph.blocks[index]? = .some block) (kind : block.kind = .switch)
    (decides : oracle.Decides knows) (remembers : knows memory)
    (stands : Stands state index counters) :
    ∃ choice later next place, oracle.selectCase memory index block labels = .ok (choice, later) ∧
      knows later ∧ places[Part.caseOf labels.length choice]? = .some place ∧
      Passage oracle options graph now (state, memory) [(index : Int)] (next, later) ∧
      Stands next place counters := by
  rcases decides.selects memory remembers index block labels with
    ⟨choice, later, selected, knowing⟩
  cases equal : (graph.outgoing (index : Int)).filter (fun edge => edge.kind = .case) with
  | nil =>
      have targets := selects.targets
      rw [equal] at targets
      exact absurd (List.map_eq_nil_iff.mp targets.symm) some
  | cons first rest =>
      have targets := selects.targets
      have labelled := selects.labelled
      rw [equal] at targets labelled
      have count : labels.length = (first :: rest).length := by
        rw [← labelled, List.length_map]
      have among := congrArg (Option.map Edge.target) (getElem?_caseOf first rest choice)
      rw [← List.getElem?_map, targets, List.getElem?_map, ← count, Option.map_some] at among
      rcases Option.map_eq_some_iff.mp among with ⟨place, isPlace, target⟩
      have executed := execute_switch oracle options graph now state memory index kind equal
        (labelled ▸ selected)
      rw [liveLoop?_of_onward state.counters selects.onward, Option.none_or, ← target] at executed
      rcases passage_of_execute found stands executed with ⟨next, passage, standing⟩
      rw [stands.lookup_eq] at standing
      exact ⟨choice, later, next, place, selected, knowing, isPlace, passage, standing⟩

/-! ## Loops -/

variable (oracle options graph now knows) in
def Runs (before : State × σ) (reading : Except NumeralError (List Int × σ)) (place : Nat)
    (counters : Int → Option Int) : Prop :=
  ∃ path later next, reading = .ok (path, later) ∧ knows later ∧
    Passage oracle options graph now before path (next, later) ∧ Stands next place counters

def counting (counters : Int → Option Int) (header : Nat) (count : Int) : Int → Option Int :=
  fun loop => if loop = (header : Int) then some count else counters loop

structure Loops (graph : Graph) (index size : Nat) (block : Block) : Prop where
  found : graph.blocks[index]? = some block
  kind : block.kind = .loop
  last : bodyEnd graph.blocks index = index + size
  enters : Links graph index (.block (index + 1))
  leaves : size ≠ 0 → Links graph (index + size) (.loop index (index + 1 + size))

theorem Loops.isLoop {size : Nat} (loops : Loops graph index size block) :
    IsLoop graph.blocks index :=
  isLoop_iff.mpr ⟨block, loops.found, loops.kind⟩

theorem Loops.again {size : Nat} (loops : Loops graph index size block) {done : Int}
    (more : done < options.iterations) (count : (counters (index : Int)).getD 0 = done)
    (stands : Stands state index counters) (memory : σ) :
    ∃ next, Passage oracle options graph now (state, memory) [(index : Int)] (next, memory) ∧
      Stands next (if size = 0 then index else index + 1) (counting counters index (done + 1)) := by
  have counted : state.counters.countOf index = done := by
    rw [Counters.countOf, stands.counted, count]
  have target : (if (loopExtent graph.blocks index).last.isSome then
      firstForward? graph (index : Int) else some (index : Int)) =
      some ((if size = 0 then index else index + 1 : Nat) : Int) := by
    rw [loopExtent_last loops.isLoop, loops.last, loops.enters.1]
    by_cases empty : size = 0
    · simp [empty]
    · simp [empty]
  have executed := execute_loop_again oracle options graph now state memory index loops.kind
    (counted ▸ more)
  rw [target, counted] at executed
  rcases passage_of_execute loops.found stands executed with ⟨next, passage, standing⟩
  refine ⟨next, passage, ?_⟩
  have lookups : (fun loop => (state.counters.put index (done + 1)).lookup loop) =
      counting counters index (done + 1) := by
    funext loop
    rw [Counters.lookup_put, stands.counted, counting]
  rwa [lookups] at standing

/-- A loop that was entered often enough is left for the block behind it, and neither it nor a loop
in its body is counted any more. -/
theorem Loops.enough {size : Nat} (loops : Loops graph index size block) {outer : Int → Option Int}
    {done : Int} (enough : options.iterations ≤ done)
    (count : (counters (index : Int)).getD 0 = done)
    (others : ∀ loop, loop ≠ (index : Int) → counters loop = outer loop)
    (fresh : Uncounted outer index (index + 1 + size))
    (stands : Stands state index counters) (memory : σ) :
    ∃ next, Passage oracle options graph now (state, memory) [(index : Int)] (next, memory) ∧
      Stands next (index + 1 + size) outer := by
  have counted : state.counters.countOf index = done := by
    rw [Counters.countOf, stands.counted, count]
  have close : (loopExtent graph.blocks index).close.getD graph.length = index + 1 + size := by
    rw [Graph.length, loopExtent_close_getD loops.isLoop, loops.last]
    omega
  have exit : exitOf graph index = index + size := by
    rw [exitOf, loopExtent_last_getD loops.isLoop, loops.last]
  have lookups : (fun loop => (countersLeft graph state.counters index).lookup loop) = outer := by
    funext loop
    rw [countersLeft, Counters.lookup_clear, close]
    split
    · rename_i inside
      exact (fresh loop inside.1 inside.2).symm
    · rename_i outside
      rw [stands.counted]
      exact others loop (by omega)
  have target : (liveLoop? graph (countersLeft graph state.counters index)
      (exitOf graph index : Nat)).or (firstForward? graph (exitOf graph index : Nat)) =
      some ((index + 1 + size : Nat) : Int) := by
    rw [exit]
    by_cases empty : size = 0
    · subst empty
      rw [Nat.add_zero, liveLoop?_of_onward _ loops.enters.2, Option.none_or, loops.enters.1]
    · rcases loops.leaves empty with ⟨first, _, back⟩
      have dead : liveLoop? graph (countersLeft graph state.counters index)
          ((index + size : Nat) : Int) = none := by
        cases live : liveLoop? graph (countersLeft graph state.counters index)
          ((index + size : Nat) : Int) with
        | none => rfl
        | some loop =>
            rcases exists_of_liveLoop? live with ⟨edge, member, same, isBack, isCounted⟩
            have isIndex : loop = (index : Int) := same.symm.trans (back edge member isBack)
            have gone := congrFun lookups loop
            rw [fresh loop (by omega) (by omega)] at gone
            rw [gone] at isCounted
            cases isCounted
      rw [dead, Option.none_or, first]
  have executed := execute_loop_enough oracle options graph now state memory index loops.kind
    (counted ▸ enough)
  rw [target] at executed
  rcases passage_of_execute loops.found stands executed with ⟨next, passage, standing⟩
  rw [lookups] at standing
  exact ⟨next, passage, standing⟩

/-- A walk takes the remaining rounds of a loop if it takes every round as the body reads. -/
theorem Loops.runs {size : Nat} (loops : Loops graph index size block) {outer : Int → Option Int}
    (fresh : Uncounted outer index (index + 1 + size))
    {body : σ → Except NumeralError (List Int × σ)}
    (round : ∀ {count : Int} {state : State} {memory : σ},
      Stands state (if size = 0 then index else index + 1) (counting outer index count) →
      knows memory →
      Runs oracle options graph now knows (state, memory) (body memory) index
        (counting outer index count))
    (rounds : Nat) :
    ∀ (done : Nat) {counters : Int → Option Int} {state : State} {memory : σ},
      done + rounds = options.iterations.toNat → (counters (index : Int)).getD 0 = (done : Int) →
      (∀ loop, loop ≠ (index : Int) → counters loop = outer loop) →
      Stands state index counters → knows memory →
      Runs oracle options graph now knows (state, memory)
        ((Part.replay index body rounds memory).map fun (path, later) =>
          (path ++ [(index : Int)], later))
        (index + 1 + size) outer := by
  induction rounds with
  | zero =>
      intro done counters state memory total count others stands remembers
      have left : ∃ next,
          Passage oracle options graph now (state, memory) [(index : Int)] (next, memory) ∧
            Stands next (index + 1 + size) outer :=
        loops.enough (by omega : options.iterations ≤ (done : Int)) count others fresh stands memory
      rcases left with ⟨next, passage, standing⟩
      exact ⟨_, memory, next, rfl, remembers, passage, standing⟩
  | succ rounds induction =>
      intro done counters state memory total count others stands remembers
      have entered : ∃ next,
          Passage oracle options graph now (state, memory) [(index : Int)] (next, memory) ∧
            Stands next (if size = 0 then index else index + 1)
              (counting counters index ((done : Int) + 1)) :=
        loops.again (by omega) count stands memory
      rcases entered with ⟨inside, first, insideStands⟩
      have same : counting counters index ((done : Int) + 1) =
          counting outer index ((done + 1 : Nat) : Int) := by
        funext loop
        simp only [counting]
        split
        · rfl
        · rename_i different
          exact others loop different
      rw [same] at insideStands
      rcases round insideStands remembers with
        ⟨path, later, header, reading, knowing, passage, standing⟩
      rcases induction (done + 1) (by omega) (by simp [counting]) (by
        intro loop different
        simp [counting, different]) standing knowing with
        ⟨rest, final, next, restReading, remembered, restPassage, restStands⟩
      refine ⟨(index : Int) :: path ++ rest, final, next, ?_, remembered, ?_, restStands⟩
      · cases replayed : Part.replay index body rounds later with
        | error fault =>
            rw [replayed] at restReading
            cases restReading
        | ok turns =>
            rw [replayed] at restReading
            cases restReading
            simp [Part.replay, reading, replayed, bind, Except.bind, pure, Except.pure, Except.map]
      · exact (first.cons passage).append restPassage

/-! ## Parts -/

theorem entry_place (rest : Part Block .statements) (index number : Nat) (goal : Goal) :
    (rest.entry index number goal).place = if rest.size = 0 then goal.place else index := by
  by_cases empty : rest.size = 0
  · cases Part.eq_done_of_size empty
    rfl
  · rw [Part.entry_of_size_pos empty, if_neg empty]
    rfl

theorem Goal.Live.entry (live : goal.Live counters) (rest : Part Block .statements)
    (index number : Nat) : (rest.entry index number goal).Live counters := by
  by_cases empty : rest.size = 0
  · cases Part.eq_done_of_size empty
    exact live
  · rw [Part.entry_of_size_pos empty]
    trivial

section

variable {role : Role}

variable (graph knows) in
structure Begins (part : Part Block role) (goal : Goal) (index number : Nat)
    (counters : Int → Option Int) (state : State) (memory : σ) : Prop where
  wired : part.Wired graph goal index
  live : goal.Live counters
  fresh : Uncounted counters index (index + part.size)
  stands : Stands state (part.entry index number goal).place counters
  remembers : knows memory

variable (oracle options graph now knows) in
def TakenAsRead (part : Part Block role) : Prop :=
  ∀ ⦃goal index number counters state memory⦄,
    Begins graph knows part goal index number counters state memory →
      Runs oracle options graph now knows (state, memory)
        (part.read oracle options.iterations.toNat index number memory) goal.place counters

end

section

variable {opener header closer line : Block} {body rest : Part Block .statements}
variable {arms : Part Block .arms} {cases : Part Block .cases}

theorem Passes.runs (passes : Passes graph index block (rest.entry (index + 1) 0 goal))
    (restTaken : TakenAsRead oracle options graph now knows rest)
    (wired : rest.Wired graph goal (index + 1)) (live : goal.Live counters)
    (fresh : Uncounted counters (index + 1) (index + 1 + rest.size))
    (stands : Stands state index counters) (remembers : knows memory) :
    ∃ path later next,
      rest.read oracle options.iterations.toNat (index + 1) 0 memory = .ok (path, later) ∧
      knows later ∧
      Passage oracle options graph now (state, memory) ((index : Int) :: path) (next, later) ∧
      Stands next goal.place counters := by
  have first : ∃ next, Passage oracle options graph now (state, memory) [(index : Int)]
      (next, memory) ∧ Stands next (rest.entry (index + 1) 0 goal).place counters :=
    passes.passage stands (live.entry rest _ _) memory
  rcases first with ⟨middle, passage, standing⟩
  rcases restTaken ⟨wired, live, fresh, standing, remembers⟩ with
    ⟨path, later, next, reading, knowing, restPassage, restStands⟩
  exact ⟨path, later, next, reading, knowing, passage.cons restPassage, restStands⟩

theorem Asks.runs {next : Nat}
    (asks : Asks graph index block (body.entry (index + 1) 0 goal).place
      (arms.entry next 0 goal).place)
    (bodyTaken : TakenAsRead oracle options graph now knows body)
    (armsTaken : TakenAsRead oracle options graph now knows arms)
    (bodyWired : body.Wired graph goal (index + 1)) (armsWired : arms.Wired graph goal next)
    (decides : oracle.Decides knows) (live : goal.Live counters)
    (bodyFresh : Uncounted counters (index + 1) (index + 1 + body.size))
    (armsFresh : Uncounted counters next (next + arms.size))
    (stands : Stands state index counters) (remembers : knows memory) :
    ∃ answer asked path later after,
      oracle.decide memory index block = .ok (answer, asked) ∧
      (if answer = Oracle.yes then body.read oracle options.iterations.toNat (index + 1) 0 asked
        else arms.read oracle options.iterations.toNat next 0 asked) = .ok (path, later) ∧
      knows later ∧
      Passage oracle options graph now (state, memory) ((index : Int) :: path) (after, later) ∧
      Stands after goal.place counters := by
  rcases asks.passage decides remembers stands with
    ⟨verdict, asked, first, answered, askedKnows, firstPassage, firstStands⟩
  have inside : Runs oracle options graph now knows (first, asked)
      (if Oracle.ofBool verdict = Oracle.yes then
        body.read oracle options.iterations.toNat (index + 1) 0 asked
      else arms.read oracle options.iterations.toNat next 0 asked) goal.place counters := by
    cases verdict with
    | true => exact bodyTaken ⟨bodyWired, live, bodyFresh, firstStands, askedKnows⟩
    | false => exact armsTaken ⟨armsWired, live, armsFresh, firstStands, askedKnows⟩
  rcases inside with ⟨path, later, after, reading, knowing, passage, standing⟩
  exact ⟨_, asked, path, later, after, answered, reading, knowing, firstPassage.cons passage,
    standing⟩

/-! ### One construct at a time -/

theorem takenAsRead_simple (restTaken : TakenAsRead oracle options graph now knows rest) :
    TakenAsRead oracle options graph now knows (.simple line rest) := by
  rintro goal index number counters state memory
    ⟨⟨passes, restWired⟩, live, fresh, stands, remembers⟩
  rw [Part.size] at fresh
  rcases passes.runs restTaken restWired live (fresh.inside (by omega) (by omega)) stands
    remembers with ⟨path, later, next, reading, knowing, passage, standing⟩
  refine ⟨_, later, next, ?_, knowing, passage, standing⟩
  rw [Part.read, reading]
  rfl

theorem takenAsRead_conditional (decides : oracle.Decides knows)
    (bodyTaken : TakenAsRead oracle options graph now knows body)
    (armsTaken : TakenAsRead oracle options graph now knows arms)
    (restTaken : TakenAsRead oracle options graph now knows rest) :
    TakenAsRead oracle options graph now knows (.conditional opener body arms closer rest) := by
  rintro goal index number counters state memory ⟨wired, live, fresh, stands, remembers⟩
  rw [Part.size] at fresh
  rcases wired with ⟨asks, bodyWired, armsWired, closes, restWired⟩
  rcases asks.runs bodyTaken armsTaken bodyWired armsWired decides trivial
    (fresh.inside (by omega) (by omega)) (fresh.inside (by omega) (by omega)) stands remembers with
    ⟨answer, asked, path, later, middle, answered, reading, knowing, passage, standing⟩
  rcases closes.runs restTaken restWired live (fresh.inside (by omega) (by omega)) standing
    knowing with ⟨restPath, final, next, restReading, restKnows, restPassage, restStands⟩
  refine ⟨_, final, next, ?_, restKnows, passage.append restPassage, restStands⟩
  simp only [Part.read, answered, reading, restReading, bind, Except.bind]
  rfl

theorem takenAsRead_loop (bodyTaken : TakenAsRead oracle options graph now knows body)
    (restTaken : TakenAsRead oracle options graph now knows rest) :
    TakenAsRead oracle options graph now knows (.loop opener body closer rest) := by
  rintro goal index number counters state memory ⟨wired, live, fresh, stands, remembers⟩
  rw [Part.size] at fresh
  rcases wired with ⟨found, kind, last, links, bodyWired, closes, restWired⟩
  have loops : Loops graph index body.size opener := by
    refine ⟨found, kind, last, links, fun some => ?_⟩
    have ends := bodyWired.last rfl some
    rwa [show index + 1 + body.size - 1 = index + body.size by omega] at ends
  have own : counters index = none := fresh index (by omega) (by omega)
  have turns : Runs oracle options graph now knows (state, memory)
      ((Part.replay index (body.read oracle options.iterations.toNat (index + 1) 0)
        options.iterations.toNat memory).map fun (path, later) => (path ++ [(index : Int)], later))
      (index + 1 + body.size) counters := by
    refine loops.runs (fresh.inside (Nat.le_refl index) (by omega)) ?_ _ 0 (Nat.zero_add _)
      (by rw [own]; rfl) (fun _ _ => rfl) stands remembers
    intro count inner later standing knowing
    refine bodyTaken ⟨bodyWired, by simp [Goal.Live, counting], fun loop above below => ?_, ?_,
      knowing⟩
    · rw [counting, if_neg (by omega)]
      exact fresh loop (by omega) (by omega)
    · rw [entry_place]
      exact standing
  rcases turns with ⟨path, later, second, reading, knowing, passage, standing⟩
  rcases closes.runs restTaken restWired live (fresh.inside (by omega) (by omega)) standing
    knowing with ⟨restPath, final, next, restReading, restKnows, restPassage, restStands⟩
  refine ⟨_, final, next, ?_, restKnows, passage.append restPassage, restStands⟩
  cases replayed : Part.replay (index : Int)
      (body.read oracle options.iterations.toNat (index + 1) 0)
      options.iterations.toNat memory with
  | error fault =>
      rw [replayed] at reading
      cases reading
  | ok result =>
      rw [replayed] at reading
      cases reading
      simp [Part.read, replayed, restReading, bind, Except.bind, pure, Except.pure]

theorem takenAsRead_switch (decides : oracle.Decides knows)
    (casesTaken : TakenAsRead oracle options graph now knows cases)
    (restTaken : TakenAsRead oracle options graph now knows rest) :
    TakenAsRead oracle options graph now knows (.switch opener cases closer rest) := by
  rintro goal index number counters state memory ⟨wired, live, fresh, stands, remembers⟩
  rw [Part.size] at fresh
  rcases wired with ⟨found, kind, selects, casesWired, closes, restWired⟩
  have some : cases.heads (index + 1) ≠ [] := by
    cases cases <;> simp [Part.heads]
  rcases selects.passage some found kind decides remembers stands with
    ⟨choice, asked, first, place, selected, askedKnows, isPlace, firstPassage, firstStands⟩
  have begins := Part.entry_of_getElem? rfl isPlace (.block (index + 1 + cases.size))
  have chosenStands : Stands first (cases.entry (index + 1)
      (Part.caseOf (cases.headers.map Block.content).length choice)
      (.block (index + 1 + cases.size))).place counters := by
    rw [begins]
    exact firstStands
  rcases casesTaken ⟨casesWired, trivial, fresh.inside (by omega) (by omega), chosenStands,
    askedKnows⟩ with ⟨path, later, second, reading, knowing, passage, standing⟩
  rcases closes.runs restTaken restWired live (fresh.inside (by omega) (by omega)) standing
    knowing with ⟨restPath, final, next, restReading, restKnows, restPassage, restStands⟩
  refine ⟨_, final, next, ?_, restKnows, (firstPassage.cons passage).append restPassage,
    restStands⟩
  simp only [Part.read, selected, reading, restReading, bind, Except.bind]
  rfl

theorem takenAsRead_elseIf (decides : oracle.Decides knows)
    (bodyTaken : TakenAsRead oracle options graph now knows body)
    (armsTaken : TakenAsRead oracle options graph now knows arms) :
    TakenAsRead oracle options graph now knows (.elseIf header body arms) := by
  rintro goal index number counters state memory ⟨wired, live, fresh, stands, remembers⟩
  rw [Part.size] at fresh
  rcases wired with ⟨asks, bodyWired, armsWired⟩
  rcases asks.runs bodyTaken armsTaken bodyWired armsWired decides live
    (fresh.inside (by omega) (by omega)) (fresh.inside (by omega) (by omega)) stands remembers with
    ⟨answer, asked, path, later, next, answered, reading, knowing, passage, standing⟩
  refine ⟨_, later, next, ?_, knowing, passage, standing⟩
  simp only [Part.read, answered, reading, bind, Except.bind]
  rfl

theorem takenAsRead_otherwise (bodyTaken : TakenAsRead oracle options graph now knows body) :
    TakenAsRead oracle options graph now knows (.otherwise header body) := by
  rintro goal index number counters state memory
    ⟨⟨passes, bodyWired⟩, live, fresh, stands, remembers⟩
  rw [Part.size] at fresh
  rcases passes.runs bodyTaken bodyWired live (fresh.inside (by omega) (by omega)) stands
    remembers with ⟨path, later, next, reading, knowing, passage, standing⟩
  refine ⟨_, later, next, ?_, knowing, passage, standing⟩
  rw [Part.read, reading]
  rfl

theorem takenAsRead_lastCase (bodyTaken : TakenAsRead oracle options graph now knows body) :
    TakenAsRead oracle options graph now knows (.lastCase header body) := by
  rintro goal index number counters state memory
    ⟨⟨passes, bodyWired⟩, live, fresh, stands, remembers⟩
  rw [Part.size] at fresh
  rcases passes.runs bodyTaken bodyWired live (fresh.inside (by omega) (by omega)) stands
    remembers with ⟨path, later, next, reading, knowing, passage, standing⟩
  refine ⟨_, later, next, ?_, knowing, passage, standing⟩
  rw [Part.read, reading]
  rfl

theorem takenAsRead_case (bodyTaken : TakenAsRead oracle options graph now knows body)
    (casesTaken : TakenAsRead oracle options graph now knows cases) :
    TakenAsRead oracle options graph now knows (.case header body cases) := by
  rintro goal index number counters state memory ⟨wired, live, fresh, stands, remembers⟩
  rw [Part.size] at fresh
  rcases wired with ⟨passes, bodyWired, casesWired⟩
  cases number with
  | zero =>
      rcases passes.runs bodyTaken bodyWired live (fresh.inside (by omega) (by omega)) stands
        remembers with ⟨path, later, next, reading, knowing, passage, standing⟩
      refine ⟨_, later, next, ?_, knowing, passage, standing⟩
      rw [Part.read, reading]
      rfl
  | succ number =>
      rw [Part.read_case_succ]
      exact casesTaken ⟨casesWired, live, fresh.inside (by omega) (by omega), stands, remembers⟩

end

theorem takenAsRead {role : Role} (part : Part Block role) (decides : oracle.Decides knows) :
    TakenAsRead oracle options graph now knows part := by
  induction part with
  | done =>
      rintro goal index number counters state memory ⟨_, _, _, stands, remembers⟩
      exact ⟨[], memory, state, rfl, remembers, .refl _, stands⟩
  | simple _ _ restTaken => exact takenAsRead_simple restTaken
  | conditional _ _ _ _ _ bodyTaken armsTaken restTaken =>
      exact takenAsRead_conditional decides bodyTaken armsTaken restTaken
  | loop _ _ _ _ bodyTaken restTaken => exact takenAsRead_loop bodyTaken restTaken
  | switch _ _ _ _ casesTaken restTaken =>
      exact takenAsRead_switch decides casesTaken restTaken
  | noArm =>
      rintro goal index number counters state memory ⟨_, _, _, stands, remembers⟩
      exact ⟨[], memory, state, rfl, remembers, .refl _, stands⟩
  | elseIf _ _ _ bodyTaken armsTaken => exact takenAsRead_elseIf decides bodyTaken armsTaken
  | otherwise _ _ bodyTaken => exact takenAsRead_otherwise bodyTaken
  | lastCase _ _ bodyTaken => exact takenAsRead_lastCase bodyTaken
  | case _ _ _ bodyTaken casesTaken => exact takenAsRead_case bodyTaken casesTaken

end

end Structured

end Flowchart
