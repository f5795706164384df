import Flowchart.Proofs.Player.Kept

/-!
How a walk is driven does not change what it does.

Timers, pauses, steps by hand and speeds decide when a step is taken, and nothing else. What is seen
of a player, with times and speeds and the difference between running and paused left out, is what
is seen of one that has taken as many steps by hand.
-/

namespace Flowchart.Player

open Walk Std.Do

set_option mvcgen.warning false

variable {τ σ χ : Type}

/-- What is seen of a player: the state at rest, the log without times, and what the oracle
remembers. -/
def seen (player : Player τ σ χ) : State × List (Entry Unit) × σ :=
  (player.state.still, player.log.map Entry.untimed, player.memory)

variable {stage : Stage τ σ χ} {player : Player τ σ χ} {state : State} {entries : List (Entry τ)}
variable {memory : σ}

/-! ## Events -/

theorem tickOn_seen (stage : Stage τ σ χ) (player : Player τ σ χ) :
    tickOn stage.oracle stage.options stage.graph player.seen () =
      (transition stage.oracle stage.options stage.graph player.timeline.clock player.state
        player.memory .tick).map
        fun (next, entries, later) =>
          (next.still, (player.log ++ entries).map Entry.untimed, later) := by
  rw [seen, tickOn_still _ _ _ player.timeline.clock, tickOn]
  cases transition stage.oracle stage.options stage.graph player.timeline.clock player.state
    player.memory .tick <;> rfl

def startOn (graph : Graph) (place : State × List (Entry Unit) × σ) :
    Except Walk.Fault (State × List (Entry Unit) × σ) :=
  (begin graph () (.initial 0) true).map fun (next, entries) => (next, entries, place.2.2)

theorem startOn_still (stage : Stage τ σ χ) (now : τ) (log : List (Entry τ)) (paused : Bool)
    (stopped : state.phase ≠ .running) :
    startOn stage.graph (state.still, log.map Entry.untimed, memory) =
      (transition stage.oracle stage.options stage.graph now state memory (.start paused)).map
        fun (next, entries, later) => (next.still, entries.map Entry.untimed, later) := by
  rw [startOn, begin_still stage.graph now state paused, transition, if_neg stopped]
  cases begin stage.graph now state paused <;> rfl

theorem still_eq_of_adjusts {event : Event} (adjusts : event.Adjusts) {now : τ} {next : State}
    {later : σ} (moved : transition stage.oracle stage.options stage.graph now state memory event =
      .ok (next, entries, later)) :
    next.still = state.still ∧ entries = [] ∧ later = memory := by
  cases adjusts with
  | pause =>
      cases moved
      refine ⟨?_, rfl, rfl⟩
      split
      · rename_i running
        simp [State.still, running]
      · rfl
  | resume =>
      cases moved
      refine ⟨?_, rfl, rfl⟩
      split
      · rename_i paused
        simp [State.still, paused]
      · rfl
  | setSpeed value =>
      cases moved
      exact ⟨rfl, rfl, rfl⟩

structure Lasting (stage : Stage τ σ χ) (holds : State × List (Entry Unit) × σ → Prop) :
    Prop where
  tick : ∀ place next, holds place →
    tickOn stage.oracle stage.options stage.graph place () = .ok next → holds next
  start : ∀ place next, holds place → place.1.phase = .notStarted →
    startOn stage.graph place = .ok next → holds next
  unlogged : ∀ place, holds place → place.1.phase = .notStarted → place.2.1 = []

section

variable (quiet : stage.Quiet) {holds : State × List (Entry Unit) × σ → Prop}
variable (lasting : Lasting stage holds)

theorem notStarted_still : state.still.phase = .notStarted ↔ state.phase = .notStarted :=
  State.still_phase_eq_iff state (by simp)

include lasting in
theorem Lasting.kept : Kept stage (· = .notStarted) fun state log memory =>
    holds (state.still, log.map Entry.untimed, memory) where
  fresh := rfl
  tick now state log memory next entries later holding ticked := by
    refine lasting.tick _ _ holding ?_
    rw [tickOn_still _ _ _ now, tickOn, ticked]
    rfl
  adjust event adjusts now state log memory next entries later holding moved := by
    rcases still_eq_of_adjusts adjusts moved with ⟨same, rfl, rfl⟩
    rwa [same, List.append_nil]
  start paused now state log memory next entries later holding fresh begun := by
    refine lasting.start _ _ holding (notStarted_still.mpr fresh) ?_
    rw [startOn_still stage now log paused (by simp [fresh]), begun]
    rfl
  unstarted state log memory holding fresh _ := by
    have unlogged : log.map Entry.untimed = [] :=
      lasting.unlogged _ holding (notStarted_still.mpr fresh)
    rwa [unlogged] at holding

variable {place next : State × List (Entry Unit) × σ}

include quiet in
theorem dispatch_tick_seen
    (ticked : tickOn stage.oracle stage.options stage.graph place () = .ok next) :
    ⦃fun player : Player τ σ χ => ⌜player.seen = place⌝⦄
    dispatch stage .tick
    ⦃post⟨fun _ player => ⌜player.seen = next⌝, fun _ _ => ⌜False⌝⟩⦄ := by
  refine dispatch_spec quiet ?_ ?_
  · rintro player state entries memory audience rfl moved
    rw [tickOn_seen, moved] at ticked
    exact Except.ok.inj ticked
  · rintro player fault rfl failed
    rw [tickOn_seen, failed] at ticked
    cases ticked

include quiet in
theorem dispatch_start_seen (started : startOn stage.graph place = .ok next) :
    ⦃fun player : Player τ σ χ =>
      ⌜player.seen = place ∧ player.log = [] ∧ player.state.phase = .notStarted⌝⦄
    dispatch stage (.start true)
    ⦃post⟨fun _ player => ⌜player.seen = next⌝, fun _ _ => ⌜False⌝⟩⦄ := by
  refine dispatch_spec quiet ?_ ?_
  · rintro player state entries memory audience ⟨rfl, unlogged, fresh⟩ moved
    rw [seen, startOn_still stage player.timeline.clock player.log true (by simp [fresh]), moved]
      at started
    rw [seen, unlogged]
    exact Except.ok.inj started
  · rintro player fault ⟨rfl, unlogged, fresh⟩ failed
    rw [seen, startOn_still stage player.timeline.clock player.log true (by simp [fresh]), failed]
      at started
    cases started

variable [Zero τ] [ClockTime τ] [LE τ] [DecidableLE τ] [LT τ] [DecidableLT τ] [IntCast τ]

/-! ## Steps by hand -/

include quiet in
theorem step_seen_of_tick (underWay : ¬place.1.Idle)
    (ticked : tickOn stage.oracle stage.options stage.graph place () = .ok next) :
    ⦃fun player : Player τ σ χ => ⌜player.seen = place⌝⦄
    step stage
    ⦃leaves fun player => player.seen = next⦄ := by
  have ticks := dispatch_tick_seen (τ := τ) quiet ticked
  have schedules : ⦃fun player : Player τ σ χ => ⌜player.seen = next⌝⦄ schedule
      ⦃leaves fun player => player.seen = next⦄ :=
    schedule_kept χ fun state log memory => (state.still, log.map Entry.untimed, memory) = next
  have goesOn {player : Player τ σ χ} (isPlace : player.seen = place) : ¬player.state.Idle := by
    rwa [← isPlace, seen, State.idle_still_iff] at underWay
  refine step_rule ?_ (fun _ isPlace completed => absurd (.inr completed) (goesOn isPlace)) ?_
  · rintro player ⟨isPlace, fresh⟩
    exact absurd (.inl fresh) (goesOn isPlace)
  · mvcgen [ticks, schedules]
    rename_i given
    exact given.1

include quiet in
theorem step_seen_of_start (fresh : place.1.phase = .notStarted) (unlogged : place.2.1 = [])
    (started : startOn stage.graph place = .ok next) :
    ⦃fun player : Player τ σ χ => ⌜player.seen = place⌝⦄
    step stage
    ⦃leaves fun player => player.seen = next⦄ := by
  have starts := dispatch_start_seen quiet started
  have begins {player : Player τ σ χ} (isPlace : player.seen = place) :
      player.state.phase = .notStarted := by
    rwa [← isPlace, seen, notStarted_still] at fresh
  refine step_rule ?_ (fun _ isPlace completed => ?_) ?_
  · mvcgen [starts]
    case pre given =>
      rw [← given.1, seen] at unlogged
      rw [← List.map_eq_nil_iff.mp unlogged]
      exact ⟨given.1, trivial, given.2⟩
    case success => exact id
  · cases (begins isPlace).symm.trans completed
  · rintro player ⟨isPlace, underWay⟩
    exact absurd (.inl (begins isPlace)) underWay

variable {limit : Nat} {origin : Player τ σ χ} {count : Nat}

def stepped (stage : Stage τ σ χ) (limit : Nat) (origin : Player τ σ χ) (count : Nat) :
    Player τ σ χ :=
  drive stage limit (List.replicate count .step) origin

theorem stepped_succ {before after : Player τ σ χ → Prop}
    (taken : ⦃fun player => ⌜before player⌝⦄ step stage ⦃leaves after⦄)
    (holds : before (stepped stage limit origin count)) :
    after (stepped stage limit origin (count + 1)) := by
  have performed :
      ⦃fun player => ⌜before player⌝⦄ perform stage limit .step ⦃leaves after⦄ := by
    mvcgen [perform, taken]
  rw [stepped, drive, List.replicate_succ', List.foldl_append]
  exact run_of_triple performed holds

structure Stepped (stage : Stage τ σ χ) (limit : Nat) (origin : Player τ σ χ)
    (place : State × List (Entry Unit) × σ) : Prop where
  grounded : Grounded stage.graph place.1
  same : (stepped stage limit origin place.1.path.length).seen = place

theorem Stepped.eq_origin (is : Stepped stage limit origin place)
    (fresh : place.1.phase = .notStarted) : place = origin.seen := by
  have same := is.same
  rw [is.grounded.fresh fresh] at same
  exact same.symm

include quiet in
/-- Each event that is seen is the next step by hand. -/
theorem lasting_stepped (closed : Closed stage.graph) (unlogged : origin.log = []) :
    Lasting stage (Stepped stage limit origin) where
  unlogged place is fresh := by
    rw [is.eq_origin fresh, seen, unlogged]
    rfl
  tick place next is ticked := by
    cases moved : transition stage.oracle stage.options stage.graph () place.1 place.2.2 .tick with
    | error fault =>
        rw [tickOn, moved] at ticked
        cases ticked
    | ok result =>
        have leads := ticked
        rw [tickOn, moved] at leads
        cases leads
        -- A tick that visits no block shows nothing; any other lengthens the path by one, and so
        -- counts one more step by hand.
        rcases is.grounded.tick closed moved with
          ⟨grounded, ⟨_, same, nothing, later⟩ | ⟨underWay, longer⟩⟩
        · dsimp only
          rw [same, nothing, later, List.append_nil]
          exact is
        · refine ⟨grounded, ?_⟩
          dsimp only
          rw [longer]
          exact stepped_succ (step_seen_of_tick quiet underWay ticked) is.same
  start place next is fresh started := by
    cases begun : begin stage.graph () (.initial 0) true with
    | error fault =>
        rw [startOn, begun] at started
        cases started
    | ok result =>
        have leads := started
        rw [startOn, begun] at leads
        cases leads
        rcases Grounded.begin closed begun with ⟨grounded, single⟩
        refine ⟨grounded, ?_⟩
        dsimp only
        rw [single]
        have empty : place.2.1 = [] := by
          rw [is.eq_origin fresh, seen, unlogged]
          rfl
        refine stepped_succ (step_seen_of_start quiet fresh empty started) ?_
        exact (is.eq_origin fresh).symm

/-! ## Walks that are driven -/

include quiet lasting in
theorem drive_cons_lasting {first : Control τ} {rest : List (Control τ)}
    (begins : first = .start ∨ first = .step)
    (goesOn : ∀ control ∈ rest, control.goesOn = true) (holding : holds player.seen)
    (fresh : player.state.phase = .notStarted) :
    holds (drive stage limit (first :: rest) player).seen := by
  have kept := lasting.kept
  have begun : ((perform stage limit first).run player).2.Has fun state log memory =>
      holds (state.still, log.map Entry.untimed, memory) := by
    rcases begins with rfl | rfl
    · exact run_of_triple (perform_start_kept quiet kept limit) ⟨holding, fun _ => fresh⟩
    · exact run_of_triple (perform_kept_of_goesOn quiet kept limit .step rfl) holding
  exact drive_kept_of_goesOn quiet kept limit goesOn begun

end

variable [Zero τ] [ClockTime τ] [LE τ] [DecidableLE τ] [LT τ] [DecidableLT τ] [IntCast τ]

/-- However a walk is driven once it is begun, it comes to what as many steps by hand as it has
visited blocks come to. -/
theorem drive_eq_steps (stage : Stage τ σ χ) (quiet : stage.Quiet) (blocks : List Block)
    (functionName : Option String) (isGraph : stage.graph = Graph.ofBlocks blocks functionName)
    (memory : σ) (audience : χ) (limit : Nat) (first : Control τ) (rest : List (Control τ))
    (begins : first = .start ∨ first = .step)
    (goesOn : ∀ control ∈ rest, control.goesOn = true) :
    let origin : Player τ σ χ := initial stage.options memory audience
    let driven := drive stage limit (first :: rest) origin
    let byHand := drive stage limit
      (List.replicate driven.state.path.length .step) origin
    driven.state.current = byHand.state.current ∧
      driven.state.visited = byHand.state.visited ∧
      driven.state.path = byHand.state.path ∧
      driven.state.stack = byHand.state.stack ∧
      driven.state.counters = byHand.state.counters ∧
      (driven.state.phase = .completed ↔ byHand.state.phase = .completed) ∧
      driven.log.map Entry.untimed = byHand.log.map Entry.untimed ∧
      driven.memory = byHand.memory := by
  intro origin driven byHand
  have closed : Closed stage.graph := isGraph ▸ closed_ofBlocks blocks functionName
  have is : Stepped stage limit origin driven.seen :=
    drive_cons_lasting quiet (lasting_stepped quiet closed rfl) begins goesOn
      ⟨grounded_initial _ _, rfl⟩ rfl
  have same : byHand.seen = driven.seen := is.same
  rcases State.agree_of_still (congrArg Prod.fst same.symm) with
    ⟨current, visited, path, stack, counters, completed⟩
  exact ⟨current, visited, path, stack, counters, completed, congrArg (·.2.1) same.symm,
    congrArg (·.2.2) same.symm⟩

def interplay : List (Control Number) :=
  [.setSpeed (.int 200), .advance (.int 1100), .pause, .step, .resume, .runNext]

theorem drive_eq_steps_interplay :
    let stage : Stage Number Oracle.Adviser Unit :=
      .silent (Graph.ofBlocks Graph.nestedLoops) {} Oracle.advising
    let driven := drive stage 10 (.start :: interplay)
      (initial stage.options (.fixed Oracle.yes 0) ())
    let byHand := drive stage 10 (List.replicate 7 .step)
      (initial stage.options (.fixed Oracle.yes 0) ())
    (∀ control ∈ interplay, control.goesOn = true) ∧ driven.state.phase = .running ∧
      driven.state.path = [0, 1, 2, 3, 2, 3, 2] ∧ byHand.state.path = driven.state.path ∧
      driven.log.map Entry.untimed = byHand.log.map Entry.untimed := by
  intro stage driven byHand
  have goesOn : ∀ control ∈ interplay, control.goesOn = true := by decide
  have path : driven.state.path = [0, 1, 2, 3, 2, 3, 2] := by decide +kernel
  have running : driven.state.phase = .running := by decide +kernel
  have agree (driven byHand : Player Number Oracle.Adviser Unit)
      (isDriven : drive stage 10 (.start :: interplay)
        (initial stage.options (.fixed Oracle.yes 0) ()) = driven)
      (isByHand : drive stage 10 (List.replicate driven.state.path.length .step)
        (initial stage.options (.fixed Oracle.yes 0) ()) = byHand) :
      byHand.state.path = driven.state.path ∧
        driven.log.map Entry.untimed = byHand.log.map Entry.untimed := by
    subst isDriven isByHand
    rcases drive_eq_steps stage (Stage.quiet_silent _ _ _) Graph.nestedLoops none rfl
      (.fixed Oracle.yes 0) () 10 .start interplay (.inl rfl) goesOn with
      ⟨_, _, samePath, _, _, _, log, _⟩
    exact ⟨samePath.symm, log⟩
  refine ⟨goesOn, running, path, agree driven byHand rfl ?_⟩
  rw [path]
  rfl

end Flowchart.Player
