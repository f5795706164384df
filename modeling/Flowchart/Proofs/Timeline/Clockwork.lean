import Flowchart.Proofs.Timeline.Live
import Mathlib.Algebra.Order.Monoid.Defs
import Mathlib.Order.Lattice

/-!
Clockworks: whatever has a timeline and does something when one of its timers runs.

What it does may be anything that leaves the clock alone. Moving the clock runs the timers that fall
due on the way, each with the clock at its time. It makes no difference where the clock stops on the
way: a stop puts the clock on to a time before the next timer, and that timer puts it where it would
have put it without the stop.
-/

namespace Flowchart

namespace Timeline

variable {τ α : Type} [LinearOrder τ] {timeline popped : Timeline τ α} {timer : Timer τ α}
variable {target : τ}

theorem later_eq_max (left right : τ) : later left right = max left right := by
  rw [later]
  split
  · rename_i less
    exact (max_eq_right less.le).symm
  · rename_i notLess
    exact (max_eq_left (not_lt.mp notLess)).symm

omit [LinearOrder τ] in
theorem next?_withClock (timeline : Timeline τ α) (clock : τ) :
    ({ timeline with clock } : Timeline τ α).next? =
      timeline.next?.map fun (timer, rest) => (timer, { rest with clock }) := by
  unfold next? cleaned
  dsimp only
  split <;> rfl

omit [LinearOrder τ] in
theorem cleaned_withClock (timeline : Timeline τ α) (clock : τ) :
    ({ timeline with clock } : Timeline τ α).cleaned = { timeline.cleaned with clock } := rfl

theorem popDue?_eq_some_iff : timeline.popDue? target = some (timer, popped) ↔
    timer.due ≤ target ∧ ∃ rest, timeline.next? = some (timer, rest) ∧
      popped = { rest with clock := max timeline.clock timer.due } := by
  rw [popDue?, pop?, Option.filter_eq_some_iff, decide_eq_true_iff, and_comm,
    Option.map_eq_some_iff, not_lt]
  refine and_congr_right fun _ => ?_
  constructor
  · rintro ⟨⟨_, rest⟩, taken, same⟩
    cases same
    exact ⟨rest, taken, by rw [later_eq_max, (exists_of_next? taken).1]⟩
  · rintro ⟨rest, taken, rfl⟩
    refine ⟨(timer, rest), taken, ?_⟩
    dsimp only
    rw [later_eq_max, (exists_of_next? taken).1]

theorem popDue?_eq_none_iff : timeline.popDue? target = none ↔
    ∀ timer rest, timeline.next? = some (timer, rest) → target < timer.due := by
  rw [popDue?, pop?]
  cases timeline.next? with
  | none => simp
  | some next =>
      obtain ⟨timer, rest⟩ := next
      simp [Option.filter_some]

theorem popDue?_cleaned (timeline : Timeline τ α) (target : τ) :
    timeline.cleaned.popDue? target = timeline.popDue? target := by
  rw [popDue?, popDue?, pop?, pop?, next?_cleaned]

theorem popDue?_of_le {later : τ} (le : target ≤ later)
    (taken : timeline.popDue? target = some (timer, popped)) :
    timeline.popDue? later = some (timer, popped) := by
  obtain ⟨isDue, rest⟩ := popDue?_eq_some_iff.mp taken
  exact popDue?_eq_some_iff.mpr ⟨isDue.trans le, rest⟩

theorem clock_le_of_popDue? (taken : timeline.popDue? target = some (timer, popped))
    (notPast : timeline.clock ≤ target) : popped.clock ≤ target := by
  obtain ⟨isDue, rest, _, rfl⟩ := popDue?_eq_some_iff.mp taken
  exact max_le notPast isDue

theorem popDue?_withClock {stop : τ} (notPast : timeline.clock ≤ stop)
    (noneDue : timeline.popDue? stop = none) (target : τ) :
    ({ timeline with clock := stop } : Timeline τ α).popDue? target =
      timeline.popDue? target := by
  apply Option.ext
  rintro ⟨timer, popped⟩
  rw [popDue?_eq_some_iff, popDue?_eq_some_iff, next?_withClock]
  refine and_congr_right fun _ => ?_
  constructor
  · rintro ⟨stopped, takenThere, rfl⟩
    obtain ⟨⟨_, rest⟩, taken, same⟩ := Option.map_eq_some_iff.mp takenThere
    cases same
    have later := popDue?_eq_none_iff.mp noneDue timer rest taken
    refine ⟨rest, taken, ?_⟩
    rw [max_eq_right later.le, max_eq_right (notPast.trans later.le)]
  · rintro ⟨rest, taken, rfl⟩
    have later := popDue?_eq_none_iff.mp noneDue timer rest taken
    refine ⟨_, Option.map_eq_some_iff.mpr ⟨(timer, rest), taken, rfl⟩, ?_⟩
    rw [max_eq_right later.le, max_eq_right (notPast.trans later.le)]

end Timeline

/-- Something of type `σ` with a timeline. A timer that runs does something to it, or fails; it may
set and cancel timers, but it leaves the clock alone. -/
structure Clockwork (σ τ α : Type) where
  timeline : σ → Timeline τ α
  withTimeline : σ → Timeline τ α → σ
  fire : α → σ → Option σ
  timeline_withTimeline (state : σ) (other : Timeline τ α) :
    timeline (withTimeline state other) = other
  withTimeline_withTimeline (state : σ) (other last : Timeline τ α) :
    withTimeline (withTimeline state other) last = withTimeline state last
  clock_of_fire {action : α} {state after : σ} (fired : fire action state = some after) :
    (timeline after).clock = (timeline state).clock

namespace Clockwork

structure Firing (σ τ α : Type) where
  timer : Timer τ α
  time : τ
  after : σ

variable {σ τ α : Type}

def withClock (works : Clockwork σ τ α) (state : σ) (clock : τ) : σ :=
  works.withTimeline state { works.timeline state with clock }

def tidied (works : Clockwork σ τ α) (state : σ) : σ :=
  works.withTimeline state (works.timeline state).cleaned

variable (works : Clockwork σ τ α)

@[simp] theorem timeline_withClock (state : σ) (clock : τ) :
    works.timeline (works.withClock state clock) = { works.timeline state with clock } :=
  works.timeline_withTimeline _ _

@[simp] theorem withClock_withClock (state : σ) (clock later : τ) :
    works.withClock (works.withClock state clock) later = works.withClock state later := by
  rw [withClock, timeline_withClock, withClock, works.withTimeline_withTimeline, withClock]

@[simp] theorem withTimeline_withClock (state : σ) (clock : τ) (other : Timeline τ α) :
    works.withTimeline (works.withClock state clock) other = works.withTimeline state other :=
  works.withTimeline_withTimeline _ _ _

@[simp] theorem timeline_tidied (state : σ) :
    works.timeline (works.tidied state) = (works.timeline state).cleaned :=
  works.timeline_withTimeline _ _

@[simp] theorem withTimeline_tidied (state : σ) (other : Timeline τ α) :
    works.withTimeline (works.tidied state) other = works.withTimeline state other :=
  works.withTimeline_withTimeline _ _ _

theorem tidied_withClock (state : σ) (clock : τ) :
    works.tidied (works.withClock state clock) = works.withClock (works.tidied state) clock := by
  rw [tidied, withTimeline_withClock, timeline_withClock, Timeline.cleaned_withClock, withClock,
    withTimeline_tidied, timeline_tidied]

theorem tidied_tidied (state : σ) : works.tidied (works.tidied state) = works.tidied state := by
  rw [tidied, timeline_tidied, Timeline.cleaned_cleaned, withTimeline_tidied, tidied]

theorem clock_of_fires {works : Clockwork σ τ α} {state after : σ} {action : α}
    {popped : Timeline τ α}
    (fired : works.fire action (works.withTimeline state popped) = some after) :
    (works.timeline after).clock = popped.clock := by
  rw [works.clock_of_fire fired, works.timeline_withTimeline]

variable [LinearOrder τ]

/-- Running all timers that are due by a time, and then putting the clock to that time, leads from
one state to another. -/
inductive Reaches (target : τ) : σ → List (Firing σ τ α) → σ → Prop
  | arrives {state : σ} (noneDue : (works.timeline state).popDue? target = none) :
      Reaches target state [] (works.withClock (works.tidied state) target)
  | fires {state after last : σ} {timer : Timer τ α} {popped : Timeline τ α}
      {ran : List (Firing σ τ α)}
      (taken : (works.timeline state).popDue? target = some (timer, popped))
      (fired : works.fire timer.action (works.withTimeline state popped) = some after)
      (others : Reaches target after ran last) :
      Reaches target state (⟨timer, popped.clock, after⟩ :: ran) last

variable {works} {state between last other : σ} {ran first second : List (Firing σ τ α)}
variable {stop target : τ}

namespace Reaches

theorem clock (reaches : works.Reaches target state ran last) :
    (works.timeline last).clock = target := by
  induction reaches with
  | arrives noneDue => rw [timeline_withClock, timeline_tidied]
  | fires taken fired others induction => exact induction

theorem unique (reaches : works.Reaches target state ran last) {again : List (Firing σ τ α)}
    (reachesToo : works.Reaches target state again other) : ran = again ∧ last = other := by
  induction reaches generalizing again with
  | arrives noneDue =>
      cases reachesToo with
      | arrives => exact ⟨rfl, rfl⟩
      | fires taken => cases noneDue.symm.trans taken
  | fires taken fired others induction =>
      cases reachesToo with
      | arrives noneDue => cases noneDue.symm.trans taken
      | fires takenToo firedToo othersToo =>
          cases taken.symm.trans takenToo
          cases fired.symm.trans firedToo
          obtain ⟨rfl, rfl⟩ := induction othersToo
          exact ⟨rfl, rfl⟩

/-- From a stop before the next timer the clockwork goes on as it would have without the stop. -/
theorem withClock_iff (noneDue : (works.timeline state).popDue? stop = none)
    (notPast : (works.timeline state).clock ≤ stop) :
    works.Reaches target (works.withClock (works.tidied state) stop) ran last ↔
      works.Reaches target state ran last := by
  have same : (works.timeline (works.withClock (works.tidied state) stop)).popDue? target =
      (works.timeline state).popDue? target := by
    have noneDueThen : (works.timeline state).cleaned.popDue? stop = none :=
      (Timeline.popDue?_cleaned _ _).trans noneDue
    rw [timeline_withClock, timeline_tidied, ← Timeline.popDue?_cleaned (works.timeline state)]
    refine Timeline.popDue?_withClock ?_ noneDueThen target
    exact notPast
  have arrived : works.withClock (works.tidied (works.withClock (works.tidied state) stop)) target =
      works.withClock (works.tidied state) target := by
    rw [tidied_withClock, tidied_tidied, withClock_withClock]
  constructor
  · intro reaches
    generalize stopped : works.withClock (works.tidied state) stop = start at reaches same
    cases reaches with
    | arrives noneDue =>
        subst stopped
        rw [arrived]
        exact .arrives (same ▸ noneDue)
    | fires taken fired others =>
        subst stopped
        rw [withTimeline_withClock, withTimeline_tidied] at fired
        exact .fires (same ▸ taken) fired others
  · intro reaches
    cases reaches with
    | arrives noneDue =>
        rw [← arrived]
        exact .arrives (same.trans noneDue)
    | fires taken fired others =>
        refine .fires (same.trans taken) ?_ others
        rwa [withTimeline_withClock, withTimeline_tidied]

theorem split (reaches : works.Reaches target state ran last)
    (notPast : (works.timeline state).clock ≤ stop) (onTheWay : stop ≤ target) :
    ∃ first second between, ran = first ++ second ∧ works.Reaches stop state first between ∧
      works.Reaches target between second last := by
  induction reaches with
  | @arrives state noneDue =>
      have noneDueYet : (works.timeline state).popDue? stop = none :=
        Timeline.popDue?_eq_none_iff.mpr fun timer rest taken =>
          onTheWay.trans_lt (Timeline.popDue?_eq_none_iff.mp noneDue timer rest taken)
      exact ⟨[], [], _, rfl, .arrives noneDueYet,
        (withClock_iff noneDueYet notPast).mpr (.arrives noneDue)⟩
  | @fires state after last timer popped ran taken fired others induction =>
      cases takenYet : (works.timeline state).popDue? stop with
      | none =>
          exact ⟨[], _, _, rfl, .arrives takenYet,
            (withClock_iff takenYet notPast).mpr (.fires taken fired others)⟩
      | some next =>
          -- What is due by the stop is the timer that runs next anyway.
          cases taken.symm.trans (Timeline.popDue?_of_le onTheWay takenYet)
          have notPastThen : (works.timeline after).clock ≤ stop := by
            rw [clock_of_fires fired]
            exact Timeline.clock_le_of_popDue? takenYet notPast
          obtain ⟨first, second, between, rfl, reachesStop, reachesEnd⟩ := induction notPastThen
          exact ⟨_ :: first, second, between, rfl, .fires takenYet fired reachesStop, reachesEnd⟩

theorem append (reaches : works.Reaches stop state first between)
    (goesOn : works.Reaches target between second last)
    (notPast : (works.timeline state).clock ≤ stop) (onTheWay : stop ≤ target) :
    works.Reaches target state (first ++ second) last := by
  induction reaches with
  | arrives noneDue => exact (withClock_iff noneDue notPast).mp goesOn
  | @fires state after _ timer popped first taken fired others induction =>
      have notPastThen : (works.timeline after).clock ≤ stop := by
        rw [clock_of_fires fired]
        exact Timeline.clock_le_of_popDue? taken notPast
      exact .fires (Timeline.popDue?_of_le onTheWay taken) fired (induction goesOn notPastThen)

end Reaches

/-! ## Moves of the clock -/

variable [AddCommMonoid τ] {duration more : τ}

def Advances (works : Clockwork σ τ α) (duration : τ) (state : σ) (ran : List (Firing σ τ α))
    (last : σ) : Prop :=
  works.Reaches ((works.timeline state).clock + duration) state ran last

theorem advances_add_iff [IsOrderedAddMonoid τ] (nonneg : 0 ≤ duration) (nonnegMore : 0 ≤ more) :
    works.Advances (duration + more) state ran last ↔
      ∃ first second between, ran = first ++ second ∧ works.Advances duration state first between ∧
        works.Advances more between second last := by
  have notPast : (works.timeline state).clock ≤ (works.timeline state).clock + duration :=
    le_add_of_nonneg_right nonneg
  have onTheWay : (works.timeline state).clock + duration ≤
      (works.timeline state).clock + duration + more := le_add_of_nonneg_right nonnegMore
  unfold Advances
  rw [← add_assoc]
  constructor
  · intro reaches
    obtain ⟨first, second, between, same, reachesStop, goesOn⟩ := reaches.split notPast onTheWay
    exact ⟨first, second, between, same, reachesStop, by rwa [reachesStop.clock]⟩
  · rintro ⟨first, second, between, rfl, reachesStop, goesOn⟩
    rw [reachesStop.clock] at goesOn
    exact reachesStop.append goesOn notPast onTheWay

end Clockwork

end Flowchart
