import Flowchart.Proofs.Timeline.Live
import Mathlib

/-!
Timers as a map from numbers to due times and actions.

Setting a timer adds an entry under a new number, cancelling deletes one, and the next timer is the
least by due time and, among those due at once, by number. A timeline stands for such a map: that
of its live timers.
-/

namespace Flowchart

structure TimerSet (τ α : Type) where
  clock : τ
  nextId : Nat
  timers : Nat → Option (τ × α)

/-- Whether a timer comes before another: it is due earlier, or was set earlier for the same
time. -/
def Timer.Before {τ α : Type} [LT τ] (first second : Timer τ α) : Prop :=
  first.due < second.due ∨ first.due = second.due ∧ first.id < second.id

namespace TimerSet

variable {τ α : Type}

def startingAt (clock : τ) : TimerSet τ α := ⟨clock, 0, fun _ => none⟩

def setAt (set : TimerSet τ α) (due : τ) (action : α) : Nat × TimerSet τ α :=
  (set.nextId,
    { set with
      nextId := set.nextId + 1
      timers := Function.update set.timers set.nextId (some (due, action)) })

def remove (set : TimerSet τ α) (id : Nat) : TimerSet τ α :=
  { set with timers := Function.update set.timers id none }

theorem timers_setAt (set : TimerSet τ α) (due : τ) (action : α) (id : Nat) :
    (set.setAt due action).2.timers id =
      if id = set.nextId then some (due, action) else set.timers id :=
  Function.update_apply _ _ _ _

theorem timers_remove (set : TimerSet τ α) (id other : Nat) :
    (set.remove id).timers other = if other = id then none else set.timers other :=
  Function.update_apply _ _ _ _

theorem of_timers_remove {set : TimerSet τ α} {id other : Nat} {entry : τ × α}
    (found : (set.remove id).timers other = some entry) :
    other ≠ id ∧ set.timers other = some entry := by
  rw [timers_remove] at found
  split at found
  · cases found
  · rename_i different
    exact ⟨different, found⟩

def pending (set : TimerSet τ α) : Nat :=
  (List.range set.nextId).countP fun id => (set.timers id).isSome

theorem pending_eq_length {set : TimerSet τ α} {timers : List (Timer τ α)}
    (distinct : (timers.map Timer.id).Nodup) (numbered : ∀ timer ∈ timers, timer.id < set.nextId)
    (same : ∀ id due action, set.timers id = some (due, action) ↔ ⟨due, id, action⟩ ∈ timers) :
    set.pending = timers.length := by
  have perm : ((List.range set.nextId).filter fun id => (set.timers id).isSome).Perm
      (timers.map Timer.id) := by
    refine (List.perm_ext_iff_of_nodup (List.nodup_range.filter _) distinct).mpr fun id => ?_
    rw [List.mem_filter, List.mem_range, List.mem_map]
    constructor
    · rintro ⟨_, isSome⟩
      rcases Option.isSome_iff_exists.mp isSome with ⟨⟨due, action⟩, found⟩
      exact ⟨_, (same id due action).mp found, rfl⟩
    · rintro ⟨timer, member, rfl⟩
      have found := (same _ _ _).mpr member
      exact ⟨numbered timer member, by rw [found, Option.isSome_some]⟩
  rw [pending, List.countP_eq_length_filter, ← List.length_map Timer.id]
  exact perm.length_eq

structure IsNext [LT τ] (set : TimerSet τ α) (timer : Timer τ α) : Prop where
  here : set.timers timer.id = some (timer.due, timer.action)
  least : ∀ other : Timer τ α, set.timers other.id = some (other.due, other.action) →
    other.id ≠ timer.id → timer.Before other

theorem IsNext.due_le [LinearOrder τ] {set : TimerSet τ α} {timer : Timer τ α}
    (next : set.IsNext timer) {id : Nat} {due : τ} {action : α}
    (found : set.timers id = some (due, action)) : timer.due ≤ due := by
  by_cases same : id = timer.id
  · cases next.here.symm.trans (same ▸ found)
    exact le_rfl
  · rcases next.least ⟨due, id, action⟩ found same with earlier | ⟨equal, _⟩
    · exact le_of_lt earlier
    · exact le_of_eq equal

end TimerSet

namespace Timeline

variable {τ α : Type} {timeline : Timeline τ α}

/-! ## The set of live timers -/

theorem WellFormed.live_distinct (wellFormed : timeline.WellFormed) :
    (timeline.live.map Timer.id).Nodup :=
  wellFormed.distinct.sublist (List.filter_sublist.map Timer.id)

theorem WellFormed.live_lt (wellFormed : timeline.WellFormed) {timer : Timer τ α}
    (member : timer ∈ timeline.live) : timer.id < timeline.nextId :=
  wellFormed.queued_lt timer (List.mem_filter.mp member).1

def timerSet (timeline : Timeline τ α) : TimerSet τ α where
  clock := timeline.clock
  nextId := timeline.nextId
  timers id := (timeline.live.find? fun timer => timer.id = id).map fun timer =>
    (timer.due, timer.action)

theorem timers_eq_some_iff (wellFormed : timeline.WellFormed) {id : Nat} {due : τ} {action : α} :
    timeline.timerSet.timers id = some (due, action) ↔ ⟨due, id, action⟩ ∈ timeline.live := by
  rw [timerSet, Option.map_eq_some_iff]
  constructor
  · rintro ⟨timer, found, same⟩
    cases same
    have isId : timer.id = id := by simpa using List.find?_some found
    subst isId
    exact List.mem_of_find?_eq_some found
  · intro member
    cases found : timeline.live.find? fun timer => timer.id = id with
    | none => simpa using List.find?_eq_none.mp found _ member
    | some timer =>
        have isId : timer.id = id := by simpa using List.find?_some found
        have same := List.inj_on_of_nodup_map wellFormed.live_distinct
          (List.mem_of_find?_eq_some found) member isId
        exact ⟨timer, rfl, by rw [same]⟩

theorem timers_ext {left right : TimerSet τ α}
    (same : ∀ id due action, left.timers id = some (due, action) ↔
      right.timers id = some (due, action)) : left.timers = right.timers :=
  funext fun id => Option.ext fun entry => same id entry.1 entry.2

theorem pending_timerSet (wellFormed : timeline.WellFormed) :
    timeline.timerSet.pending = timeline.pending := by
  rw [wellFormed.pending_eq]
  exact TimerSet.pending_eq_length wellFormed.live_distinct
    (fun _ member => wellFormed.live_lt member) fun _ _ _ => timers_eq_some_iff wellFormed

theorem timerSet_cancel (wellFormed : timeline.WellFormed) (id : Nat) :
    (timeline.cancel id).timerSet = timeline.timerSet.remove id := by
  have kept : (timeline.cancel id).clock = timeline.clock ∧
      (timeline.cancel id).nextId = timeline.nextId := by
    unfold Timeline.cancel
    split <;> exact ⟨rfl, rfl⟩
  have timers : (timeline.cancel id).timerSet.timers = (timeline.timerSet.remove id).timers := by
    refine timers_ext fun other due action => ?_
    rw [timers_eq_some_iff (wellFormed.cancel id), live_cancel wellFormed, List.mem_filter,
      ← timers_eq_some_iff wellFormed, TimerSet.timers_remove]
    by_cases same : other = id <;> simp [same]
  rw [TimerSet.remove, TimerSet.mk.injEq]
  exact ⟨kept.1, kept.2, timers⟩

/-! ## Timers in order -/

variable [LinearOrder τ]

structure Ordered (timeline : Timeline τ α) : Prop extends timeline.WellFormed where
  sorted : timeline.queue.Pairwise Timer.Before

theorem ordered_startingAt (clock : τ) : (startingAt clock : Timeline τ α).Ordered where
  toWellFormed := wellFormed_startingAt clock
  sorted := .nil

theorem Ordered.withClock (ordered : timeline.Ordered) (clock : τ) :
    ({ timeline with clock } : Timeline τ α).Ordered :=
  ⟨ordered.toWellFormed.withClock clock, ordered.sorted⟩

theorem sorted_insert {timer : Timer τ α} {queue : List (Timer τ α)}
    (sorted : queue.Pairwise Timer.Before) (last : ∀ other ∈ queue, other.id < timer.id) :
    (insert timer queue).Pairwise Timer.Before := by
  induction queue with
  | nil => exact List.pairwise_singleton _ _
  | cons first rest induction =>
      rcases List.pairwise_cons.mp sorted with ⟨before, sortedRest⟩
      rw [insert]
      split
      · rename_i noLater
        refine List.pairwise_cons.mpr ⟨fun other member => ?_,
          induction sortedRest fun other member => last other (List.mem_cons_of_mem _ member)⟩
        rcases List.mem_cons.mp ((insert_perm timer rest).mem_iff.mp member) with rfl | member
        · rcases lt_or_eq_of_le noLater with earlier | same
          · exact .inl earlier
          · exact .inr ⟨same, last first List.mem_cons_self⟩
        · exact before other member
      · rename_i later
        refine List.pairwise_cons.mpr ⟨fun other member => ?_, sorted⟩
        rcases List.mem_cons.mp member with rfl | member
        · exact .inl (lt_of_not_ge later)
        · refine .inl (lt_of_lt_of_le (lt_of_not_ge later) ?_)
          rcases before other member with earlier | ⟨same, _⟩
          · exact le_of_lt earlier
          · exact le_of_eq same

theorem Ordered.setAt (ordered : timeline.Ordered) (due : τ) (action : α) :
    (timeline.setAt due action).2.Ordered where
  toWellFormed := ordered.toWellFormed.setAt due action
  sorted := sorted_insert ordered.sorted ordered.queued_lt

theorem timerSet_setAt (ordered : timeline.Ordered) (due : τ) (action : α) :
    (timeline.setAt due action).2.timerSet = (timeline.timerSet.setAt due action).2 := by
  have timers : (timeline.setAt due action).2.timerSet.timers =
      (timeline.timerSet.setAt due action).2.timers := by
    refine timers_ext fun other at' act => ?_
    rw [timers_eq_some_iff (ordered.toWellFormed.setAt due action),
      (live_setAt ordered.toWellFormed due action).mem_iff, List.mem_cons,
      ← timers_eq_some_iff ordered.toWellFormed, TimerSet.timers_setAt]
    -- The new number is that of no other live timer.
    have fresh : timeline.timerSet.timers timeline.nextId = none := by
      rw [Option.eq_none_iff_forall_ne_some]
      intro entry found
      exact Nat.lt_irrefl _ (ordered.live_lt ((timers_eq_some_iff ordered.toWellFormed).mp found))
    have next : timeline.timerSet.nextId = timeline.nextId := rfl
    rw [next]
    by_cases same : other = timeline.nextId
    · subst same
      rw [if_pos rfl, fresh]
      simp [eq_comm]
    · rw [if_neg same]
      simp [same]
  rw [TimerSet.setAt, TimerSet.mk.injEq]
  exact ⟨rfl, rfl, timers⟩

theorem Ordered.cancel (ordered : timeline.Ordered) (id : Nat) :
    (timeline.cancel id).Ordered where
  toWellFormed := ordered.toWellFormed.cancel id
  sorted := by
    unfold Timeline.cancel
    split <;> exact ordered.sorted

theorem Ordered.cleaned (ordered : timeline.Ordered) : timeline.cleaned.Ordered where
  toWellFormed := ordered.toWellFormed.cleaned.1
  sorted := ordered.sorted.sublist timeline.cleaned_suffix.sublist

omit [LinearOrder τ] in
theorem timerSet_cleaned (wellFormed : timeline.WellFormed) :
    timeline.cleaned.timerSet = timeline.timerSet := by
  rw [timerSet, timerSet, wellFormed.cleaned.2.1]
  rfl

omit [LinearOrder τ] in
theorem timerSet_idle (wellFormed : timeline.WellFormed) (idle : timeline.next? = none) (id : Nat) :
    timeline.timerSet.timers id = none := by
  rcases next?_eq wellFormed with ⟨_, empty⟩ | ⟨timer, rest, taken, _⟩
  · rw [timerSet, empty]
    rfl
  · rw [idle] at taken
    cases taken

/-- The next timer of a timeline is the next of its set. -/
theorem timerSet_next (ordered : timeline.Ordered) {timer : Timer τ α} {rest : Timeline τ α}
    (taken : timeline.next? = some (timer, rest)) :
    rest.Ordered ∧ timeline.timerSet.IsNext timer ∧
      rest.timerSet = timeline.timerSet.remove timer.id := by
  rcases exists_of_next? taken with ⟨sameClock, sameNext, tail⟩
  rcases next?_eq ordered.toWellFormed with ⟨idle, _⟩ | ⟨_, _, again, wellFormed, live⟩
  · rw [taken] at idle
    cases idle
  · cases taken.symm.trans again
    have sorted : (timer :: rest.live).Pairwise Timer.Before :=
      live ▸ ordered.sorted.sublist List.filter_sublist
    have distinct : ((timer :: rest.live).map Timer.id).Nodup :=
      live ▸ ordered.toWellFormed.live_distinct
    have apart : ∀ other ∈ rest.live, other.id ≠ timer.id := fun other member same =>
      (List.nodup_cons.mp distinct).1 (same ▸ List.mem_map_of_mem member)
    refine ⟨⟨wellFormed, (List.pairwise_cons.mp (ordered.sorted.sublist tail.sublist)).2⟩,
      ⟨?_, ?_⟩, ?_⟩
    · rw [timers_eq_some_iff ordered.toWellFormed, live]
      exact List.mem_cons_self
    · intro other found different
      rw [timers_eq_some_iff ordered.toWellFormed, live] at found
      rcases List.mem_cons.mp found with same | member
      · exact absurd (congrArg Timer.id same) different
      · exact (List.pairwise_cons.mp sorted).1 other member
    · have timers : rest.timerSet.timers = (timeline.timerSet.remove timer.id).timers := by
        refine timers_ext fun id due action => ?_
        rw [timers_eq_some_iff wellFormed, TimerSet.timers_remove]
        by_cases same : id = timer.id
        · rw [if_pos same]
          exact iff_of_false (fun member => apart _ member same) nofun
        · rw [if_neg same, timers_eq_some_iff ordered.toWellFormed, live, List.mem_cons]
          exact ⟨.inr, fun either => either.resolve_left fun equal =>
            same (congrArg Timer.id equal)⟩
      rw [TimerSet.remove, TimerSet.mk.injEq]
      exact ⟨sameClock, sameNext, timers⟩

end Timeline

end Flowchart
