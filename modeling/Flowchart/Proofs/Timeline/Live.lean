import Flowchart.Timeline
import Mathlib.Data.List.Perm.Basic

/-!
The timers of a timeline that will still run.

A number leaves the numbers in the queue, and the marks, only with the timer itself, and a new timer
has a number that none had before. So the queue, the numbers and the marks stay in step: setting
a timer adds it to the live ones, cancelling removes it, and the next timer to run is the first of
the live ones. Cancelled timers that are dropped were not live.
-/

namespace Flowchart.Timeline

variable {τ α : Type}

def live (timeline : Timeline τ α) : List (Timer τ α) :=
  timeline.queue.filter fun timer => !timeline.cancelled.contains timer.id

/-- Timers have numbers of their own, below those that are still to be given, and the numbers in
the queue are known. -/
structure WellFormed (timeline : Timeline τ α) : Prop where
  distinct : (timeline.queue.map Timer.id).Nodup
  queued : timeline.queued.Perm (timeline.queue.map Timer.id)
  queued_lt : ∀ timer ∈ timeline.queue, timer.id < timeline.nextId
  cancelled_lt : ∀ id ∈ timeline.cancelled, id < timeline.nextId

variable {timeline : Timeline τ α}

theorem wellFormed_startingAt (clock : τ) : (startingAt clock : Timeline τ α).WellFormed where
  distinct := .nil
  queued := .nil
  queued_lt timer member := by cases member
  cancelled_lt id member := by cases member

theorem WellFormed.withClock (wellFormed : timeline.WellFormed) (clock : τ) :
    ({ timeline with clock } : Timeline τ α).WellFormed :=
  ⟨wellFormed.distinct, wellFormed.queued, wellFormed.queued_lt, wellFormed.cancelled_lt⟩

theorem WellFormed.pending_eq (wellFormed : timeline.WellFormed) :
    timeline.pending = timeline.live.length := by
  have perm := wellFormed.queued.filter fun id => !timeline.cancelled.contains id
  rw [pending, perm.length_eq, List.filter_map, List.length_map]
  rfl

/-! ## Setting -/

section

variable [LE τ] [DecidableLE τ]

theorem insert_perm (timer : Timer τ α) (queue : List (Timer τ α)) :
    (insert timer queue).Perm (timer :: queue) := by
  induction queue with
  | nil => exact .refl _
  | cons first rest induction =>
      rw [insert]
      split
      · exact (induction.cons first).trans (.swap timer first rest)
      · exact .refl _

theorem WellFormed.setAt (wellFormed : timeline.WellFormed) (due : τ) (action : α) :
    (timeline.setAt due action).2.WellFormed := by
  have perm := insert_perm ⟨due, timeline.nextId, action⟩ timeline.queue
  refine ⟨?_, ((wellFormed.queued.cons _).trans (perm.map Timer.id).symm), ?_,
    fun id member => Nat.lt_succ_of_lt (wellFormed.cancelled_lt id member)⟩
  · refine (perm.map Timer.id).nodup_iff.mpr (List.nodup_cons.mpr ⟨fun member => ?_,
      wellFormed.distinct⟩)
    rcases List.mem_map.mp member with ⟨timer, queued, same⟩
    exact Nat.ne_of_lt (wellFormed.queued_lt timer queued) same
  · intro timer member
    rcases List.mem_cons.mp (perm.mem_iff.mp member) with rfl | queued
    · exact Nat.lt_succ_self _
    · exact Nat.lt_succ_of_lt (wellFormed.queued_lt timer queued)

theorem live_setAt (wellFormed : timeline.WellFormed) (due : τ) (action : α) :
    (timeline.setAt due action).2.live.Perm
      (⟨due, timeline.nextId, action⟩ :: timeline.live) := by
  have perm := (insert_perm ⟨due, timeline.nextId, action⟩ timeline.queue).filter
    fun timer => !timeline.cancelled.contains timer.id
  rw [List.filter_cons_of_pos] at perm
  · exact perm
  · simpa using fun member => Nat.lt_irrefl _ (wellFormed.cancelled_lt _ member)

end

/-! ## Cancelling -/

theorem WellFormed.cancel (wellFormed : timeline.WellFormed) (id : Nat) :
    (timeline.cancel id).WellFormed := by
  unfold Timeline.cancel
  split
  · rename_i queued
    refine ⟨wellFormed.distinct, wellFormed.queued, wellFormed.queued_lt, fun other member => ?_⟩
    rcases List.mem_cons.mp member with rfl | marked
    · rcases List.mem_map.mp (wellFormed.queued.mem_iff.mp queued.1) with ⟨timer, inQueue, same⟩
      exact same ▸ wellFormed.queued_lt timer inQueue
    · exact wellFormed.cancelled_lt other marked
  · exact wellFormed

theorem live_cancel (wellFormed : timeline.WellFormed) (id : Nat) :
    (timeline.cancel id).live = timeline.live.filter fun timer => timer.id ≠ id := by
  unfold Timeline.cancel live
  split
  · rw [List.filter_filter]
    apply List.filter_congr
    intro timer _
    rw [Bool.eq_iff_iff]
    simp
  · rename_i unmarked
    rw [List.filter_filter]
    apply List.filter_congr
    intro timer queued
    rw [Bool.eq_iff_iff]
    simp only [Bool.not_eq_true', List.contains_eq_mem, decide_eq_false_iff_not, ne_eq,
      decide_not, Bool.and_eq_true]
    refine ⟨fun alive => ⟨fun same => unmarked ⟨?_, same ▸ alive⟩, alive⟩, fun both => both.2⟩
    exact wellFormed.queued.mem_iff.mpr (List.mem_map.mpr ⟨timer, queued, same⟩)

/-! ## The next timer -/

theorem exists_of_dropCancelled {queue : List (Timer τ α)} :
    ∀ queued cancelled : List Nat, (queue.map Timer.id).Nodup →
      queued.Perm (queue.map Timer.id) →
      ∃ rest left marks, dropCancelled queued cancelled queue = (rest, left, marks) ∧
        rest <:+ queue ∧ left.Perm (rest.map Timer.id) ∧ (∀ id ∈ marks, id ∈ cancelled) ∧
        rest.filter (fun timer => !marks.contains timer.id) =
          queue.filter (fun timer => !cancelled.contains timer.id) ∧
        ∀ timer, rest.head? = some timer → timer.id ∉ marks := by
  induction queue with
  | nil =>
      intro queued cancelled _ known
      exact ⟨[], queued, cancelled, rfl, List.nil_suffix, known, fun _ member => member, rfl,
        by simp⟩
  | cons first queue induction =>
      intro queued cancelled distinct known
      rw [List.map_cons, List.nodup_cons] at distinct
      rw [dropCancelled]
      split
      · rename_i marked
        have knownRest := known.erase first.id
        rw [List.map_cons, List.erase_cons_head] at knownRest
        rcases induction (queued.erase first.id) (cancelled.erase first.id) distinct.2
            knownRest with
          ⟨rest, left, marks, dropped, tail, knownLeft, fewer, same, head⟩
        refine ⟨rest, left, marks, dropped, tail.trans (List.suffix_cons _ _), knownLeft,
          fun id member => List.mem_of_mem_erase (fewer id member), ?_, head⟩
        rw [same, List.filter_cons_of_neg (by simpa using marked)]
        apply List.filter_congr
        intro timer inQueue
        have different : timer.id ≠ first.id := fun equal =>
          distinct.1 (equal ▸ List.mem_map_of_mem inQueue)
        simp [List.mem_erase_of_ne different]
      · rename_i unmarked
        refine ⟨first :: queue, queued, cancelled, rfl, List.suffix_refl _, known,
          fun _ member => member, rfl, ?_⟩
        intro timer isFirst
        cases isFirst
        simpa using unmarked

theorem dropCancelled_suffix (queued cancelled : List Nat) (queue : List (Timer τ α)) :
    (dropCancelled queued cancelled queue).1 <:+ queue := by
  induction queue generalizing queued cancelled with
  | nil => exact List.nil_suffix
  | cons first rest induction =>
      rw [dropCancelled]
      split
      · exact (induction _ _).trans (List.suffix_cons _ _)
      · exact List.suffix_refl _

theorem dropCancelled_again (queued cancelled : List Nat) (queue : List (Timer τ α)) :
    dropCancelled (dropCancelled queued cancelled queue).2.1
        (dropCancelled queued cancelled queue).2.2 (dropCancelled queued cancelled queue).1 =
      dropCancelled queued cancelled queue := by
  induction queue generalizing queued cancelled with
  | nil => rfl
  | cons first rest induction =>
      rw [dropCancelled]
      split
      · exact induction _ _
      · rename_i unmarked
        rw [dropCancelled, if_neg unmarked]

theorem cleaned_cleaned (timeline : Timeline τ α) :
    timeline.cleaned.cleaned = timeline.cleaned := by
  have again := dropCancelled_again timeline.queued timeline.cancelled timeline.queue
  unfold cleaned
  dsimp only
  rw [again]

theorem next?_cleaned (timeline : Timeline τ α) : timeline.cleaned.next? = timeline.next? := by
  rw [next?, next?, cleaned_cleaned]

theorem cleaned_suffix (timeline : Timeline τ α) : timeline.cleaned.queue <:+ timeline.queue :=
  dropCancelled_suffix _ _ _

theorem exists_of_next? {timer : Timer τ α} {rest : Timeline τ α}
    (taken : timeline.next? = some (timer, rest)) :
    rest.clock = timeline.clock ∧ rest.nextId = timeline.nextId ∧
      timer :: rest.queue <:+ timeline.queue := by
  have tail := dropCancelled_suffix timeline.queued timeline.cancelled timeline.queue
  unfold next? cleaned at taken
  split at taken
  · cases taken
  · rename_i dropped
    cases taken
    exact ⟨rfl, rfl, dropped ▸ tail⟩

/-- Only cancelled timers are dropped, and then the first timer in the queue is a live one. -/
theorem WellFormed.cleaned (wellFormed : timeline.WellFormed) :
    timeline.cleaned.WellFormed ∧ timeline.cleaned.live = timeline.live ∧
      ∀ timer, timeline.cleaned.queue.head? = some timer →
        timer.id ∉ timeline.cleaned.cancelled := by
  rcases exists_of_dropCancelled timeline.queued timeline.cancelled wellFormed.distinct
    wellFormed.queued with ⟨queue, left, marks, dropped, tail, known, fewer, same, head⟩
  rw [Timeline.cleaned, dropped]
  exact ⟨⟨(tail.sublist.map Timer.id).nodup wellFormed.distinct, known,
    fun timer member => wellFormed.queued_lt timer (tail.subset member),
    fun id member => wellFormed.cancelled_lt id (fewer id member)⟩, same, head⟩

/-- The next timer is the first live one; the others stay live. -/
theorem next?_eq (wellFormed : timeline.WellFormed) :
    (timeline.next? = none ∧ timeline.live = []) ∨
      ∃ timer rest, timeline.next? = some (timer, rest) ∧ rest.WellFormed ∧
        timeline.live = timer :: rest.live := by
  rcases wellFormed.cleaned with ⟨kept, same, head⟩
  cases left : timeline.cleaned.queue with
  | nil =>
      refine .inl ⟨by rw [next?, left], ?_⟩
      rw [← same, live, left, List.filter_nil]
  | cons timer queue =>
      have taken : timeline.next? = some (timer, { timeline.cleaned with
          queue, queued := timeline.cleaned.queued.erase timer.id }) := by
        rw [next?, left]
      refine .inr ⟨timer, _, taken, ⟨?_, ?_, ?_, kept.cancelled_lt⟩, ?_⟩
      · have distinct := kept.distinct
        rw [left, List.map_cons] at distinct
        exact (List.nodup_cons.mp distinct).2
      · have known := kept.queued.erase timer.id
        rwa [left, List.map_cons, List.erase_cons_head] at known
      · intro other member
        exact kept.queued_lt other (left ▸ List.mem_cons_of_mem _ member)
      · rw [← same, live, left,
          List.filter_cons_of_pos (by simpa using head timer (by rw [left]; rfl))]
        rfl

end Flowchart.Timeline
