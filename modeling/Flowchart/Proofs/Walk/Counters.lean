import Flowchart.Walk

/-!
Counters of loops after one of them was set or some were cleared.
-/

namespace Flowchart.Walk

namespace Counters

variable (counters : Counters)

def countOf (loop : Int) : Int := (counters.lookup loop).getD 0

theorem lookup_put (loop count other : Int) :
    (counters.put loop count).lookup other =
      if other = loop then some count else counters.lookup other := by
  have kept : ∀ entries : Counters, other ≠ loop →
      (entries.filter fun entry => entry.1 ≠ loop).lookup other = entries.lookup other := by
    intro entries different
    induction entries with
    | nil => rfl
    | cons entry rest induction =>
        rcases entry with ⟨key, value⟩
        by_cases isLoop : key = loop
        · rw [List.filter_cons_of_neg (by simp [isLoop]), induction]
          have unequal : (other == key) = false := by simp [isLoop, different]
          rw [List.lookup_cons, unequal]
        · rw [List.filter_cons_of_pos (by simp [isLoop]), List.lookup_cons, List.lookup_cons,
            induction]
  rw [put, List.lookup_cons]
  by_cases same : other = loop
  · simp [same]
  · have unequal : (other == loop) = false := by simp [same]
    rw [unequal, if_neg same]
    exact kept counters same

theorem lookup_put_self (loop count : Int) :
    (counters.put loop count).lookup loop = some count := by
  rw [lookup_put, if_pos rfl]

theorem lookup_put_of_ne {loop other : Int} (count : Int) (different : other ≠ loop) :
    (counters.put loop count).lookup other = counters.lookup other := by
  rw [lookup_put, if_neg different]

theorem lookup_clear (first stop other : Int) :
    (counters.clear first stop).lookup other =
      if first ≤ other ∧ other < stop then none else counters.lookup other := by
  induction counters with
  | nil => simp [clear]
  | cons entry rest induction =>
      rcases entry with ⟨key, value⟩
      rw [clear] at induction ⊢
      by_cases inside : first ≤ key ∧ key < stop
      · rw [List.filter_cons_of_neg (by simpa using inside), induction, List.lookup_cons]
        by_cases same : other = key
        · rw [same, if_pos inside, if_pos inside]
        · have unequal : (other == key) = false := by simp [same]
          rw [unequal]
      · rw [List.filter_cons_of_pos (by simp; omega), List.lookup_cons, List.lookup_cons,
          induction]
        by_cases same : other = key
        · rw [same, beq_self_eq_true]
          simp only [if_neg inside]
        · have unequal : (other == key) = false := by simp [same]
          rw [unequal]

def Sound : Prop := ∀ loop count, counters.lookup loop = some count → 0 ≤ count

variable {counters}

theorem sound_nil : Sound [] := fun _ _ found => by cases found

theorem Sound.countOf (sound : counters.Sound) (loop : Int) : 0 ≤ counters.countOf loop := by
  rw [Counters.countOf]
  cases found : counters.lookup loop with
  | none => exact Int.le_refl _
  | some count => exact sound loop count found

theorem Sound.put (sound : counters.Sound) (loop count : Int) (positive : 0 ≤ count) :
    (counters.put loop count).Sound := by
  intro other value found
  rw [lookup_put] at found
  split at found
  · cases found
    exact positive
  · exact sound other value found

theorem Sound.counted (sound : counters.Sound) (loop : Int) :
    (counters.put loop (counters.countOf loop + 1)).Sound :=
  sound.put loop _ (Int.le_add_one (sound.countOf loop))

theorem Sound.clear (sound : counters.Sound) (first stop : Int) :
    (counters.clear first stop).Sound := by
  intro other value found
  rw [lookup_clear] at found
  split at found
  · cases found
  · exact sound other value found

end Counters

end Flowchart.Walk
