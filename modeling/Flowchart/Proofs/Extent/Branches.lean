import Flowchart.Extent

/-!
Where the branches and the end of a conditional or a switch lie: behind its opening block, in
order, and the end behind all branches.
-/

namespace Flowchart

structure BranchesFrom (first : Nat) (branches : List Nat) (stop : Option Nat) : Prop where
  sorted : branches.Pairwise (· < ·)
  first_le : ∀ branch ∈ branches, first ≤ branch
  lt_stop : ∀ branch ∈ branches, stop.all (branch < ·)
  first_le_stop : stop.all (first ≤ ·)

namespace BranchesFrom

variable {first index : Nat} {branches : List Nat} {stop : Option Nat}

theorem nil (bound : stop.all (first ≤ ·)) : BranchesFrom first [] stop where
  sorted := .nil
  first_le _ member := by cases member
  lt_stop _ member := by cases member
  first_le_stop := bound

theorem later (holds : BranchesFrom (first + 1) branches stop) :
    BranchesFrom first branches stop where
  sorted := holds.sorted
  first_le branch member := Nat.le_of_succ_le (holds.first_le branch member)
  lt_stop := holds.lt_stop
  first_le_stop := by
    have bound := holds.first_le_stop
    cases stop <;> simp_all; omega

theorem cons (holds : BranchesFrom (first + 1) branches stop) :
    BranchesFrom first (first :: branches) stop where
  sorted := List.Pairwise.cons (fun branch member => holds.first_le branch member) holds.sorted
  first_le branch member := by
    rcases List.mem_cons.mp member with rfl | member
    · exact Nat.le_refl _
    · exact holds.later.first_le branch member
  lt_stop branch member := by
    rcases List.mem_cons.mp member with rfl | member
    · exact holds.first_le_stop
    · exact holds.lt_stop branch member
  first_le_stop := holds.later.first_le_stop

end BranchesFrom

namespace Extent

theorem markedConditional_from (base : Int) (rest : List Block) :
    ∀ {depth index : Nat} {branches : List Nat} {marker : Nat},
      markedConditional base depth index rest = some (branches, marker) →
        BranchesFrom index branches (some marker) := by
  induction rest with
  | nil =>
      intro depth index branches marker found
      simp [markedConditional] at found
  | cons block rest induction =>
      intro depth index branches marker found
      unfold markedConditional at found
      split at found
      · simp at found
      split at found
      · exact (induction found).later
      split at found
      · cases depth with
        | zero =>
            simp only [Option.some.injEq, Prod.mk.injEq] at found
            rcases found with ⟨rfl, rfl⟩
            exact .nil (by simp)
        | succ depth => exact (induction found).later
      · rcases Option.map_eq_some_iff.mp found with ⟨⟨inner, stop⟩, foundInner, equal⟩
        simp only [Prod.mk.injEq] at equal
        rcases equal with ⟨rfl, rfl⟩
        split
        · exact (induction foundInner).cons
        · exact (induction foundInner).later

theorem indentedConditional_from (base : Int) (index : Nat) (rest : List Block) :
    BranchesFrom index (indentedConditional base index rest).1
      (indentedConditional base index rest).2 := by
  induction rest generalizing index with
  | nil => exact .nil rfl
  | cons block rest induction =>
      rw [indentedConditional]
      split
      · exact .nil (by simp)
      split
      · split
        · exact (induction (index + 1)).cons
        · exact .nil (by simp)
      · exact (induction (index + 1)).later

theorem markedSwitch_from (base : Int) (rest : List Block) :
    ∀ {depth index : Nat} {cases : List Nat} {marker : Nat},
      markedSwitch base depth index rest = some (cases, marker) →
        BranchesFrom index cases (some marker) := by
  induction rest with
  | nil =>
      intro depth index cases marker found
      simp [markedSwitch] at found
  | cons block rest induction =>
      intro depth index cases marker found
      unfold markedSwitch at found
      split at found
      · simp at found
      split at found
      · exact (induction found).later
      split at found
      · cases depth with
        | zero =>
            simp only [Option.some.injEq, Prod.mk.injEq] at found
            rcases found with ⟨rfl, rfl⟩
            exact .nil (by simp)
        | succ depth => exact (induction found).later
      · rcases Option.map_eq_some_iff.mp found with ⟨⟨inner, stop⟩, foundInner, equal⟩
        simp only [Prod.mk.injEq] at equal
        rcases equal with ⟨rfl, rfl⟩
        split
        · exact (induction foundInner).cons
        · exact (induction foundInner).later

theorem indentedSwitch_from (base : Int) (caseLevel : Option Int) (index : Nat)
    (rest : List Block) :
    BranchesFrom index (indentedSwitch base caseLevel index rest).1
      (indentedSwitch base caseLevel index rest).2 := by
  induction rest generalizing caseLevel index with
  | nil => exact .nil rfl
  | cons block rest induction =>
      rw [indentedSwitch]
      split
      · exact .nil (by simp)
      split
      · exact (induction _ (index + 1)).cons
      split
      · exact .nil (by simp)
      · exact (induction _ (index + 1)).later

end Extent

/-! ## Extents by position -/

namespace BranchExtent

def Ordered (extent : BranchExtent) : Prop :=
  BranchesFrom (extent.start + 1) extent.branches extent.stop

variable {extent : BranchExtent} {index boundary : Nat}

theorem Ordered.nextBoundary_gt (ordered : extent.Ordered)
    (member : index = extent.start ∨ index ∈ extent.branches)
    (next : extent.nextBoundary index = some boundary) : index < boundary := by
  unfold nextBoundary at next
  split at next
  · rename_i found
    cases next
    simpa using List.find?_some found
  · rcases member with rfl | member
    · have bound := ordered.first_le_stop
      simpa [next, Nat.succ_le_iff] using bound
    · have bound := ordered.lt_stop index member
      simpa [next] using bound

theorem Ordered.nextBoundary_le (ordered : extent.Ordered) {stop : Nat}
    (next : extent.nextBoundary index = some boundary) (ends : extent.stop = some stop) :
    boundary ≤ stop := by
  unfold nextBoundary at next
  split at next
  · rename_i found
    cases next
    have bound := ordered.lt_stop boundary (List.mem_of_find?_eq_some found)
    rw [ends] at bound
    exact Nat.le_of_lt (by simpa using bound)
  · cases next.symm.trans ends
    exact Nat.le_refl _

end BranchExtent

theorem conditionalExtent_ordered (blocks : List Block) (start : Nat) :
    (conditionalExtent blocks start).Ordered := by
  unfold conditionalExtent BranchExtent.Ordered
  split
  · exact .nil rfl
  · rename_i opener rest _
    unfold Extent.ofConditional
    split
    · rename_i branches marker found
      exact Extent.markedConditional_from opener.level rest found
    · exact Extent.indentedConditional_from opener.level (start + 1) rest

theorem switchExtent_ordered (blocks : List Block) (start : Nat) :
    (switchExtent blocks start).Ordered := by
  unfold switchExtent BranchExtent.Ordered
  split
  · exact .nil rfl
  · rename_i opener rest _
    unfold Extent.ofSwitch
    split
    · rename_i cases marker found
      exact Extent.markedSwitch_from opener.level rest found
    · exact Extent.indentedSwitch_from opener.level none (start + 1) rest

theorem conditionalExtent_start (blocks : List Block) (start : Nat) :
    (conditionalExtent blocks start).start = start := by
  unfold conditionalExtent
  split
  · rfl
  · unfold Extent.ofConditional
    split <;> rfl

theorem switchExtent_start (blocks : List Block) (start : Nat) :
    (switchExtent blocks start).start = start := by
  unfold switchExtent
  split
  · rfl
  · unfold Extent.ofSwitch
    split <;> rfl

end Flowchart
