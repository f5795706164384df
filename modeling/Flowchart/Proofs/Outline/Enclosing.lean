import Flowchart.Proofs.Extent.Nested
import Flowchart.Proofs.Outline.Ladder
import Flowchart.Proofs.Outline.Seen

/-!
The level of a line, told by the line that encloses it.

A line is enclosed by the last line before it that is no wider, or else by a root of width and
level zero. It stands on the level of that line if it is as wide or a branch line, and one level
deeper otherwise. The ladder that is open at a line holds what encloses it, whatever its width.
-/

namespace Flowchart.Outline

open Text

/-! ## Enclosing lines -/

def widthAt (views : List (Nat × List Char)) (index : Nat) : Nat :=
  (views[index]?.map Prod.fst).getD 0

def branchAt (views : List (Nat × List Char)) (index : Nat) : Bool :=
  views[index]?.any fun view => isBranchLine view.2

structure Encloses (views : List (Nat × List Char)) (outer index : Nat) : Prop where
  before : outer < index
  noWider : widthAt views outer ≤ widthAt views index
  last : ∀ between, outer < between → between < index →
    widthAt views index < widthAt views between

theorem Encloses.unique {views : List (Nat × List Char)} {outer other index : Nat}
    (encloses : Encloses views outer index) (otherEncloses : Encloses views other index) :
    other = outer := by
  rcases Nat.lt_trichotomy other outer with less | same | greater
  · exact absurd encloses.noWider (Nat.not_le.mpr (otherEncloses.last outer less encloses.before))
  · exact same
  · exact absurd otherEncloses.noWider
      (Nat.not_le.mpr (encloses.last other greater otherEncloses.before))

def IsOutermost (views : List (Nat × List Char)) (index : Nat) : Prop :=
  ∀ before < index, widthAt views index < widthAt views before

def levelBelow (outerWidth : Nat) (outerLevel : Int) (width : Nat) (branch : Bool) : Int :=
  if outerWidth = width ∨ branch then outerLevel else outerLevel + 1

/-! ## The ladder at a line -/

namespace Ladder

variable {ladder : Ladder} {width : Nat}

theorem top_cut_width_le (ladder : Ladder) (width : Nat) :
    (ladder.cut width).top.width ≤ width := by
  cases isCut : ladder.cut width with
  | nil => exact Nat.zero_le width
  | cons rung rest =>
      have stays := List.head?_dropWhile_not (fun rung : Rung => decide (width < rung.width)) ladder
      rw [cut] at isCut
      rw [isCut] at stays
      exact Nat.le_of_not_lt (of_decide_eq_false stays)

/-- What a line leaves at the top of a ladder is its own width and its level below the top of what
it leaves open. -/
theorem top_place (ladder : Ladder) (width : Nat) (branch : Bool) :
    (ladder.place width branch).top.width = width ∧
      ((ladder.place width branch).top.level : Int) =
        levelBelow (ladder.cut width).top.width (ladder.cut width).top.level width branch := by
  have within := top_cut_width_le ladder width
  have placed : ladder.place width branch = if (ladder.cut width).top.width < width then
      ⟨width, if branch then (ladder.cut width).top.level else (ladder.cut width).top.level + 1⟩ ::
        ladder.cut width
    else ladder.cut width := rfl
  rw [placed, levelBelow]
  by_cases wider : (ladder.cut width).top.width < width
  · have different := Nat.ne_of_lt wider
    rw [if_pos wider]
    generalize (ladder.cut width).top = outer at different
    cases branch <;> simp [top, different]
  · have same := Nat.le_antisymm within (Nat.le_of_not_lt wider)
    rw [if_neg wider, if_pos (.inl same)]
    exact ⟨same, rfl⟩

def Rises (ladder : Ladder) : Prop := ladder.Pairwise fun inner outer => outer.level ≤ inner.level

theorem Rises.cut (rises : ladder.Rises) (width : Nat) : (ladder.cut width).Rises :=
  rises.sublist (List.dropWhile_sublist _)

theorem Rises.level_le_top (rises : ladder.Rises) {rung : Rung} (member : rung ∈ ladder) :
    rung.level ≤ ladder.top.level := by
  cases ladder with
  | nil => cases member
  | cons first rest =>
      rcases List.mem_cons.mp member with rfl | later
      · exact Nat.le_refl _
      · exact (List.pairwise_cons.mp rises).1 rung later

theorem Rises.top_cut_le (rises : ladder.Rises) (width : Nat) :
    (ladder.cut width).top.level ≤ ladder.top.level := by
  cases isCut : ladder.cut width with
  | nil => exact Nat.zero_le _
  | cons rung rest =>
      have member : rung ∈ ladder.cut width := isCut ▸ List.mem_cons_self
      exact rises.level_le_top ((List.dropWhile_sublist _).subset member)

theorem Rises.place (rises : ladder.Rises) (width : Nat) (branch : Bool) :
    (ladder.place width branch).Rises := by
  have rest := rises.cut width
  rw [Ladder.cut] at rest
  rw [Ladder.place]
  split
  · refine List.pairwise_cons.mpr ⟨fun rung member => ?_, rest⟩
    have within := rest.level_le_top member
    dsimp only
    split
    · exact within
    · exact Nat.le_succ_of_le within
  · exact rest

end Ladder

def ladderAt (views : List (Nat × List Char)) (index : Nat) : Ladder :=
  (views.take index).foldl (fun ladder view => ladder.place view.1 (isBranchLine view.2)) []

variable {views : List (Nat × List Char)} {index : Nat}

theorem ladderAt_succ {view : Nat × List Char} (found : views[index]? = some view) :
    ladderAt views (index + 1) = (ladderAt views index).place view.1 (isBranchLine view.2) := by
  rw [ladderAt, List.take_add_one, found, List.foldl_append]
  rfl

theorem rises_ladderAt (views : List (Nat × List Char)) (index : Nat) :
    (ladderAt views index).Rises := by
  induction index with
  | zero => exact .nil
  | succ index induction =>
      cases found : views[index]? with
      | none =>
          rw [ladderAt, List.take_add_one, found, Option.toList_none, List.append_nil]
          exact induction
      | some view =>
          rw [ladderAt_succ found]
          exact induction.place view.1 (isBranchLine view.2)

theorem getElem?_blocksOf (ladder : Ladder) (views : List (Nat × List Char)) (index : Nat) :
    (blocksOf ladder views)[index]? = views[index]?.map fun view =>
      block view.2 (Ladder.top ((views.take (index + 1)).foldl
        (fun ladder view => ladder.place view.1 (isBranchLine view.2)) ladder)).level := by
  induction views generalizing ladder index with
  | nil => rfl
  | cons view views induction =>
      cases index with
      | zero => rfl
      | succ index =>
          rw [blocksOf, List.getElem?_cons_succ, List.getElem?_cons_succ, induction,
            List.take_succ_cons, List.foldl_cons]

theorem map_content_blocksOf (ladder : Ladder) (views : List (Nat × List Char)) :
    (blocksOf ladder views).map Block.content = views.map fun view => String.ofList view.2 := by
  induction views generalizing ladder with
  | nil => rfl
  | cons view views induction =>
      rw [blocksOf, List.map_cons, List.map_cons, induction]
      rfl

theorem levelAt_blocksOf (inside : index < views.length) :
    levelAt (blocksOf [] views) index = (ladderAt views (index + 1)).top.level := by
  rw [levelAt, getElem?_blocksOf, List.getElem?_eq_getElem inside]
  rfl

theorem top_cut_ladderAt (width : Nat) (within : index ≤ views.length) :
    (∃ outer < index, widthAt views outer ≤ width ∧
        (∀ between, outer < between → between < index → width < widthAt views between) ∧
        ((ladderAt views index).cut width).top.width = widthAt views outer ∧
        (((ladderAt views index).cut width).top.level : Int) =
          levelAt (blocksOf [] views) outer) ∨
      (∀ before < index, width < widthAt views before) ∧
        ((ladderAt views index).cut width).top = ⟨0, 0⟩ := by
  induction index with
  | zero => exact .inr ⟨nofun, rfl⟩
  | succ index induction =>
      have inside : index < views.length := within
      have found := List.getElem?_eq_getElem inside
      have here : widthAt views index = views[index].1 := by
        rw [widthAt, found]
        rfl
      have placed := ladderAt_succ found
      rcases Nat.lt_or_ge width (widthAt views index) with wider | noWider
      · -- The line is closed again, and what was open before it is open now.
        have same : (ladderAt views (index + 1)).cut width = (ladderAt views index).cut width := by
          rw [placed]
          exact Ladder.cut_place (here ▸ wider) _
        rw [same]
        rcases induction (Nat.le_of_succ_le within) with
          ⟨outer, before, fits, between, top⟩ | ⟨none, top⟩
        · refine .inl ⟨outer, Nat.lt_succ_of_lt before, fits, fun other above below => ?_, top⟩
          rcases Nat.lt_succ_iff_lt_or_eq.mp below with below | rfl
          · exact between other above below
          · exact wider
        · refine .inr ⟨fun other below => ?_, top⟩
          rcases Nat.lt_succ_iff_lt_or_eq.mp below with below | rfl
          · exact none other below
          · exact wider
      · have width_eq : (ladderAt views (index + 1)).top.width = widthAt views index := by
          rw [placed, here]
          exact (Ladder.top_place _ _ _).1
        refine .inl ⟨index, Nat.lt_succ_self index, noWider, fun other above below => ?_, ?_⟩
        · exact absurd below (Nat.not_lt.mpr above)
        · rw [Ladder.cut_of_top (width_eq.symm ▸ noWider), levelAt_blocksOf inside]
          exact ⟨width_eq, rfl⟩

theorem exists_encloses_or_isOutermost (within : index ≤ views.length) :
    (∃ outer, Encloses views outer index) ∨ IsOutermost views index := by
  rcases top_cut_ladderAt (widthAt views index) within with
    ⟨outer, before, fits, between, _⟩ | ⟨none, _⟩
  · exact .inl ⟨outer, before, fits, between⟩
  · exact .inr none

/-! ## Levels -/

theorem levelAt_succ (inside : index < views.length) :
    levelAt (blocksOf [] views) index =
      levelBelow ((ladderAt views index).cut (widthAt views index)).top.width
        ((ladderAt views index).cut (widthAt views index)).top.level (widthAt views index)
        (branchAt views index) := by
  have found := List.getElem?_eq_getElem inside
  rw [levelAt_blocksOf inside, ladderAt_succ found, widthAt, branchAt, found]
  exact (Ladder.top_place _ _ _).2

theorem levelAt_of_encloses {outer : Nat} (inside : index < views.length)
    (encloses : Encloses views outer index) :
    levelAt (blocksOf [] views) index = levelBelow (widthAt views outer)
      (levelAt (blocksOf [] views) outer) (widthAt views index) (branchAt views index) := by
  rw [levelAt_succ inside]
  rcases top_cut_ladderAt (widthAt views index) (Nat.le_of_lt inside) with
    ⟨other, before, fits, between, width, level⟩ | ⟨none, _⟩
  · rw [width, level, encloses.unique ⟨before, fits, between⟩]
  · exact absurd encloses.noWider (Nat.not_le.mpr (none outer encloses.before))

theorem levelAt_of_isOutermost (inside : index < views.length)
    (outermost : IsOutermost views index) :
    levelAt (blocksOf [] views) index =
      levelBelow 0 0 (widthAt views index) (branchAt views index) := by
  rw [levelAt_succ inside]
  rcases top_cut_ladderAt (widthAt views index) (Nat.le_of_lt inside) with
    ⟨other, before, fits, _⟩ | ⟨_, top⟩
  · exact absurd fits (Nat.not_le.mpr (outermost other before))
  · rw [top]
    rfl

theorem levelAt_succ_le (inside : index + 1 < views.length) :
    levelAt (blocksOf [] views) (index + 1) ≤ levelAt (blocksOf [] views) index + 1 := by
  have within := (rises_ladderAt views (index + 1)).top_cut_le (widthAt views (index + 1))
  rw [levelAt_succ inside, levelAt_blocksOf (Nat.lt_of_succ_lt inside), levelBelow]
  split <;> omega

/-- The lines of a text that are not blank have a block each. A line stands below the last line
before it that is no wider: on its level, if it is as wide or a branch line, and one level deeper
otherwise. No level is negative, nor more than one level below the one before it. -/
theorem levelAt_outline (text : List Char) :
    let views := seen indentation (lines text)
    let blocks := outline text
    blocks.map Block.content = views.map (fun view => String.ofList view.2) ∧
      ∀ index < views.length,
        (∀ outer, Encloses views outer index →
          levelAt blocks index = levelBelow (widthAt views outer) (levelAt blocks outer)
            (widthAt views index) (branchAt views index)) ∧
        (IsOutermost views index →
          levelAt blocks index = levelBelow 0 0 (widthAt views index) (branchAt views index)) ∧
        0 ≤ levelAt blocks index ∧
        (index + 1 < views.length → levelAt blocks (index + 1) ≤ levelAt blocks index + 1) := by
  have same : outline text = blocksOf [] (seen indentation (lines text)) := by
    rw [outline, blocksFrom_eq]
  intro views blocks
  have isOutline : blocks = blocksOf [] views := same
  rw [isOutline]
  refine ⟨map_content_blocksOf [] views, fun index inside => ⟨fun outer =>
    levelAt_of_encloses inside, levelAt_of_isOutermost inside, ?_, levelAt_succ_le⟩⟩
  rw [levelAt_blocksOf inside]
  exact Int.natCast_nonneg _

end Flowchart.Outline
