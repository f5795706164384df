import Flowchart.Proofs.Outline.Seen

/-!
The outline of lines that all stand further in.

Nothing changes up to the first line that would not be indented at all. That one opens a level where
it would have opened none, unless it is a branch line, and all that follow stand above it.
-/

namespace Flowchart

def Block.raised (rise : Nat) (block : Block) : Block := { block with level := block.level + rise }

namespace Outline

def Rung.raised (shift rise : Nat) (rung : Rung) : Rung := ⟨rung.width + shift, rung.level + rise⟩

/-! ## Ladders -/

section

variable (shift : Nat)

theorem dropWhile_raised (rise width : Nat) (ladder : Ladder) :
    (ladder.map (Rung.raised shift rise)).dropWhile (fun rung => width + shift < rung.width) =
      (ladder.dropWhile fun rung => width < rung.width).map (Rung.raised shift rise) := by
  rw [List.dropWhile_map]
  congr 2
  funext rung
  simp [Rung.raised]

theorem place_raised {width : Nat} (indented : 0 < width) (branch : Bool) (ladder : Ladder) :
    Ladder.place (ladder.map (Rung.raised shift 0)) (width + shift) branch =
      (ladder.place width branch).map (Rung.raised shift 0) := by
  rw [Ladder.place, Ladder.place, dropWhile_raised]
  cases ladder.dropWhile fun rung => width < rung.width with
  | nil =>
      -- Where no level is open, the root stands at zero columns below both.
      have wider : 0 < width + shift := Nat.add_pos_left indented shift
      simp [Ladder.top, Rung.raised, indented, wider]
  | cons rung rest =>
      simp only [Ladder.top, List.map_cons, List.headD_cons, Rung.raised, Nat.add_lt_add_iff_right,
        Nat.add_zero]
      by_cases wider : rung.width < width
      · cases branch <;> simp [wider, Rung.raised]
      · simp [wider, Rung.raised]

def settled (rise : Nat) (ladder : Ladder) : Ladder :=
  ladder.map (Rung.raised shift rise) ++ [⟨shift, rise⟩]

theorem top_settled (rise : Nat) (ladder : Ladder) :
    (settled shift rise ladder).top = ladder.top.raised shift rise := by
  cases ladder with
  | nil => simp [settled, Ladder.top, Rung.raised]
  | cons rung rest => rfl

theorem dropWhile_settled (rise width : Nat) (ladder : Ladder) :
    (settled shift rise ladder).dropWhile (fun rung => width + shift < rung.width) =
      settled shift rise (ladder.dropWhile fun rung => width < rung.width) := by
  have kept : ([⟨shift, rise⟩] : Ladder).dropWhile (fun rung => width + shift < rung.width) =
      [⟨shift, rise⟩] := by simp
  rw [settled, List.dropWhile_append, dropWhile_raised, kept]
  cases ladder.dropWhile fun rung => width < rung.width with
  | nil => rfl
  | cons rung rest => rfl

theorem place_settled (rise width : Nat) (branch : Bool) (ladder : Ladder) :
    (settled shift rise ladder).place (width + shift) branch =
      settled shift rise (ladder.place width branch) := by
  rw [Ladder.place, Ladder.place, dropWhile_settled, top_settled]
  simp only [Rung.raised, Nat.add_lt_add_iff_right]
  split
  · cases branch
    · simp [settled, Rung.raised, Nat.add_right_comm]
    · simp [settled, Rung.raised]
  · rfl

/-! ## Rows of lines -/

theorem block_raised (text : List Char) (level rise : Nat) :
    block text (level + rise) = (block text level).raised rise := by
  simp [block, Block.raised]

theorem blocksOf_settled (rise : Nat) (ladder : Ladder) (views : List (Nat × List Char)) :
    blocksOf (settled shift rise ladder) (further shift views) =
      (blocksOf ladder views).map (Block.raised rise) := by
  induction views generalizing ladder with
  | nil => rfl
  | cons view views induction =>
      obtain ⟨width, text⟩ := view
      have later := induction (ladder.place width (isBranchLine text))
      rw [further] at later ⊢
      rw [List.map_cons, blocksOf, blocksOf, List.map_cons]
      dsimp only
      rw [place_settled, top_settled, later, Rung.raised, block_raised]

end

/-! ## The first line that is not indented -/

def Ladder.Indented (ladder : Ladder) : Prop := ∀ rung ∈ ladder, 0 < rung.width

theorem Ladder.Indented.place {ladder : Ladder} (indented : ladder.Indented) (width : Nat)
    (branch : Bool) : (ladder.place width branch).Indented := by
  have open' : Ladder.Indented (ladder.dropWhile fun rung => width < rung.width) :=
    fun rung member => indented rung ((List.dropWhile_sublist _).subset member)
  rw [Ladder.place]
  split
  · rename_i wider
    intro rung member
    rcases List.mem_cons.mp member with rfl | earlier
    · exact Nat.zero_lt_of_lt wider
    · exact open' rung earlier
  · exact open'

theorem Ladder.Indented.dropWhile_eq_nil {ladder : Ladder} (indented : ladder.Indented) :
    (ladder.dropWhile fun rung => 0 < rung.width) = [] := by
  apply List.dropWhile_eq_nil_iff.mpr
  intro rung member
  exact decide_eq_true (indented rung member)

variable {shift : Nat} {ladder : Ladder}

theorem place_zero (indented : ladder.Indented) (branch : Bool) : ladder.place 0 branch = [] := by
  rw [Ladder.place, indented.dropWhile_eq_nil]
  rfl

theorem place_raised_zero (some : 0 < shift) (indented : ladder.Indented) (branch : Bool) :
    Ladder.place (ladder.map (Rung.raised shift 0)) shift branch =
      settled shift (if branch then 0 else 1) [] := by
  have nothing := dropWhile_raised shift 0 0 ladder
  rw [indented.dropWhile_eq_nil, Nat.zero_add] at nothing
  rw [Ladder.place, nothing]
  simp [Ladder.top, settled, some]

def floor? (width : Nat) (views : List (Nat × List Char)) : Option (Nat × List Char) :=
  (views.find? fun view => view.1 = width).filter fun view => !isBranchLine view.2

theorem floor?_further_eq_none_iff (shift : Nat) (views : List (Nat × List Char)) :
    floor? shift (further shift views) = none ↔ floor? 0 views = none := by
  induction views with
  | nil => exact Iff.rfl
  | cons view views induction =>
      obtain ⟨width, text⟩ := view
      rw [floor?, floor?, further] at induction ⊢
      rcases Nat.eq_zero_or_pos width with rfl | isIndented
      · simp
      · have wider : width + shift ≠ shift := by omega
        rw [List.map_cons, List.find?_cons_of_neg (by simpa using wider),
          List.find?_cons_of_neg (by simpa using Nat.ne_of_gt isIndented)]
        exact induction

theorem blocksOf_raised_zero (some : 0 < shift) (indented : ladder.Indented) (text : List Char)
    (views : List (Nat × List Char)) :
    blocksOf (ladder.map (Rung.raised shift 0)) (further shift ((0, text) :: views)) =
      (blocksOf ladder ((0, text) :: views)).map
        (Block.raised (if isBranchLine text then 0 else 1)) := by
  have zero : further shift ((0, text) :: views) = (shift, text) :: further shift views := by
    simp [further]
  rw [zero, blocksOf, blocksOf, place_raised_zero some indented, place_zero indented,
    blocksOf_settled, top_settled, List.map_cons, ← block_raised]
  rfl

theorem blocksOf_raised_of_indented {width : Nat} (indented : 0 < width) (text : List Char)
    (views : List (Nat × List Char)) :
    blocksOf (ladder.map (Rung.raised shift 0)) (further shift ((width, text) :: views)) =
      block text (ladder.place width (isBranchLine text)).top.level ::
        blocksOf ((ladder.place width (isBranchLine text)).map (Rung.raised shift 0))
          (further shift views) := by
  have top (ladder : Ladder) :
      (Ladder.top (ladder.map (Rung.raised shift 0))).level = ladder.top.level := by
    cases ladder <;> rfl
  rw [further, List.map_cons, blocksOf, place_raised shift indented, top, further]

theorem Block.raised_zero : Block.raised 0 = id := by
  funext block
  simp [Block.raised]

theorem blocksOf_raised_of_floor?_eq_none (some : 0 < shift) (indented : ladder.Indented)
    {views : List (Nat × List Char)} (none : floor? 0 views = none) :
    blocksOf (ladder.map (Rung.raised shift 0)) (further shift views) = blocksOf ladder views := by
  induction views generalizing ladder with
  | nil => rfl
  | cons view views induction =>
      obtain ⟨width, text⟩ := view
      rcases Nat.eq_zero_or_pos width with rfl | isIndented
      · have branch : isBranchLine text = true := by
          simpa [floor?] using none
        rw [blocksOf_raised_zero some indented, branch, if_pos rfl, Block.raised_zero, List.map_id]
      · have later : floor? 0 views = Option.none := by
          rw [floor?, List.find?_cons_of_neg (by simpa using Nat.ne_of_gt isIndented)] at none
          exact none
        rw [blocksOf_raised_of_indented isIndented, induction (indented.place _ _) later]
        rfl

theorem levels_blocksOf_raised_ne (some : 0 < shift) (indented : ladder.Indented)
    {views : List (Nat × List Char)} (floor : floor? 0 views ≠ none) :
    (blocksOf (ladder.map (Rung.raised shift 0)) (further shift views)).map (·.level) ≠
      (blocksOf ladder views).map (·.level) := by
  induction views generalizing ladder with
  | nil => exact absurd rfl floor
  | cons view views induction =>
      obtain ⟨width, text⟩ := view
      rcases Nat.eq_zero_or_pos width with rfl | isIndented
      · have plain : isBranchLine text = false := by
          simpa [floor?] using floor
        rw [blocksOf_raised_zero some indented, plain, if_neg Bool.false_ne_true, blocksOf,
          List.map_cons, List.map_cons, List.map_cons]
        intro same
        exact absurd (List.cons.inj same).1 (Int.ne_of_gt (Int.lt_succ _))
      · have later : floor? 0 views ≠ Option.none := by
          rw [floor?, List.find?_cons_of_neg (by simpa using Nat.ne_of_gt isIndented)] at floor
          exact floor
        rw [blocksOf_raised_of_indented isIndented, blocksOf, List.map_cons, List.map_cons]
        intro same
        exact induction (indented.place _ _) later (List.cons.inj same).2

end Outline

end Flowchart
