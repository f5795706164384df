import Flowchart.Outline
import Mathlib.Data.List.Basic

/-!
Ladders: the rungs that stay open at a line, and what a line leaves of them.
-/

namespace Flowchart.Outline

def Ladder.cut (ladder : Ladder) (width : Nat) : Ladder :=
  ladder.dropWhile fun rung => width < rung.width

namespace Ladder

variable {ladder base : Ladder} {width deeper : Nat}

theorem cut_of_top (within : ladder.top.width ≤ width) : ladder.cut width = ladder := by
  cases ladder with
  | nil => rfl
  | cons rung rest =>
      have within : rung.width ≤ width := within
      rw [cut, List.dropWhile_cons_of_neg (by simpa using within)]

theorem cut_cut (wider : width ≤ deeper) : (ladder.cut deeper).cut width = ladder.cut width := by
  induction ladder with
  | nil => rfl
  | cons rung rest induction =>
      by_cases above : deeper < rung.width
      · have closes : cut (rung :: rest) deeper = cut rest deeper := by
          rw [cut, List.dropWhile_cons_of_pos (by simpa using above), cut]
        have closesToo : cut (rung :: rest) width = cut rest width := by
          rw [cut, List.dropWhile_cons_of_pos (by simpa using Nat.lt_of_le_of_lt wider above), cut]
        rw [closes, closesToo, induction]
      · have stays : cut (rung :: rest) deeper = rung :: rest := by
          rw [cut, List.dropWhile_cons_of_neg (by simpa using above)]
        rw [stays]

theorem place_of_cut (same : ladder.cut width = base) (top : base.top.width = width)
    (branch : Bool) : ladder.place width branch = base := by
  rw [cut] at same
  simp only [place, same, top, Nat.lt_irrefl, if_false]

theorem place_deeper (wider : base.top.width < deeper) (branch : Bool) :
    base.place deeper branch =
      ⟨deeper, if branch then base.top.level else base.top.level + 1⟩ :: base := by
  have same := cut_of_top (Nat.le_of_lt wider)
  rw [cut] at same
  simp only [place, same, wider, if_true]

theorem cut_place (wider : width < deeper) (branch : Bool) :
    (ladder.place deeper branch).cut width = ladder.cut width := by
  have within : (ladder.cut deeper).cut width = ladder.cut width := cut_cut (Nat.le_of_lt wider)
  simp only [place]
  split
  · rw [cut, List.dropWhile_cons_of_pos (by simpa using wider)]
    exact within
  · exact within

theorem place_zero (branch : Bool) : ladder.place 0 branch = ladder.cut 0 := by
  simp only [place, Nat.not_lt_zero, if_false, cut]

theorem cut_cons (level : Nat) (within : base.top.width ≤ width) (wider : width < deeper) :
    cut (⟨deeper, level⟩ :: base) width = base := by
  rw [cut, List.dropWhile_cons_of_pos (by simpa using wider)]
  exact cut_of_top within

end Ladder

end Flowchart.Outline
