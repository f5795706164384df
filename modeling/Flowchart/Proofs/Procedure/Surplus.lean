import Flowchart.Proofs.Outline.Raised
import Flowchart.Proofs.Procedure.Matched
import Flowchart.Proofs.Text.Tabs

/-!
The margins of bodies with tabs, and with four spaces for each of them.

A tab takes as many columns as four spaces, but the characters of a margin are compared as they are.
Where one line begins with a tab and another one with spaces, less is cut from a body than the
columns by which all its lines are indented. Spaces alone are always cut.
-/

namespace Flowchart

open Text

namespace Text

theorem commonStart_replicate (count more : Nat) :
    commonStart (List.replicate count ' ') (List.replicate more ' ') =
      List.replicate (min count more) ' ' := by
  induction count generalizing more with
  | zero => simp [commonStart]
  | succ count induction =>
      cases more with
      | zero => simp [List.replicate_succ, commonStart]
      | succ more =>
          rw [List.replicate_succ, List.replicate_succ, commonStart, if_pos rfl, induction,
            Nat.add_min_add_right, List.replicate_succ]

theorem foldl_commonStart_replicate (count : Nat) (counts : List Nat) :
    (counts.map (List.replicate · ' ')).foldl commonStart (List.replicate count ' ') =
      List.replicate (counts.foldl min count) ' ' := by
  induction counts generalizing count with
  | nil => rfl
  | cons more counts induction =>
      rw [List.map_cons, List.foldl_cons, List.foldl_cons, commonStart_replicate, induction]

end Text

namespace Outline

/-! ## The least indentation -/

def indentations (rows : List (List Char)) : List Nat :=
  (rows.filter fun line => !line.all isIndent).map indentation

def leastIndentation (rows : List (List Char)) : Nat := (indentations rows).min?.getD 0

def surplus (rows : List (List Char)) : Nat := leastIndentation rows - columns (margin rows)

theorem columns_le_of_prefix {front text : List Char} (within : front <+: text) :
    columns front ≤ columns text := by
  obtain ⟨rest, rfl⟩ := within
  rw [columns_append]
  exact Nat.le_add_right _ _

theorem columns_margin_le (rows : List (List Char)) :
    columns (margin rows) ≤ leastIndentation rows := by
  rw [leastIndentation]
  cases least : (indentations rows).min? with
  | none =>
      have nothing : rows.filter (fun line => !line.all isIndent) = [] := by
        rw [List.min?_eq_none_iff, indentations, List.map_eq_nil_iff] at least
        exact least
      rw [margin, nothing]
      exact Nat.le_refl 0
  | some width =>
      have member := List.min?_mem least
      obtain ⟨line, kept, rfl⟩ := List.mem_map.mp member
      obtain ⟨inRows, more⟩ := List.mem_filter.mp kept
      have within := margin_prefix inRows (by simpa using more)
      exact columns_le_of_prefix within

theorem columns_margin_add_surplus (rows : List (List Char)) :
    columns (margin rows) + surplus rows = leastIndentation rows :=
  Nat.add_sub_cancel' (columns_margin_le rows)

theorem further_further (shift more : Nat) (views : List (Nat × List Char)) :
    further shift (further more views) = further (shift + more) views := by
  rw [further, further, further, List.map_map]
  apply List.map_congr_left
  rintro ⟨width, text⟩ _
  simp [Nat.add_comm shift more, Nat.add_assoc]

theorem further_zero (views : List (Nat × List Char)) : further 0 views = views :=
  List.map_id views

end Outline

namespace Procedure

open Outline

/-! ## Lines without tabs -/

/-- A line, and the line with four spaces for each tab that it starts with. -/
def Expanded (line other : List Char) : Prop := other = expandLine line

theorem sameReading_of_expanded {line other : List Char} (expanded : Expanded line other) :
    SameReading line other := by
  subst expanded
  have split : line = line.takeWhile isBlank ++ line.dropWhile isBlank :=
    List.takeWhile_append_dropWhile.symm
  have blank : ∀ c ∈ line.takeWhile isBlank, isBlank c = true := fun c member =>
    List.mem_takeWhile_imp member
  have expandedBlank := isBlank_of_mem_expandLine line
  have noMore : (line.dropWhile isBlank).takeWhile isBlank = [] := by
    have first := head?_dropWhile_isBlank line
    cases left : line.dropWhile isBlank with
    | nil => rfl
    | cons c rest =>
        rw [left, List.head?_cons, Option.any_some] at first
        exact List.takeWhile_cons_of_neg (by simp [first])
  refine ⟨all_isBlank_expandLine line, ?_, ?_, ?_, ?_, ?_⟩
  · rw [leadingWidth, leadingWidth, expandLine_eq, List.takeWhile_append_of_pos expandedBlank,
      noMore, List.append_nil, columns_expandLine]
  · rw [indentation, takeWhile_isIndent_expandLine, columns_replicate]
  · rw [expandLine_eq, content_append_of_isBlank expandedBlank,
      ← content_append_of_isBlank blank, ← split]
  · rw [expandLine_eq, Header.read?_append_of_isBlank expandedBlank,
      ← Header.read?_append_of_isBlank blank, ← split]
  · rw [expandLine_eq, isEndLine_append_of_isBlank expandedBlank,
      ← isEndLine_append_of_isBlank blank, ← split]

theorem spaced_map_expandLine (rows : List (List Char)) :
    Spaced Expanded rows (rows.map expandLine) := by
  induction rows with
  | nil => exact .nil
  | cons line rows induction => exact .line rfl induction

theorem spaced_expandTabs (text : List Char) :
    Spaced Expanded (lines text) (lines (expandTabs text)) := by
  rw [lines_expandTabs]
  exact spaced_map_expandLine (lines text)

section

variable {rows others : List (List Char)}

theorem Spaced.margin_of_expanded (spaced : Spaced Expanded rows others) :
    margin others = List.replicate (leastIndentation rows) ' ' := by
  have begins {line other : List Char} (expanded : Expanded line other) :
      other.all isIndent = line.all isIndent ∧
        other.takeWhile isIndent = List.replicate (indentation line) ' ' := by
    subst expanded
    exact ⟨all_isIndent_expandLine line, takeWhile_isIndent_expandLine line⟩
  have starts : (others.filter fun line => !line.all isIndent).map (·.takeWhile isIndent) =
      (indentations rows).map (List.replicate · ' ') := by
    rw [spaced.starts_eq begins, indentations, List.map_map]
    rfl
  rw [margin, starts, leastIndentation]
  cases indentations rows with
  | nil => rfl
  | cons width widths => exact foldl_commonStart_replicate width widths

/-- With the margins cut, the lines with tabs stand further in, by the surplus. -/
theorem Spaced.seen_dedentLines_of_expanded (spaced : Spaced Expanded rows others) :
    seen indentation (dedentLines rows) =
      further (surplus rows) (seen indentation (dedentLines others)) := by
  -- With the columns of both margins put back, the same is seen of the lines.
  apply further_injective (columns (margin rows))
  rw [further_further, columns_margin_add_surplus,
    further_seen_dedentLines isMeasure_indentation,
    ← spaced.seen_indentation sameReading_of_expanded,
    ← further_seen_dedentLines isMeasure_indentation, spaced.margin_of_expanded, columns_replicate]

end

/-! ## Bodies -/

def floorLine? (rows : List (List Char)) : Option (Nat × List Char) :=
  floor? (leastIndentation rows) (seen indentation rows)

/-- A body of lines some of which begin with tabs and others with spaces, so that the first of the
least indented ones opens a level. -/
def ShowsSurplus (rows : List (List Char)) : Prop :=
  0 < surplus rows ∧ floorLine? rows ≠ none

instance (rows : List (List Char)) : Decidable (ShowsSurplus rows) :=
  inferInstanceAs (Decidable (_ ∧ _))

theorem floorLine?_eq_none_iff {rows others : List (List Char)}
    (spaced : Spaced Expanded rows others) :
    floorLine? rows = none ↔ floor? 0 (seen indentation (dedentLines others)) = none := by
  have views : seen indentation rows =
      further (leastIndentation rows) (seen indentation (dedentLines others)) := by
    rw [← spaced.seen_indentation sameReading_of_expanded,
      ← further_seen_dedentLines isMeasure_indentation, spaced.margin_of_expanded,
      columns_replicate]
  rw [floorLine?, views, floor?_further_eq_none_iff]

section

variable {body bodyToo : List (List Char)} (spaced : Spaced Expanded body bodyToo)
  (unbroken : Unbroken body) (unbrokenToo : Unbroken bodyToo)
include spaced unbroken unbrokenToo

theorem outline_dedent_of_not_showsSurplus (even : ¬ShowsSurplus body) :
    outline (dedent (joinLines bodyToo)) = outline (dedent (joinLines body)) := by
  rw [outline_dedent unbroken, outline_dedent unbrokenToo, spaced.seen_dedentLines_of_expanded]
  rcases Nat.eq_zero_or_pos (surplus body) with none | some
  · rw [none, further_zero]
  · have noFloor : floorLine? body = Option.none := by
      cases floor : floorLine? body with
      | none => rfl
      | some view => exact absurd ⟨some, by simp [floor]⟩ even
    rw [floorLine?_eq_none_iff spaced] at noFloor
    exact (blocksOf_raised_of_floor?_eq_none some (List.forall_mem_nil _) noFloor).symm

theorem levels_outline_dedent_ne (uneven : ShowsSurplus body) :
    (outline (dedent (joinLines bodyToo))).map (·.level) ≠
      (outline (dedent (joinLines body))).map (·.level) := by
  obtain ⟨some, floor⟩ := uneven
  rw [ne_eq, floorLine?_eq_none_iff spaced] at floor
  rw [outline_dedent unbroken, outline_dedent unbrokenToo, spaced.seen_dedentLines_of_expanded]
  exact (levels_blocksOf_raised_ne some (List.forall_mem_nil _) floor).symm

end

end Procedure

end Flowchart
