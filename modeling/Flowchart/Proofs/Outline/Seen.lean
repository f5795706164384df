import Flowchart.Proofs.Text.Margin
import Mathlib.Data.List.Basic

/-!
What is seen of the lines of a text: of every line that is not blank its width, measured in one way
or another, and its text.

The outline sees the indentation, the analysis of a body all white space before the text. Cutting
the margin from lines takes the same number of columns from all widths.
-/

namespace Flowchart.Outline

open Text

theorem columns_append (front back : List Char) :
    columns (front ++ back) = columns front + columns back := by
  induction front with
  | nil => exact (Nat.zero_add _).symm
  | cons c rest induction => rw [List.cons_append, columns, columns, induction, Nat.add_assoc]

/-! ## Widths -/

def IsMeasure (measure : List Char → Nat) : Prop :=
  ∀ front line, (∀ c ∈ front, isIndent c = true) →
    measure (front ++ line) = columns front + measure line

theorem isMeasure_indentation : IsMeasure indentation := by
  intro front line indents
  rw [indentation, indentation, List.takeWhile_append_of_pos indents, columns_append]

theorem isMeasure_leadingWidth : IsMeasure leadingWidth := by
  intro front line indents
  have blank : ∀ c ∈ front, isBlank c = true := fun c member =>
    isBlank_of_isIndent (indents c member)
  rw [leadingWidth, leadingWidth, List.takeWhile_append_of_pos blank, columns_append]

/-! ## Lines as they are seen -/

def seen? (measure : List Char → Nat) (line : List Char) : Option (Nat × List Char) :=
  if (content line).isEmpty then none else some (measure line, content line)

def seen (measure : List Char → Nat) (rows : List (List Char)) : List (Nat × List Char) :=
  rows.filterMap (seen? measure)

def further (shift : Nat) (lines : List (Nat × List Char)) : List (Nat × List Char) :=
  lines.map fun (width, text) => (width + shift, text)

theorem further_injective (shift : Nat) {views others : List (Nat × List Char)}
    (same : further shift others = further shift views) : others = views := by
  apply List.map_injective_iff.mpr _ same
  rintro ⟨width, text⟩ ⟨widthToo, textToo⟩ equal
  simpa using equal

def blocksOf (ladder : Ladder) : List (Nat × List Char) → List Block
  | [] => []
  | (width, text) :: rest =>
      let ladder := ladder.place width (isBranchLine text)
      block text ladder.top.level :: blocksOf ladder rest

section

variable {measure : List Char → Nat} {rows : List (List Char)}

theorem blocksFrom_eq (ladder : Ladder) (rows : List (List Char)) :
    blocksFrom ladder rows = blocksOf ladder (seen indentation rows) := by
  induction rows generalizing ladder with
  | nil => rfl
  | cons line rest induction =>
      rw [blocksFrom, seen, List.filterMap_cons, seen?]
      dsimp only
      split
      · exact induction ladder
      · rw [induction]
        rfl

theorem seen_eq (measure : List Char → Nat) (rows : List (List Char)) :
    seen measure rows = (rows.filter fun line => !(content line).isEmpty).map fun line =>
      (measure line, content line) := by
  induction rows with
  | nil => rfl
  | cons line rest induction =>
      rw [seen, List.filterMap_cons, seen?, List.filter_cons]
      rw [seen] at induction
      cases (content line).isEmpty <;> simp [induction]

theorem seen_lines_joinLines (measure : List Char → Nat)
    (unbroken : ∀ line ∈ rows, ∀ c ∈ line, isLineBreak c = false) :
    seen measure (lines (joinLines rows)) = seen measure rows := by
  rw [seen_eq, seen_eq, filter_lines_joinLines _ (by decide) rows unbroken]

theorem unbroken_dedentLines (unbroken : ∀ line ∈ rows, ∀ c ∈ line, isLineBreak c = false) :
    ∀ line ∈ dedentLines rows, ∀ c ∈ line, isLineBreak c = false := by
  intro line member c inLine
  rw [dedentLines_eq] at member
  obtain ⟨row, inRows, rfl⟩ := List.mem_map.mp member
  obtain ⟨front, split, _⟩ := exists_behindMargin inRows
  exact unbroken row inRows c (split ▸ List.mem_append_right front inLine)

theorem seen_lines_dedent (measure : List Char → Nat)
    (unbroken : ∀ line ∈ rows, ∀ c ∈ line, isLineBreak c = false) :
    seen measure (lines (dedent (joinLines rows))) = seen measure (dedentLines rows) := by
  by_cases none : rows = []
  · subst none
    rfl
  · have noNewline : ∀ line ∈ rows, '\n' ∉ line := fun line member inLine =>
      absurd (unbroken line member '\n' inLine) (by decide)
    rw [dedent, pieces_joinLines none noNewline,
      seen_lines_joinLines measure (unbroken_dedentLines unbroken)]

theorem outline_joinLines (unbroken : ∀ line ∈ rows, ∀ c ∈ line, isLineBreak c = false) :
    outline (joinLines rows) = blocksOf [] (seen indentation rows) := by
  rw [outline, blocksFrom_eq, seen_lines_joinLines _ unbroken]

theorem outline_dedent (unbroken : ∀ line ∈ rows, ∀ c ∈ line, isLineBreak c = false) :
    outline (dedent (joinLines rows)) = blocksOf [] (seen indentation (dedentLines rows)) := by
  rw [outline, blocksFrom_eq, seen_lines_dedent _ unbroken]

theorem margin_append_behindMargin {line : List Char} (member : line ∈ rows)
    (more : line.all isIndent = false) :
    margin rows ++ behindMargin (margin rows).length line = line := by
  have inIndent := margin_prefix member more
  have within := inIndent.trans (List.takeWhile_prefix _)
  rw [behindMargin, if_neg (by simp [more])]
  exact List.prefix_iff_eq_append.mp within

theorem isIndent_of_mem_margin {line : List Char} (member : line ∈ rows)
    (more : line.all isIndent = false) : ∀ c ∈ margin rows, isIndent c = true := by
  intro c inMargin
  have inIndent := margin_prefix member more
  exact List.mem_takeWhile_imp (inIndent.subset inMargin)

theorem content_of_all_isIndent {line : List Char} (only : line.all isIndent = true) :
    content line = [] := by
  have blank : ∀ c ∈ line, isBlank c = true := fun c inLine =>
    isBlank_of_isIndent (List.all_eq_true.mp only c inLine)
  rw [← List.append_nil line, content_append_of_isBlank blank]
  rfl

theorem further_seen_dedentLines (isMeasure : IsMeasure measure) (rows : List (List Char)) :
    further (columns (margin rows)) (seen measure (dedentLines rows)) = seen measure rows := by
  rw [further, seen, seen, dedentLines_eq, List.filterMap_map, List.map_filterMap]
  apply List.filterMap_congr
  intro line member
  dsimp only [Function.comp_apply]
  cases only : line.all isIndent with
  | true =>
      have nothing : behindMargin (margin rows).length line = [] := if_pos only
      rw [nothing, seen?, seen?, content_of_all_isIndent only]
      rfl
  | false =>
      have split := margin_append_behindMargin member only
      have indents := isIndent_of_mem_margin member only
      have blank : ∀ c ∈ margin rows, isBlank c = true := fun c inMargin =>
        isBlank_of_isIndent (indents c inMargin)
      have sameContent := content_append_of_isBlank blank (behindMargin (margin rows).length line)
      have width := isMeasure (margin rows) (behindMargin (margin rows).length line) indents
      rw [split] at sameContent width
      rw [seen?, seen?, sameContent, width, Nat.add_comm]
      split <;> rfl

end

end Flowchart.Outline
