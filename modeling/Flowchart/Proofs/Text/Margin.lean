import Flowchart.Proofs.Text.Lines
import Mathlib.Data.List.TakeWhile

/-!
Margins that are cut from lines, and the text of a line.

The margin of some lines is indentation that each of them begins with, apart from those that hold
nothing else. Cutting it leaves the text of every line as it is.
-/

namespace Flowchart.Text

/-! ## White space around a text -/

theorem trim_append_of_isBlank {front : List Char} (blank : ∀ c ∈ front, isBlank c = true)
    (text : List Char) : trim (front ++ text) = trim text := by
  have nothing : front.dropWhile isBlank = [] := List.dropWhile_eq_nil_iff.mpr blank
  rw [trim, trim, trimStart, trimStart, List.dropWhile_append, nothing, List.isEmpty_nil,
    if_pos rfl]

theorem exists_trimEnd (text : List Char) :
    ∃ back, text = trimEnd text ++ back ∧ ∀ c ∈ back, isBlank c = true := by
  refine ⟨(text.reverse.takeWhile isBlank).reverse, ?_, ?_⟩
  · rw [trimEnd, ← List.reverse_append, List.takeWhile_append_dropWhile, List.reverse_reverse]
  · intro c member
    exact List.mem_takeWhile_imp (List.mem_reverse.mp member)

theorem exists_trim (text : List Char) :
    ∃ front back, text = front ++ (trim text ++ back) ∧ (∀ c ∈ front, isBlank c = true) ∧
      ∀ c ∈ back, isBlank c = true := by
  rcases exists_trimEnd (trimStart text) with ⟨back, split, blank⟩
  refine ⟨text.takeWhile isBlank, back, ?_, fun c member => List.mem_takeWhile_imp member, blank⟩
  rw [trim, ← split, trimStart, List.takeWhile_append_dropWhile]

/-! ## Margins -/

theorem isInfix_trimEnd (text : List Char) : trimEnd text <:+: text := by
  rcases exists_trimEnd text with ⟨back, split, _⟩
  exact ⟨[], back, split.symm⟩

theorem isInfix_trim (text : List Char) : trim text <:+: text := by
  rcases exists_trim text with ⟨front, back, split, _⟩
  exact ⟨front, back, by rw [List.append_assoc]; exact split.symm⟩

theorem isBlank_of_isIndent {c : Char} (indents : isIndent c = true) : isBlank c = true := by
  rcases Bool.or_eq_true_iff.mp indents with space | tab
  · rw [of_decide_eq_true space]
    decide
  · rw [of_decide_eq_true tab]
    decide

theorem commonStart_prefix (left right : List Char) :
    commonStart left right <+: left ∧ commonStart left right <+: right := by
  induction left generalizing right with
  | nil => exact ⟨List.nil_prefix, List.nil_prefix⟩
  | cons c left induction =>
      cases right with
      | nil => exact ⟨List.nil_prefix, List.nil_prefix⟩
      | cons other right =>
          rw [commonStart]
          split
          · rename_i same
            have later := induction right
            exact ⟨List.cons_prefix_cons.mpr ⟨rfl, later.1⟩,
              List.cons_prefix_cons.mpr ⟨same, later.2⟩⟩
          · exact ⟨List.nil_prefix, List.nil_prefix⟩

theorem foldl_commonStart_prefix (first : List Char) (others : List (List Char)) :
    others.foldl commonStart first <+: first ∧
      ∀ other ∈ others, others.foldl commonStart first <+: other := by
  induction others generalizing first with
  | nil => exact ⟨List.prefix_rfl, nofun⟩
  | cons next others induction =>
      rcases induction (commonStart first next) with ⟨ofBoth, ofOthers⟩
      have both := commonStart_prefix first next
      refine ⟨ofBoth.trans both.1, fun other member => ?_⟩
      rcases List.mem_cons.mp member with rfl | later
      · exact ofBoth.trans both.2
      · exact ofOthers other later

/-- A line with more than indentation begins with the margin, inside its own indentation. -/
theorem margin_prefix {lines : List (List Char)} {line : List Char} (member : line ∈ lines)
    (some : line.all isIndent = false) : margin lines <+: line.takeWhile isIndent := by
  have among : line.takeWhile isIndent ∈
      (lines.filter fun line => !line.all isIndent).map (·.takeWhile isIndent) :=
    List.mem_map_of_mem (List.mem_filter.mpr ⟨member, by simp [some]⟩)
  unfold margin
  split
  · rename_i none
    rw [none] at among
    cases among
  · rename_i first others split
    rw [split] at among
    have common := foldl_commonStart_prefix first others
    rcases List.mem_cons.mp among with same | later
    · exact same ▸ common.1
    · exact common.2 _ later

def behindMargin (cut : Nat) (line : List Char) : List Char :=
  if line.all isIndent then [] else line.drop cut

theorem dedentLines_eq (lines : List (List Char)) :
    dedentLines lines = lines.map (behindMargin (margin lines).length) := rfl

theorem exists_behindMargin {lines : List (List Char)} {line : List Char} (member : line ∈ lines) :
    ∃ front, line = front ++ behindMargin (margin lines).length line ∧
      ∀ c ∈ front, isBlank c = true := by
  rw [behindMargin]
  split
  · rename_i only
    refine ⟨line, (List.append_nil line).symm, fun c inLine => ?_⟩
    exact isBlank_of_isIndent (List.all_eq_true.mp only c inLine)
  · rename_i some
    have within := margin_prefix member (Bool.eq_false_iff.mpr some)
    refine ⟨line.take (margin lines).length, (List.take_append_drop _ line).symm,
      fun c inFront => ?_⟩
    have front : line.take (margin lines).length = margin lines :=
      List.prefix_iff_eq_take.mp (within.trans (List.takeWhile_prefix _)) |>.symm
    rw [front] at inFront
    exact isBlank_of_isIndent (List.mem_takeWhile_imp (within.subset inFront))

/-! ## Pieces -/

theorem pieces_of_not_mem {separator : Char} {text : List Char} (free : separator ∉ text) :
    pieces separator text = [text] := by
  induction text with
  | nil => rfl
  | cons c text induction =>
      rw [List.mem_cons, not_or] at free
      rw [pieces, if_neg (Ne.symm free.1), induction free.2]

theorem pieces_append {separator : Char} {text rest : List Char} (free : separator ∉ text) :
    pieces separator (text ++ separator :: rest) = text :: pieces separator rest := by
  induction text with
  | nil => rw [List.nil_append, pieces, if_pos rfl]
  | cons c text induction =>
      rw [List.mem_cons, not_or] at free
      rw [List.cons_append, pieces, if_neg (Ne.symm free.1), induction free.2]

theorem pieces_joinLines {rows : List (List Char)} (some : rows ≠ [])
    (unbroken : ∀ line ∈ rows, '\n' ∉ line) : pieces '\n' (joinLines rows) = rows := by
  induction rows with
  | nil => exact absurd rfl some
  | cons line rows induction =>
      have own := unbroken line List.mem_cons_self
      cases rows with
      | nil => rw [joinLines, List.intercalate_singleton, pieces_of_not_mem own]
      | cons next rows =>
          have joined : joinLines (line :: next :: rows) =
              line ++ '\n' :: joinLines (next :: rows) := by
            simp [joinLines, List.intercalate_cons_cons]
          rw [joined, pieces_append own, induction (List.cons_ne_nil _ _) fun other member =>
            unbroken other (List.mem_cons_of_mem _ member)]

/-! ## Dedented lines -/

theorem dedent_joinLines {rows : List (List Char)} (some : rows ≠ [])
    (noNewline : ∀ line ∈ rows, '\n' ∉ line) :
    dedent (joinLines rows) = joinLines (rows.map (behindMargin (margin rows).length)) := by
  rw [dedent, pieces_joinLines some noNewline, dedentLines_eq]

section

variable {rows : List (List Char)}
  (unbroken : ∀ line ∈ rows, ∀ c ∈ line, isLineBreak c = false)
include unbroken

theorem newline_not_mem : ∀ line ∈ rows, '\n' ∉ line := fun line member inLine =>
  absurd (unbroken line member '\n' inLine) (by decide)

theorem unbroken_behindMargin :
    ∀ line ∈ rows.map (behindMargin (margin rows).length), ∀ c ∈ line, isLineBreak c = false := by
  intro line member c inLine
  rcases List.mem_map.mp member with ⟨row, inRows, rfl⟩
  rcases exists_behindMargin inRows with ⟨front, split, _⟩
  exact unbroken row inRows c (split ▸ List.mem_append_right front inLine)

end

theorem exists_mem_lines_joinLines_iff {property : List Char → Prop} (ofEmpty : ¬property [])
    {rows : List (List Char)} (unbroken : ∀ line ∈ rows, ∀ c ∈ line, isLineBreak c = false) :
    (∃ line ∈ lines (joinLines rows), property line) ↔ ∃ line ∈ rows, property line := by
  classical
  have filtered := filter_lines_joinLines (fun line => decide (property line))
    (decide_eq_false ofEmpty) rows unbroken
  have kept (line : List Char) : (line ∈ lines (joinLines rows) ∧ property line) ↔
      line ∈ rows ∧ property line := by
    have same := congrArg (line ∈ ·) filtered
    simpa [List.mem_filter] using same
  exact exists_congr kept

theorem exists_mem_lines_dedent_iff {property : List Char → Prop} (ofEmpty : ¬property [])
    (before : ∀ front line, (∀ c ∈ front, isBlank c = true) →
      (property (front ++ line) ↔ property line))
    {rows : List (List Char)} (unbroken : ∀ line ∈ rows, ∀ c ∈ line, isLineBreak c = false) :
    (∃ line ∈ lines (dedent (joinLines rows)), property line) ↔ ∃ line ∈ rows, property line := by
  by_cases none : rows = []
  · have nothing : lines (dedent (joinLines [])) = [] := by decide
    rw [none, nothing]
  rw [dedent_joinLines none (newline_not_mem unbroken),
    exists_mem_lines_joinLines_iff ofEmpty (unbroken_behindMargin unbroken)]
  constructor
  · rintro ⟨line, member, holds⟩
    rcases List.mem_map.mp member with ⟨row, inRows, rfl⟩
    rcases exists_behindMargin inRows with ⟨front, split, blank⟩
    refine ⟨row, inRows, ?_⟩
    rw [split]
    exact (before front _ blank).mpr holds
  · rintro ⟨row, inRows, holds⟩
    rcases exists_behindMargin inRows with ⟨front, split, blank⟩
    rw [split] at holds
    exact ⟨_, List.mem_map_of_mem inRows, (before front _ blank).mp holds⟩

theorem mem_of_mem_lines_joinLines {rows : List (List Char)}
    (unbroken : ∀ line ∈ rows, ∀ c ∈ line, isLineBreak c = false) {line : List Char}
    (filled : line ≠ []) (member : line ∈ lines (joinLines rows)) : line ∈ rows := by
  rcases (exists_mem_lines_joinLines_iff filled unbroken).mp ⟨line, member, rfl⟩ with
    ⟨row, inRows, rfl⟩
  exact inRows

theorem exists_infix_of_mem_lines_dedent {rows : List (List Char)}
    (unbroken : ∀ line ∈ rows, ∀ c ∈ line, isLineBreak c = false) {line : List Char}
    (filled : line ≠ []) (member : line ∈ lines (dedent (joinLines rows))) :
    ∃ row ∈ rows, line <:+: row := by
  by_cases none : rows = []
  · have nothing : lines (dedent (joinLines [])) = [] := by decide
    rw [none, nothing] at member
    cases member
  · rw [dedent_joinLines none (newline_not_mem unbroken)] at member
    have kept := mem_of_mem_lines_joinLines (unbroken_behindMargin unbroken) filled member
    rcases List.mem_map.mp kept with ⟨row, inRows, rfl⟩
    rcases exists_behindMargin inRows with ⟨front, split, _⟩
    have ending : behindMargin (margin rows).length row <:+ row := ⟨front, split.symm⟩
    exact ⟨row, inRows, ending.isInfix⟩

end Flowchart.Text

namespace Flowchart.Outline

open Text

theorem exists_content (line : List Char) :
    ∃ front back, line = front ++ (content line ++ back) ∧ (∀ c ∈ front, isBlank c = true) ∧
      ∀ c ∈ back, isBlank c = true ∨ c = ':' := by
  rcases exists_trim line with ⟨front, back, split, frontBlank, backBlank⟩
  rw [content]
  split
  · rename_i rest reversed
    have isTrimmed : trim line = rest.reverse ++ [':', ':'] := by
      rw [← List.reverse_reverse (trim line), reversed]
      simp
    rcases exists_trimEnd rest.reverse with ⟨space, isEnd, spaceBlank⟩
    refine ⟨front, space ++ [':', ':'] ++ back, ?_, frontBlank, fun c member => ?_⟩
    · calc line = front ++ (rest.reverse ++ [':', ':'] ++ back) := by rw [← isTrimmed, ← split]
        _ = front ++ (trimEnd rest.reverse ++ space ++ [':', ':'] ++ back) := by rw [← isEnd]
        _ = _ := by simp only [List.append_assoc]
    · rcases List.mem_append.mp member with inside | behind
      · rcases List.mem_append.mp inside with blank | colon
        · exact .inl (spaceBlank c blank)
        · simp only [List.mem_cons, List.not_mem_nil, or_false, or_self] at colon
          exact .inr colon
      · exact .inl (backBlank c behind)
  · exact ⟨front, back, split, frontBlank, fun c member => .inl (backBlank c member)⟩

theorem isInfix_content (line : List Char) : content line <:+: line := by
  rcases exists_content line with ⟨front, back, split, _⟩
  exact ⟨front, back, by rw [List.append_assoc]; exact split.symm⟩

theorem content_append_of_isBlank {front : List Char} (blank : ∀ c ∈ front, isBlank c = true)
    (line : List Char) : content (front ++ line) = content line := by
  rw [content, content, trim_append_of_isBlank blank]

end Flowchart.Outline
