import Flowchart.Proofs.Outline.Seen

/-!
Texts in which every tab in the white space at the start of a line is four spaces instead.
-/

namespace Flowchart.Text

def tabSpaces : List Char := List.replicate 4 ' '

def expandLine : List Char → List Char
  | [] => []
  | c :: rest =>
      if c = '\t' then tabSpaces ++ expandLine rest
      else if isBlank c then c :: expandLine rest
      else c :: rest

def expandFrom (leading : Bool) : List Char → List Char
  | [] => []
  | c :: rest =>
      if isLineBreak c then c :: expandFrom true rest
      else if leading && c = '\t' then tabSpaces ++ expandFrom true rest
      else c :: expandFrom (leading && isBlank c) rest

def expandTabs (text : List Char) : List Char := expandFrom true text

/-! ## Lines -/

theorem expandLine_concat (front : List Char) (c : Char) :
    expandLine (front ++ [c]) =
      expandLine front ++ if front.all isBlank && c = '\t' then tabSpaces else [c] := by
  induction front with
  | nil =>
      rw [List.nil_append, expandLine, expandLine]
      by_cases tab : c = '\t'
      · simp [tab, expandLine]
      · simp [tab, expandLine]
  | cons first front induction =>
      rw [List.cons_append, expandLine, expandLine]
      by_cases tab : first = '\t'
      · have blank : isBlank first = true := by
          rw [tab]
          decide
        rw [if_pos tab, if_pos tab, induction, List.append_assoc, List.all_cons, blank,
          Bool.true_and]
      · rw [if_neg tab, if_neg tab]
        cases blank : isBlank first with
        | true =>
            rw [if_pos rfl, if_pos rfl, induction, List.cons_append, List.all_cons, blank,
              Bool.true_and]
        | false =>
            rw [if_neg Bool.false_ne_true, if_neg Bool.false_ne_true, List.all_cons, blank]
            rfl

theorem expandLine_eq_nil_iff {line : List Char} : expandLine line = [] ↔ line = [] := by
  cases line with
  | nil => exact Iff.rfl
  | cons c rest =>
      rw [expandLine]
      split
      · simp [tabSpaces]
      split <;> simp

theorem exists_of_expandFrom_eq_newline {leading : Bool} {text more : List Char}
    (newline : expandFrom leading text = '\n' :: more) : ∃ rest, text = '\n' :: rest := by
  cases text with
  | nil => cases newline
  | cons c rest =>
      rw [expandFrom] at newline
      split at newline
      · rw [(List.cons.inj newline).1]
        exact ⟨rest, rfl⟩
      split at newline
      · cases newline
      · rw [(List.cons.inj newline).1]
        exact ⟨rest, rfl⟩

theorem linesAfter_expandFrom (before text : List Char) :
    linesAfter (expandLine before.reverse).reverse (expandFrom (before.all isBlank) text) =
      (linesAfter before text).map expandLine := by
  induction before, text using linesAfter.induct with
  | case1 before empty =>
      rw [List.isEmpty_iff.mp empty]
      rfl
  | case2 before some =>
      have kept : (expandLine before.reverse).reverse.isEmpty = false := by
        rw [List.isEmpty_reverse, List.isEmpty_eq_false_iff, ne_eq, expandLine_eq_nil_iff,
          List.reverse_eq_nil_iff, ← List.isEmpty_iff]
        exact some
      rw [expandFrom, linesAfter, linesAfter, kept, if_neg Bool.false_ne_true, if_neg some,
        List.reverse_reverse]
      rfl
  | case3 before rest induction =>
      have returns : isLineBreak '\r' = true := by decide
      have feeds : isLineBreak '\n' = true := by decide
      rw [expandFrom, if_pos returns, expandFrom, if_pos feeds, linesAfter, linesAfter,
        List.reverse_reverse, List.map_cons]
      exact congrArg _ induction
  | case4 before c rest noReturn isBreak induction =>
      rw [expandFrom, if_pos isBreak, linesAfter, if_pos isBreak, linesAfter, if_pos isBreak,
        List.reverse_reverse, List.map_cons]
      · exact congrArg _ induction
      · exact noReturn
      · -- A line feed behind a carriage return was there before.
        intro more isReturn newline
        obtain ⟨others, split⟩ := exists_of_expandFrom_eq_newline newline
        exact noReturn others isReturn split
  | case5 before c rest noReturn noBreak induction =>
      have spaces : ∀ space ∈ tabSpaces, isLineBreak space = false := by
        intro space member
        rw [List.eq_of_mem_replicate member]
        decide
      have own : ∀ other ∈ [c], isLineBreak other = false := by
        intro other member
        rw [List.mem_singleton.mp member]
        exact Bool.eq_false_iff.mpr noBreak
      rw [List.reverse_cons, expandLine_concat, List.all_reverse] at induction
      rw [expandFrom, if_neg noBreak, linesAfter, if_neg noBreak, ← induction, List.all_cons,
        Bool.and_comm (isBlank c), List.reverse_append]
      · split
        · rename_i tab
          rw [Bool.and_eq_true, decide_eq_true_eq] at tab
          have blank : isBlank c = true := by
            rw [tab.2]
            decide
          rw [linesAfter_append _ _ _ spaces, tab.1, blank, Bool.and_true]
        · exact linesAfter_append _ [c] _ own
      · exact noReturn

theorem lines_expandTabs (text : List Char) :
    lines (expandTabs text) = (lines text).map expandLine :=
  linesAfter_expandFrom [] text

/-! ## White space -/

theorem expandLine_eq (line : List Char) :
    expandLine line = expandLine (line.takeWhile isBlank) ++ line.dropWhile isBlank := by
  induction line with
  | nil => rfl
  | cons c rest induction =>
      rw [expandLine]
      by_cases tab : c = '\t'
      · have blank : isBlank c = true := by
          rw [tab]
          decide
        rw [if_pos tab, induction, List.takeWhile_cons_of_pos blank,
          List.dropWhile_cons_of_pos blank, expandLine, if_pos tab, List.append_assoc]
      rw [if_neg tab]
      cases blank : isBlank c with
      | true =>
          rw [if_pos rfl, induction, List.takeWhile_cons_of_pos blank,
            List.dropWhile_cons_of_pos blank, expandLine, if_neg tab, blank, if_pos rfl,
            List.cons_append]
      | false =>
          rw [if_neg Bool.false_ne_true, List.takeWhile_cons_of_neg (by simp [blank]),
            List.dropWhile_cons_of_neg (by simp [blank])]
          rfl

theorem all_isBlank_expandLine (line : List Char) :
    (expandLine line).all isBlank = line.all isBlank := by
  induction line with
  | nil => rfl
  | cons c rest induction =>
      rw [expandLine]
      split
      · rename_i tab
        rw [List.all_append, induction, tab]
        rfl
      split
      · rw [List.all_cons, List.all_cons, induction]
      · rfl

theorem all_isIndent_expandLine (line : List Char) :
    (expandLine line).all isIndent = line.all isIndent := by
  induction line with
  | nil => rfl
  | cons c rest induction =>
      rw [expandLine]
      split
      · rename_i tab
        rw [List.all_append, induction, tab]
        rfl
      split
      · rw [List.all_cons, List.all_cons, induction]
      · rfl

theorem isBlank_of_mem_expandLine (line : List Char) :
    ∀ c ∈ expandLine (line.takeWhile isBlank), isBlank c = true := by
  apply List.all_eq_true.mp
  rw [all_isBlank_expandLine]
  exact List.all_takeWhile

end Flowchart.Text

namespace Flowchart.Outline

open Text

theorem columns_replicate (count : Nat) : columns (List.replicate count ' ') = count := by
  induction count with
  | zero => rfl
  | succ count induction =>
      rw [List.replicate_succ, columns, induction, if_neg (by decide), Nat.add_comm]

theorem columns_expandLine (line : List Char) : columns (expandLine line) = columns line := by
  induction line with
  | nil => rfl
  | cons c rest induction =>
      rw [expandLine, columns]
      split
      · rw [tabSpaces, columns_append, columns_replicate, induction]
      · rename_i tab
        split
        · rw [columns, if_neg tab, induction]
        · rw [columns, if_neg tab]

theorem takeWhile_isIndent_expandLine (line : List Char) :
    (expandLine line).takeWhile isIndent = List.replicate (indentation line) ' ' := by
  induction line with
  | nil => rfl
  | cons c rest induction =>
      rw [expandLine, indentation]
      by_cases tab : c = '\t'
      · have indents : isIndent c = true := by
          rw [tab]
          decide
        have spaces : ∀ space ∈ tabSpaces, isIndent space = true := by
          intro space member
          rw [List.eq_of_mem_replicate member]
          decide
        rw [if_pos tab, List.takeWhile_append_of_pos spaces, induction,
          List.takeWhile_cons_of_pos indents, columns, if_pos tab, List.replicate_add]
        rfl
      rw [if_neg tab]
      by_cases space : c = ' '
      · have indents : isIndent c = true := by
          rw [space]
          decide
        rw [if_pos (isBlank_of_isIndent indents), List.takeWhile_cons_of_pos indents, induction,
          List.takeWhile_cons_of_pos indents, columns, if_neg tab, Nat.add_comm,
          List.replicate_succ, ← space]
        rfl
      · have noIndent : ¬isIndent c = true := by simp [isIndent, tab, space]
        rw [List.takeWhile_cons_of_neg noIndent]
        split
        · exact List.takeWhile_cons_of_neg noIndent
        · exact List.takeWhile_cons_of_neg noIndent

end Flowchart.Outline
