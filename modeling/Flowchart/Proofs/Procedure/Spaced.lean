import Flowchart.Proofs.Outline.Seen
import Flowchart.Proofs.Procedure.Cycle
import Flowchart.Proofs.Procedure.Header
import Flowchart.Proofs.Recursion.Moved

/-!
The functions of a text, and those of the text with lines that read the same and more blank lines.

A header, an end line and the lines of a body are told by the text of a line and by its width. A
blank line belongs to every body and to no function alone. So each function is cut at the same lines
from both texts, with more blank lines in it.
-/

namespace Flowchart.Procedure

open Text Outline

structure SameReading (line other : List Char) : Prop where
  blank : isAllBlank other = isAllBlank line
  width : leadingWidth other = leadingWidth line
  indentation : indentation other = indentation line
  content : content other = content line
  header : Header.read? other = Header.read? line
  ending : isEndLine other = isEndLine line

inductive Spaced (related : List Char → List Char → Prop) :
    List (List Char) → List (List Char) → Prop
  | nil : Spaced related [] []
  | line {line other : List Char} {rows others : List (List Char)} (same : related line other)
      (rest : Spaced related rows others) : Spaced related (line :: rows) (other :: others)
  | blank {line : List Char} {rows others : List (List Char)} (only : line.all isIndent = true)
      (rest : Spaced related rows others) : Spaced related rows (line :: others)

/-! ## Blank lines -/

theorem isAllBlank_of_all_isIndent {line : List Char} (only : line.all isIndent = true) :
    isAllBlank line = true :=
  List.all_eq_true.mpr fun c inLine => isBlank_of_isIndent (List.all_eq_true.mp only c inLine)

theorem trimBody_cons (line : List Char) (rest : List (List Char)) :
    trimBody (line :: rest) =
      if (line :: rest).all isAllBlank then [] else line :: trimBody rest := by
  rw [trimBody, trimBody, List.reverse_cons, List.dropWhile_append, List.all_cons]
  cases left : rest.reverse.dropWhile isAllBlank with
  | nil =>
      have blank : rest.all isAllBlank = true := by
        apply List.all_eq_true.mpr
        intro other member
        exact List.dropWhile_eq_nil_iff.mp left other (List.mem_reverse.mpr member)
      rw [List.isEmpty_nil, if_pos rfl, blank, Bool.and_true]
      cases own : isAllBlank line <;> simp [own]
  | cons other more =>
      have nonblank : rest.all isAllBlank = false := by
        apply Bool.eq_false_iff.mpr
        intro blank
        have nothing : rest.reverse.dropWhile isAllBlank = [] := by
          apply List.dropWhile_eq_nil_iff.mpr
          intro other member
          exact List.all_eq_true.mp blank other (List.mem_reverse.mp member)
        rw [left] at nothing
        cases nothing
      rw [List.isEmpty_cons, if_neg Bool.false_ne_true, nonblank, Bool.and_false,
        if_neg Bool.false_ne_true, List.reverse_append]
      rfl

theorem trimBody_of_all_isAllBlank {body : List (List Char)} (blank : body.all isAllBlank = true) :
    trimBody body = [] := by
  cases body with
  | nil => rfl
  | cons line rest => rw [trimBody_cons, if_pos blank]

section

variable {related : List Char → List Char → Prop}

/-! ## Bodies -/

theorem Spaced.seen_eq {measure : List Char → Nat}
    (same : ∀ {line other}, related line other → seen? measure other = seen? measure line)
    {rows others : List (List Char)} (spaced : Spaced related rows others) :
    seen measure others = seen measure rows := by
  induction spaced with
  | nil => rfl
  | line pair rest induction =>
      rw [seen] at induction ⊢
      rw [List.filterMap_cons, same pair, induction]
      rfl
  | @blank line rows others only rest induction =>
      have unseen : seen? measure line = none := by
        rw [seen?, content_of_all_isIndent only]
        rfl
      rw [seen, List.filterMap_cons, unseen]
      exact induction

theorem Spaced.starts_eq {start : List Char → List Char}
    (same : ∀ {line other}, related line other →
      other.all isIndent = line.all isIndent ∧ other.takeWhile isIndent = start line)
    {rows others : List (List Char)} (spaced : Spaced related rows others) :
    (others.filter fun line => !line.all isIndent).map (·.takeWhile isIndent) =
      (rows.filter fun line => !line.all isIndent).map start := by
  induction spaced with
  | nil => rfl
  | line pair rest induction =>
      rw [List.filter_cons, List.filter_cons, (same pair).1]
      split
      · rw [List.map_cons, List.map_cons, (same pair).2, induction]
      · exact induction
  | blank only rest induction =>
      rw [List.filter_cons_of_neg (by simp [only])]
      exact induction

variable (reads : ∀ {line other}, related line other → SameReading line other)
include reads

theorem Spaced.all_isAllBlank {rows others : List (List Char)}
    (spaced : Spaced related rows others) :
    others.all isAllBlank = rows.all isAllBlank := by
  induction spaced with
  | nil => rfl
  | line same rest induction => rw [List.all_cons, List.all_cons, (reads same).blank, induction]
  | blank only rest induction =>
      rw [List.all_cons, isAllBlank_of_all_isIndent only, Bool.true_and, induction]

theorem Spaced.trimBody {rows others : List (List Char)} (spaced : Spaced related rows others) :
    Spaced related (trimBody rows) (trimBody others) := by
  induction spaced with
  | nil => exact .nil
  | @line line other rows others same rest induction =>
      have blanks := (Spaced.line same rest).all_isAllBlank reads
      rw [trimBody_cons, trimBody_cons, blanks]
      split
      · exact .nil
      · exact .line same induction
  | @blank line rows others only rest induction =>
      rw [trimBody_cons, List.all_cons, isAllBlank_of_all_isIndent only, Bool.true_and,
        rest.all_isAllBlank reads]
      split
      · rename_i blank
        rw [trimBody_of_all_isAllBlank blank]
        exact .nil
      · exact .blank only induction

theorem Spaced.takeBody (headerWidth : Nat) {rows others : List (List Char)}
    (spaced : Spaced related rows others) (base : Option Nat) :
    Spaced related (takeBody headerWidth base rows).1 (takeBody headerWidth base others).1 ∧
      Spaced related (dropEnd headerWidth (takeBody headerWidth base rows).2)
        (dropEnd headerWidth (takeBody headerWidth base others).2) := by
  induction spaced generalizing base with
  | nil => exact ⟨.nil, .nil⟩
  | @line line other rows others same rest induction =>
      have alike := reads same
      simp only [Procedure.takeBody, alike.blank, alike.width]
      split
      · obtain ⟨body, after⟩ := induction base
        exact ⟨.line same body, after⟩
      split
      · obtain ⟨body, after⟩ := induction (some (base.getD (leadingWidth line)))
        exact ⟨.line same body, after⟩
      · -- Both bodies end here, and what is left begins with these two lines.
        refine ⟨.nil, ?_⟩
        simp only [dropEnd, alike.ending, alike.width]
        split
        · exact rest
        · exact .line same rest
  | @blank line rows others only rest induction =>
      obtain ⟨body, after⟩ := induction base
      simp only [Procedure.takeBody, isAllBlank_of_all_isIndent only, if_true]
      exact ⟨.blank only body, after⟩

/-! ## Segments -/

structure Counterpart (related : List Char → List Char → Prop) (function other : Captured) :
    Prop where
  header : other.header = function.header
  body : Spaced related function.body other.body

theorem Spaced.segmentsFrom {rows others : List (List Char)} (spaced : Spaced related rows others)
    (index otherIndex : Nat) :
    Spaced related (mainFlow (segmentsFrom index rows))
        (mainFlow (segmentsFrom otherIndex others)) ∧
      List.Forall₂ (Counterpart related) (captured (segmentsFrom index rows))
        (captured (segmentsFrom otherIndex others)) := by
  induction otherIndex, others using segmentsFrom.induct generalizing index rows with
  | case1 otherIndex =>
      cases spaced
      simp only [Procedure.segmentsFrom]
      exact ⟨.nil, .nil⟩
  | case2 otherIndex other others isPlain induction =>
      rw [Procedure.segmentsFrom, isPlain]
      cases spaced with
      | @line line _ rows _ same rest =>
          have plainToo : Header.read? line = none := (reads same).header.symm.trans isPlain
          obtain ⟨flow, functions⟩ := induction rest (index + 1)
          rw [Procedure.segmentsFrom, plainToo]
          exact ⟨.line same flow, functions⟩
      | blank only rest =>
          obtain ⟨flow, functions⟩ := induction rest index
          exact ⟨.blank only flow, functions⟩
  | case3 otherIndex other others header isHeader width after =>
      rename_i induction
      rw [Procedure.segmentsFrom, isHeader]
      cases spaced with
      | blank only rest =>
          -- A blank line is no header.
          rw [Header.read?_of_isAllBlank (isAllBlank_of_all_isIndent only)] at isHeader
          cases isHeader
      | @line line _ rows _ same rest =>
          have headerToo : Header.read? line = some header :=
            (reads same).header.symm.trans isHeader
          have sameWidth : width = leadingWidth line := (reads same).width
          obtain ⟨body, behind⟩ := rest.takeBody reads width none
          rw [Procedure.segmentsFrom, headerToo, ← sameWidth]
          obtain ⟨flow, functions⟩ := induction behind
            (index + 1 +
              (rows.length - (dropEnd width (Procedure.takeBody width none rows).2).length))
          exact ⟨flow, .cons ⟨rfl, body.trimBody reads⟩ functions⟩

end

end Flowchart.Procedure
