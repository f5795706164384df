import Flowchart.Proofs.Call.Padding
import Flowchart.Proofs.Text.Phrase

/-!
Double colons behind a line.

A double colon that ends a line is no part of its text.
-/

namespace Flowchart

open Text

namespace Text

/-! ## Trimmed ends -/

theorem trimEnd_eq_nil_iff {text : List Char} : trimEnd text = [] ↔ isAllBlank text = true := by
  rw [trimEnd, List.reverse_eq_nil_iff, List.dropWhile_eq_nil_iff, isAllBlank, List.all_eq_true]
  exact forall_congr' fun c => by rw [List.mem_reverse]

theorem trimStart_eq_nil_iff {text : List Char} :
    trimStart text = [] ↔ isAllBlank text = true := by
  rw [trimStart, List.dropWhile_eq_nil_iff, isAllBlank, List.all_eq_true]

theorem isAllBlank_trimStart (text : List Char) :
    isAllBlank (trimStart text) = isAllBlank text := by
  have parts := List.takeWhile_append_dropWhile (p := isBlank) (l := text)
  have front : (text.takeWhile isBlank).all isBlank = true := List.all_takeWhile
  calc _ = isAllBlank (text.takeWhile isBlank ++ text.dropWhile isBlank) := by
        rw [isAllBlank, isAllBlank, List.all_append, front, Bool.true_and, trimStart]
    _ = _ := by rw [parts]

theorem trim_eq_nil_iff {text : List Char} : trim text = [] ↔ isAllBlank text = true := by
  rw [trim, trimEnd_eq_nil_iff, isAllBlank_trimStart]

theorem trimEnd_append_of_not_isAllBlank {text : List Char} (some : isAllBlank text = false)
    (front : List Char) : trimEnd (front ++ text) = front ++ trimEnd text := by
  have left : (text.reverse.dropWhile isBlank).isEmpty = false := by
    rw [List.isEmpty_eq_false_iff, ne_eq, List.dropWhile_eq_nil_iff]
    intro blank
    have whole : isAllBlank text = true :=
      List.all_eq_true.mpr fun c member => blank c (List.mem_reverse.mpr member)
    rw [some] at whole
    cases whole
  rw [trimEnd, trimEnd, List.reverse_append, List.dropWhile_append, left,
    if_neg Bool.false_ne_true, List.reverse_append, List.reverse_reverse]

/-! ## Double colons -/

def doubleColon : List Char := [':', ':']

def isTerminated (line : List Char) : Bool := doubleColon.isSuffixOf (trimEnd line)

theorem isPadding_of_mem_doubleColon : ∀ c ∈ doubleColon, IsPadding c := by
  intro c member
  simp only [doubleColon, List.mem_cons, List.not_mem_nil, or_false, or_self] at member
  exact member ▸ isPadding_colon

theorem not_isBlank_of_mem_doubleColon : ∀ c ∈ doubleColon, isBlank c = false := by
  intro c member
  simp only [doubleColon, List.mem_cons, List.not_mem_nil, or_false, or_self] at member
  subst member
  decide

theorem trimEnd_append_doubleColon (text : List Char) :
    trimEnd (text ++ doubleColon) = text ++ doubleColon :=
  trimEnd_append_of_not_isAllBlank (by decide) text

theorem trim_append_doubleColon (text : List Char) :
    trim (text ++ doubleColon) = trimStart text ++ doubleColon := by
  rw [trim, trimStart, dropWhile_append_of_none not_isBlank_of_mem_doubleColon,
    trimEnd_append_doubleColon, ← trimStart]

theorem isTerminated_of_suffix {ending line : List Char} (suffix : ending <:+ line)
    (ends : isTerminated ending = true) : isTerminated line = true := by
  obtain ⟨front, rfl⟩ := suffix
  cases blank : isAllBlank ending with
  | true =>
      rw [isTerminated, trimEnd_eq_nil_iff.mpr blank] at ends
      cases ends
  | false =>
      rw [isTerminated, List.isSuffixOf_iff_suffix] at ends ⊢
      rw [trimEnd_append_of_not_isAllBlank blank]
      exact ends.trans (List.suffix_append front _)

theorem isTerminated_of_trim {line : List Char} (front : List Char)
    (ends : trim line = front ++ doubleColon) : isTerminated line = true := by
  apply isTerminated_of_suffix (List.dropWhile_suffix isBlank : trimStart line <:+ line)
  rw [isTerminated, List.isSuffixOf_iff_suffix]
  exact ⟨front, ends.symm⟩

end Text

namespace Outline

theorem leadingWidth_append_doubleColon (line : List Char) :
    leadingWidth (line ++ doubleColon) = leadingWidth line := by
  rw [leadingWidth, leadingWidth, takeWhile_append_of_none not_isBlank_of_mem_doubleColon]

theorem takeWhile_isIndent_append_doubleColon (line : List Char) :
    (line ++ doubleColon).takeWhile isIndent = line.takeWhile isIndent := by
  apply takeWhile_append_of_none
  intro c member
  apply Bool.eq_false_iff.mpr
  intro indents
  have blank := isBlank_of_isIndent indents
  rw [not_isBlank_of_mem_doubleColon c member] at blank
  cases blank

theorem content_of_trim {line : List Char} {rest : List Char}
    (ends : trim line = rest ++ doubleColon) : content line = trimEnd rest := by
  have reversed : (trim line).reverse = ':' :: ':' :: rest.reverse := by
    rw [ends, List.reverse_append]
    rfl
  rw [content]
  simp only [reversed, List.reverse_reverse]

theorem content_of_not_isTerminated {line : List Char} (open' : isTerminated line = false) :
    content line = trim line := by
  rw [content]
  split
  · rename_i rest reversed
    have ends : trim line = rest.reverse ++ doubleColon := by
      rw [← List.reverse_reverse (trim line), reversed]
      simp [doubleColon]
    rw [isTerminated_of_trim _ ends] at open'
    cases open'
  · rfl

theorem content_append_doubleColon {line : List Char} (open' : isTerminated line = false) :
    content (line ++ doubleColon) = content line := by
  rw [content_of_trim (trim_append_doubleColon line), content_of_not_isTerminated open', trim]

end Outline

end Flowchart
