import Mathlib.Data.List.TakeDrop
import Flowchart.Proofs.Comparison.Statement
import Flowchart.Proofs.Structured.Run

/-!
Conditions that compare a variable with a whole number of too many digits.

Every step of reading such a condition leaves the digits alone, so the comparison is found and the
number in it is what cannot be read. The program that asks for it has a chart like any other.
-/

namespace Flowchart

open Text

namespace Comparison

/-! ## The comparison with a row of digits -/

def equation (digits : List Char) : List Char := "x == ".toList ++ digits

def condition (digits : List Char) : List Char := "If ".toList ++ equation digits

section

variable {digits : List Char} (some : digits ≠ []) (areDigits : ∀ c ∈ digits, c.isDigit = true)

include some areDigits

theorem exists_last_digit (before : List Char) :
    ∃ front c, before ++ digits = front ++ [c] ∧ c.isDigit = true := by
  refine ⟨before ++ digits.dropLast, digits.getLast some, ?_, areDigits _ (List.getLast_mem some)⟩
  rw [List.append_assoc, List.dropLast_concat_getLast]

theorem isWhole_of_isDigit : IsWhole digits :=
  isWhole_of_digits some (fun c member => isDecimalDigit_of_isDigit (areDigits c member)) false

theorem trimmed_condition : Trimmed (condition digits) where
  first := rfl
  last := by
    rcases exists_last_digit some areDigits "If x == ".toList with ⟨front, c, split, digit⟩
    have line : condition digits = front ++ [c] := split
    rw [line, List.getLast?_concat]
    exact isBlank_of_isDigit digit

theorem core_condition : core (condition digits) = equation digits := by
  have isVariable : IsVariable ['x'] := by decide
  have known : Relation.equal ∈ Relation.known := by decide
  have whole := isWhole_of_isDigit some areDigits
  have own := core_statement isVariable known whole
  have leading : dropLeading (condition digits) = statement ['x'] .equal digits := rfl
  rw [core, (trimmed_statement isVariable whole).trim_eq, dropLeading_statement isVariable known]
    at own
  rw [core, (trimmed_condition some areDigits).trim_eq, leading, own]
  rfl

theorem content_condition : Outline.content (condition digits) = condition digits := by
  rcases exists_last_digit some areDigits "If x == ".toList with ⟨front, c, split, digit⟩
  have line : condition digits = front ++ [c] := split
  have noColon : ∀ rest, (condition digits).reverse ≠ ':' :: ':' :: rest := by
    intro rest colons
    rw [line, List.reverse_append] at colons
    cases (List.cons.inj colons).1
    cases digit
  rw [Outline.content, (trimmed_condition some areDigits).trim_eq]
  split
  · exact absurd ‹_› (noColon _)
  · rfl

theorem block_condition (level : Nat) : Outline.block (Outline.content (condition digits)) level =
    ⟨String.ofList (condition digits), level, .condition, false, none⟩ := by
  have trimmed := (trimmed_condition some areDigits).trim_eq
  have kind : Block.Kind.ofLine (condition digits) = .condition := by
    rw [Block.Kind.ofLine, trimmed]
    rfl
  have closing : isClosingLine (condition digits) = false := by
    rw [isClosingLine, trimmed]
    rfl
  rw [content_condition some areDigits, Outline.block, kind, closing]

omit some in
theorem unbroken_condition : ∀ c ∈ condition digits, isLineBreak c = false := by
  intro c member
  rcases List.mem_append.mp (show c ∈ "If x == ".toList ++ digits from member) with early | digit
  · have unbroken : "If x == ".toList.any isLineBreak = false := rfl
    exact Bool.not_eq_true _ ▸ List.any_eq_false.mp unbroken c early
  · exact isLineBreak_of_isDigit (areDigits c digit)

end

theorem read?_of_tooLong {digits : List Char} (areDigits : ∀ c ∈ digits, c.isDigit = true)
    (tooLong : Numeral.maxDigits < digits.length) :
    read? (condition digits) = .error (.tooLong digits.length) := by
  have some : digits ≠ [] := List.ne_nil_of_length_pos (Nat.zero_lt_of_lt tooLong)
  have decimal : ∀ c ∈ digits, isDecimalDigit c = true :=
    fun c member => isDecimalDigit_of_isDigit (areDigits c member)
  have value : operandValue digits = .error (.tooLong digits.length) := by
    have numeral : numeral? digits = .some (false, digits, none) :=
      numeral?_of_digits some decimal false
    simp only [operandValue, numeral, Numeral.wholeOfDigits, if_pos tooLong]
    rfl
  have isVariable : IsVariable ['x'] := by decide
  have known : Relation.equal ∈ Relation.known := by decide
  have same : core (condition digits) = statement ['x'] .equal digits :=
    core_condition some areDigits
  rw [read?_of_core isVariable known (isWhole_of_isDigit some areDigits) same, value]
  rfl

/-! ## A program that asks for it -/

open Structured

def conditionLines (digits : List Char) : List (List Char) :=
  ["Start".toList, condition digits, "End if".toList, "End".toList]

def conditionBlocks (content : String) : List Block :=
  [⟨"Start", 0, .start, false, none⟩, ⟨content, 0, .condition, false, none⟩,
    ⟨"No", 0, .implicitElse, true, none⟩, ⟨"End if", 0, .process, true, none⟩,
    ⟨"End", 0, .stop, true, none⟩]

section

variable {digits : List Char} (areDigits : ∀ c ∈ digits, c.isDigit = true)

include areDigits

theorem unbroken_conditionLines :
    ∀ line ∈ conditionLines digits, ∀ c ∈ line, isLineBreak c = false := by
  have others : ∀ line ∈ ["Start".toList, "End if".toList, "End".toList],
      line.any isLineBreak = false := by decide
  intro line member
  by_cases own : line = condition digits
  · exact own ▸ unbroken_condition areDigits
  · have other : line ∈ ["Start".toList, "End if".toList, "End".toList] := by
      simpa [conditionLines, own] using member
    simpa using others line other

theorem isText_conditionLines (some : digits ≠ []) :
    IsText branchPhrases (String.ofList (joinLines (conditionLines digits))) "Start".toList
      (.conditional (condition digits) .done .noArm "End if".toList .done) "End".toList where
  rows := by
    rw [String.toList_ofList,
      filter_lines_joinLines _ (by decide) _ (unbroken_conditionLines areDigits)]
    refine List.filter_eq_self.mpr fun line member => ?_
    simp only [conditionLines, List.mem_cons, List.not_mem_nil, or_false] at member
    rcases member with rfl | rfl | rfl | rfl
    · rfl
    · rw [content_condition some areDigits]
      rfl
    · rfl
    · rfl
  first := ⟨by decide, by decide⟩
  starts := by decide
  written := by
    have filled : Outline.content (condition digits) ≠ [] := by
      rw [content_condition some areDigits]
      exact List.cons_ne_nil _ _
    have opens : (blockAt 0 (condition digits)).opensConditional = true :=
      congrArg Block.opensConditional (block_condition some areDigits 0)
    exact ⟨⟨rfl, filled⟩, opens, ⟨1, by decide, trivial⟩, trivial, ⟨by decide, by decide⟩,
      by decide, trivial⟩
  last := ⟨by decide, by decide⟩
  stops := by decide

theorem noHeader_conditionLines :
    ∀ line ∈ lines (joinLines (conditionLines digits)), Procedure.Header.read? line = none := by
  by_contra header
  simp only [not_forall] at header
  rcases header with ⟨line, member, isHeader⟩
  have among : ∃ line ∈ conditionLines digits, Procedure.Header.read? line ≠ none :=
    (exists_mem_lines_joinLines_iff (by decide) (unbroken_conditionLines areDigits)).mp
      ⟨line, member, isHeader⟩
  rcases among with ⟨line, among, isHeader⟩
  simp only [conditionLines, List.mem_cons, List.not_mem_nil, or_false] at among
  rcases among with rfl | rfl | rfl | rfl <;> exact isHeader rfl

theorem exists_program_of_conditionLines (some : digits ≠ []) (scorer : Recursion.Scorer) :
    ∃ program,
      Program.compile scorer (String.ofList (joinLines (conditionLines digits))) = .ok program ∧
      program.main = Graph.ofBlocks (conditionBlocks (String.ofList (condition digits))) := by
  have noHeader := noHeader_conditionLines areDigits
  rw [← String.toList_ofList (l := joinLines (conditionLines digits))] at noHeader
  rcases (isText_conditionLines areDigits some).exists_program scorer noHeader with
    ⟨program, compiled, main⟩
  have block : blockAt 0 (condition digits) =
      ⟨String.ofList (condition digits), 0, .condition, false, none⟩ :=
    block_condition some areDigits 0
  have blocks : (blockAt 0 "Start".toList :: ((Part.conditional (condition digits) .done .noArm
      "End if".toList .done).outlined 0).completed.lines ++ [blockAt 0 "End".toList]) =
      [blockAt 0 "Start".toList, blockAt 0 (condition digits),
        ⟨"No", 0, .implicitElse, true, none⟩, blockAt 0 "End if".toList,
        blockAt 0 "End".toList] := rfl
  refine ⟨program, compiled, main.trans ?_⟩
  rw [blocks, block]
  rfl

end

end Comparison

end Flowchart
