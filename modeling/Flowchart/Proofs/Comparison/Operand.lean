import Flowchart.Proofs.Comparison.Statement
import Flowchart.Proofs.Number.Written
import Flowchart.Proofs.Recursion.Analyzed
import Flowchart.Proofs.Text.Margin
import Flowchart.Proofs.Text.Phrase

/-!
Operands of conditions, and the whole numbers in them that are too long to be read.

Whether a condition can be read hangs on its operand alone. A text that an operand is compared by
writes the same whole number as the operand without its quotes, or none like it.
-/

namespace Flowchart

open Text

/-! ## Whole numbers -/

namespace Numeral

structure OverlongRow (row text : List Char) : Prop where
  within : row <:+: text
  areDigits : ∀ c ∈ row, isDecimalDigit c = true
  tooLong : maxDigits < row.length

def Overlong (text : List Char) : Prop :=
  ∃ row, OverlongRow row text ∧ (text = row ∨ text = '-' :: row)

def isWhole (text : List Char) : Bool := (Recursion.wholeNumber? (String.ofList text)).isSome

def size? (text : List Char) : Option (Except NumeralError Nat) :=
  (Recursion.wholeNumber? (String.ofList text)).map fun (_, digits) => wholeOfDigits digits

def Writes (text : List Char) (negative : Bool) (digits : List Char) : Prop :=
  text = (if negative then '-' :: digits else digits) ∧ digits ≠ [] ∧
    ∀ c ∈ digits, isDecimalDigit c = true

theorem isNumber_iff {row : List Char} : Recursion.isNumber row = true ↔
    row ≠ [] ∧ ∀ c ∈ row, isDecimalDigit c = true := by
  simp [Recursion.isNumber]

theorem wholeNumber?_plain {text : List Char} (plain : ∀ rest, text ≠ '-' :: rest) :
    Recursion.wholeNumber? (String.ofList text) =
      if Recursion.isNumber text then some (false, text) else none := by
  rw [Recursion.wholeNumber?, String.toList_ofList]
  split
  rename_i parted
  split at parted
  · rename_i rest
    exact absurd rfl (plain rest)
  · cases parted
    rfl

theorem wholeNumber?_minus (text : List Char) :
    Recursion.wholeNumber? (String.ofList ('-' :: text)) =
      if Recursion.isNumber text then some (true, text) else none := by
  rw [Recursion.wholeNumber?, String.toList_ofList]
  rfl

theorem ne_minus_of_isDecimalDigit {text : List Char}
    (areDigits : ∀ c ∈ text, isDecimalDigit c = true) : ∀ rest, text ≠ '-' :: rest := by
  rintro rest rfl
  exact absurd (areDigits '-' List.mem_cons_self) (by decide)

theorem wholeNumber?_eq_some_iff {text digits : List Char} {negative : Bool} :
    Recursion.wholeNumber? (String.ofList text) = some (negative, digits) ↔
      Writes text negative digits := by
  constructor
  · intro found
    by_cases minus : ∃ rest, text = '-' :: rest
    · rcases minus with ⟨rest, rfl⟩
      rw [wholeNumber?_minus, Option.ite_none_right_eq_some] at found
      cases found.2
      exact ⟨rfl, isNumber_iff.mp found.1⟩
    · rw [wholeNumber?_plain fun rest same => minus ⟨rest, same⟩,
        Option.ite_none_right_eq_some] at found
      cases found.2
      exact ⟨rfl, isNumber_iff.mp found.1⟩
  · rintro ⟨rfl, isRow⟩
    cases negative with
    | true => exact (wholeNumber?_minus digits).trans (if_pos (isNumber_iff.mpr isRow))
    | false =>
        exact (wholeNumber?_plain (ne_minus_of_isDecimalDigit isRow.2)).trans
          (if_pos (isNumber_iff.mpr isRow))

theorem writes_of_numeral? {text digits : List Char} {negative : Bool}
    (found : Comparison.numeral? text = some (negative, digits, none)) :
    Writes text negative digits := by
  unfold Comparison.numeral? at found
  split at found
  rename_i sign unsigned parted
  simp only [List.span_eq_takeWhile_dropWhile] at found
  split at found
  · cases found
  rename_i some
  split at found
  · rename_i all
    cases found
    have own : unsigned.takeWhile isDecimalDigit = unsigned := by
      have whole := List.takeWhile_append_dropWhile (p := isDecimalDigit) (l := unsigned)
      rwa [all, List.append_nil] at whole
    rw [own] at some ⊢
    refine ⟨?_, by simpa using some, List.takeWhile_eq_self_iff.mp own⟩
    split at parted <;> cases parted <;> rfl
  · split at found <;> cases found
  · cases found

theorem numeral?_of_writes {text digits : List Char} {negative : Bool}
    (writes : Writes text negative digits) :
    Comparison.numeral? text = some (negative, digits, none) := by
  rcases writes with ⟨rfl, some, areDigits⟩
  exact Comparison.numeral?_of_digits some areDigits negative

theorem size?_of_writes {text digits : List Char} {negative : Bool}
    (writes : Writes text negative digits) : size? text = some (wholeOfDigits digits) := by
  rw [size?, wholeNumber?_eq_some_iff.mpr writes]
  rfl

theorem size?_eq_none {text : List Char}
    (other : ∀ negative digits, Comparison.numeral? text ≠ some (negative, digits, none)) :
    size? text = none := by
  rw [size?, Option.map_eq_none_iff, Option.eq_none_iff_forall_ne_some]
  rintro ⟨negative, digits⟩ whole
  exact other negative digits (numeral?_of_writes (wholeNumber?_eq_some_iff.mp whole))

theorem exists_row_of_size? {text : List Char} {error : NumeralError}
    (failed : size? text = some (.error error)) :
    ∃ row, OverlongRow row text ∧ (text = row ∨ text = '-' :: row) ∧
      error = .tooLong row.length := by
  rcases Option.map_eq_some_iff.mp failed with ⟨⟨negative, digits⟩, whole, read⟩
  rcases wholeNumber?_eq_some_iff.mp whole with ⟨written, some, areDigits⟩
  have read : wholeOfDigits digits = .error error := read
  rw [wholeOfDigits] at read
  split at read
  · rename_i tooLong
    cases read
    cases negative with
    | true => exact ⟨digits, ⟨written ▸ (List.suffix_cons _ _).isInfix, areDigits, tooLong⟩,
        .inr written, rfl⟩
    | false => exact ⟨digits, ⟨written ▸ List.infix_rfl, areDigits, tooLong⟩, .inl written, rfl⟩
  · cases read

theorem overlong_iff {text : List Char} :
    Overlong text ↔ ∃ error, size? text = some (.error error) := by
  constructor
  · rintro ⟨row, overlong, written⟩
    have some : row ≠ [] := List.ne_nil_of_length_pos (Nat.zero_lt_of_lt overlong.tooLong)
    have writes : ∃ negative, Writes text negative row := by
      rcases written with plain | minus
      · exact ⟨false, plain, some, overlong.areDigits⟩
      · exact ⟨true, minus, some, overlong.areDigits⟩
    rcases writes with ⟨negative, writes⟩
    exact ⟨_, (size?_of_writes writes).trans
      (by rw [wholeOfDigits, if_pos overlong.tooLong])⟩
  · rintro ⟨error, failed⟩
    rcases exists_row_of_size? failed with ⟨row, overlong, written, _⟩
    exact ⟨row, overlong, written⟩

theorem size?_toString {value : Int}
    (short : value.natAbs < 10 ^ maxDigits) :
    size? (toString value).toList = some (.ok value.natAbs) := by
  have digits : Writes (toString value).toList (decide (value < 0))
      (Nat.toDigits 10 value.natAbs) :=
    ⟨by rw [toList_toString]; by_cases negative : value < 0 <;> simp [negative],
      Nat.toDigits_ne_nil,
      fun c member => isDecimalDigit_of_isDigit (isDigit_of_mem_toDigits member)⟩
  have shortRow : (Nat.toDigits 10 value.natAbs).length ≤ maxDigits :=
    (Nat.length_toDigits_le_iff (by decide) (by decide)).mpr short
  rw [size?_of_writes digits, wholeOfDigits, if_neg (Nat.not_lt.mpr shortRow), digitsValue_toDigits]

end Numeral

/-! ## Floating-point numbers -/

namespace Binary64

def marks : List Char := ['.', 'e', 'n']

theorem exists_mark_textOfDecimal (decimal : Decimal) :
    ∃ c ∈ (textOfDecimal decimal).toList, c ∈ marks := by
  unfold textOfDecimal
  dsimp only
  split
  · refine ⟨'.', ?_, by decide⟩
    split
    · simp
    · split <;> simp
  · have exponent (first : Int) : 'e' ∈ (if first < 0 then "e-" else "e+").toList := by
      split <;> decide
    refine ⟨'e', ?_, by decide⟩
    simp only [String.toList_append, List.mem_append]
    exact .inl (.inl (.inr (exponent _)))

theorem exists_mark_text (value : Binary64) : ∃ c ∈ value.text.toList, c ∈ marks := by
  unfold text textWith
  split
  · exact ⟨'.', by decide, by decide⟩
  · rename_i units _
    rcases exists_mark_textOfDecimal (Decimal.shortest units.natAbs) with ⟨c, member, mark⟩
    exact ⟨c, by rw [String.toList_append]; exact List.mem_append_right _ member, mark⟩
  · exact ⟨'.', by decide, by decide⟩
  · rename_i negative
    exact ⟨'n', by cases negative <;> decide, by decide⟩
  · exact ⟨'n', by decide, by decide⟩

theorem size?_text (value : Binary64) : Numeral.size? value.text.toList = none := by
  rcases exists_mark_text value with ⟨c, member, mark⟩
  have noDigit : isDecimalDigit c = false ∧ c ≠ '-' := by
    simp only [marks, List.mem_cons, List.not_mem_nil, or_false] at mark
    rcases mark with rfl | rfl | rfl <;> exact ⟨rfl, by decide⟩
  refine Numeral.size?_eq_none fun negative digits found => ?_
  rcases Numeral.writes_of_numeral? found with ⟨written, -, areDigits⟩
  have digit : c ∈ digits := by
    rw [written] at member
    split at member
    · exact (List.mem_cons.mp member).resolve_left noDigit.2
    · exact member
  have isDigit := areDigits c digit
  rw [noDigit.1] at isDigit
  cases isDigit

end Binary64

/-! ## Operands -/

namespace Comparison

def unquoted (operand : List Char) : List Char := (quoted? operand).getD operand

theorem exists_of_quoted? {operand inside : List Char} (found : quoted? operand = some inside) :
    ∃ quote, (quote = '\'' ∨ quote = '"') ∧ operand = quote :: (inside ++ [quote]) := by
  cases operand with
  | nil => cases found
  | cons quote rest =>
      rw [quoted?, Option.ite_none_right_eq_some] at found
      rcases found with ⟨⟨isQuote, last, _⟩, same⟩
      cases same
      refine ⟨quote, isQuote, ?_⟩
      rw [List.dropLast_append_getLast? quote last]

theorem isInfix_unquoted (operand : List Char) : unquoted operand <:+: operand := by
  rw [unquoted]
  cases found : quoted? operand with
  | none => exact List.infix_rfl
  | some inside =>
      rcases exists_of_quoted? found with ⟨quote, _, rfl⟩
      exact ⟨[quote], [quote], rfl⟩

theorem unquoted_of_numeral? {operand : List Char} {numeral : Bool × List Char × Option (List Char)}
    (found : numeral? operand = some numeral) : unquoted operand = operand := by
  rw [unquoted]
  cases inQuotes : quoted? operand with
  | none => rfl
  | some inside =>
      rcases exists_of_quoted? inQuotes with ⟨quote, isQuote, rfl⟩
      rw [numeral?_of_quoted isQuote] at found
      cases found

/-- An operand without a value is a whole number that is too long. The text by which another one
is compared writes the same whole number as the operand without its quotes, if it writes one. -/
theorem operandValue_cases (operand : List Char) :
    (∃ error, Numeral.size? operand = some (.error error) ∧ operandValue operand = .error error) ∨
      ∃ value, operandValue operand = .ok value ∧
        (∀ error, Numeral.size? operand ≠ some (.error error)) ∧
        Numeral.size? (Recursion.comparedText value).toList = Numeral.size? (unquoted operand) := by
  unfold operandValue
  split
  · rename_i negative digits found
    have writes := Numeral.writes_of_numeral? found
    have size := Numeral.size?_of_writes writes
    rw [size, unquoted_of_numeral? found, size]
    by_cases tooLong : Numeral.maxDigits < digits.length
    · exact .inl ⟨.tooLong digits.length, by rw [Numeral.wholeOfDigits, if_pos tooLong],
        by rw [Numeral.wholeOfDigits, if_pos tooLong]; rfl⟩
    · have read : Numeral.wholeOfDigits digits = .ok (digitsValue digits) := if_neg tooLong
      have absolute : (Numeral.signed negative (digitsValue digits)).natAbs =
          digitsValue digits := by
        cases negative <;> simp [Numeral.signed]
      have below : digitsValue digits < 10 ^ Numeral.maxDigits :=
        Nat.lt_of_lt_of_le (digitsValue_lt digits)
          (Nat.pow_le_pow_right (by decide) (Nat.not_lt.mp tooLong))
      have written := Numeral.size?_toString (absolute ▸ below)
      rw [absolute] at written
      rw [read]
      exact .inr ⟨_, rfl, by simp, written⟩
  · rename_i negative whole part found
    have noWhole : Numeral.size? operand = none :=
      Numeral.size?_eq_none fun _ _ whole => by rw [found] at whole; cases whole
    refine .inr ⟨_, rfl, by simp [noWhole], ?_⟩
    rw [unquoted_of_numeral? found, noWhole]
    exact Binary64.size?_text _
  · rename_i found
    have noWhole : Numeral.size? operand = none :=
      Numeral.size?_eq_none fun _ _ whole => by rw [found] at whole; cases whole
    refine .inr ?_
    rw [noWhole, unquoted]
    cases quoted? operand with
    | some inside => exact ⟨_, rfl, by simp, congrArg Numeral.size? String.toList_ofList⟩
    | none =>
        dsimp only [Option.getD_none]
        split
        · have blank : Numeral.size? [] = none :=
            Numeral.size?_eq_none fun _ _ => (Option.some_ne_none _).symm
          exact ⟨_, rfl, by simp, noWhole ▸ blank⟩
        · exact ⟨_, rfl, by simp, congrArg Numeral.size? String.toList_ofList⟩

/-! ## Conditions -/

def operand? (condition : List Char) : Option (List Char) :=
  ((parts? fold worded (core condition)).orElse
    fun _ => parts? id symbolic (core condition)).map fun (_, _, operand) => operand

/-- A condition that cannot be read has an operand that cannot. From another one the text that it
compares with is read, with the whole number that the operand writes. -/
theorem read?_cases (condition : List Char) :
    (∃ error, (operand? condition).bind Numeral.size? = some (.error error) ∧
        read? condition = .error error) ∨
      ∃ comparison, read? condition = .ok comparison ∧
        (∀ error, (operand? condition).bind Numeral.size? ≠ some (.error error)) ∧
        (comparison.bind fun comparison =>
            Numeral.size? (Recursion.comparedText comparison.right).toList) =
          (operand? condition).bind fun operand => Numeral.size? (unquoted operand) := by
  rw [read?, operand?]
  cases (parts? fold worded (core condition)).orElse
      fun _ => parts? id symbolic (core condition) with
  | none => exact .inr ⟨none, rfl, by simp, rfl⟩
  | some parts =>
      rcases parts with ⟨name, relation, operand⟩
      dsimp only [Option.map_some, Option.bind_some]
      rcases operandValue_cases operand with
        ⟨error, failed, noValue⟩ | ⟨value, valued, legible, same⟩
      · exact .inl ⟨error, failed, by rw [noValue]; rfl⟩
      · exact .inr ⟨some ⟨String.ofList name, relation, value⟩, by rw [valued]; rfl, legible, same⟩

theorem isInfix_dropLeading (text : List Char) : dropLeading text <:+: text := by
  rw [dropLeading]
  cases found : Phrase.firstAfter? fold leadingPhrases text with
  | none => exact List.infix_rfl
  | some rest => exact (Phrase.firstAfter?_suffix found).isInfix

theorem isInfix_dropTrailingWord (text : List Char) : dropTrailingWord text <:+: text := by
  rw [dropTrailingWord]
  split
  · exact (isInfix_trimEnd _).trans (List.take_prefix _ _).isInfix
  · exact List.infix_rfl

theorem isInfix_dropTrailingMarks (text : List Char) : dropTrailingMarks text <:+: text := by
  rw [dropTrailingMarks]
  split
  · exact List.nil_infix
  · rename_i c rest reversed
    have split : text = rest.reverse ++ [c] := by
      rw [← List.reverse_reverse text, reversed, List.reverse_cons]
    split
    · have ending : (rest.dropWhile isMark).reverse <:+: rest.reverse :=
        List.reverse_infix.mpr (List.dropWhile_suffix _).isInfix
      exact (isInfix_trimEnd _).trans (ending.trans ⟨[], [c], split.symm⟩)
    · exact List.infix_rfl

theorem isInfix_unwrap (text : List Char) : unwrap text <:+: text := by
  fun_induction unwrap text with
  | case1 rest closed induction =>
      have inside : rest.dropLast <:+: '(' :: rest :=
        (List.dropLast_prefix rest).isInfix.trans (List.suffix_cons _ _).isInfix
      exact induction.trans ((isInfix_trim _).trans inside)
  | case2 rest => exact List.infix_rfl
  | case3 text => exact List.infix_rfl

theorem isInfix_core (condition : List Char) : core condition <:+: condition :=
  calc core condition
    _ <:+: dropTrailingMarks (dropTrailingWord (trim (dropLeading (trim condition)))) :=
        isInfix_unwrap _
    _ <:+: dropTrailingWord (trim (dropLeading (trim condition))) := isInfix_dropTrailingMarks _
    _ <:+: trim (dropLeading (trim condition)) := isInfix_dropTrailingWord _
    _ <:+: dropLeading (trim condition) := isInfix_trim _
    _ <:+: trim condition := isInfix_dropLeading _
    _ <:+: condition := isInfix_trim _

theorem isInfix_of_parts? {view : Char → Char} {forms : List (Relation × Phrase)}
    {text name operand : List Char} {relation : Relation}
    (found : parts? view forms text = some (name, relation, operand)) : operand <:+: text := by
  rw [parts?] at found
  split at found
  · rw [List.span_eq_takeWhile_dropWhile] at found
    rcases List.exists_of_findSome?_eq_some found with ⟨⟨_, phrase⟩, _, formed⟩
    rcases Option.map_eq_some_iff.mp formed with ⟨after, kept, same⟩
    rcases Option.map_eq_some_iff.mp (Option.eq_some_of_filter_eq_some kept) with
      ⟨behind, fits, rfl⟩
    cases same
    exact ((Phrase.after_suffix fits).trans (List.dropWhile_suffix _)).isInfix
  · cases found

theorem isInfix_operand? {condition operand : List Char}
    (found : operand? condition = some operand) : operand <:+: condition := by
  rcases Option.map_eq_some_iff.mp found with ⟨⟨name, relation, _⟩, parts, rfl⟩
  refine List.IsInfix.trans ?_ (isInfix_core condition)
  rcases Recursion.eq_some_of_orElse parts with inWords | inSymbols
  · exact isInfix_of_parts? inWords
  · exact isInfix_of_parts? inSymbols

end Comparison

end Flowchart
