import Flowchart.Comparison.Reader
import Flowchart.Proofs.Text.Digit

/-!
Comparisons that are written with a symbol, and how they are read.

A name, a relation and an operand come through every step of reading as they are written. Lost are
a name that is taken for the keyword of a condition, and the end of an operand that is taken for a
word or a mark behind the condition.
-/

namespace Flowchart

open Text

namespace Comparison

/-! ## Statements -/

def statement (left : List Char) (relation : Relation) (right : List Char) : List Char :=
  left ++ ' ' :: (relation.symbol.toList ++ ' ' :: right)

def conditionWords : List String := ["elseif", "elif", "if", "when", "while", "unless"]

structure IsVariable (left : List Char) : Prop where
  name : isName id left = true
  noKeyword : ∀ word ∈ conditionWords, left.map fold ≠ word.toList

def tailWords : List String := ["then", "do"]

structure IsWhole (right : List Char) : Prop where
  operand : isOperand id right = true
  trimmed : Trimmed right
  noMark : right.getLast?.any isMark = false
  noWord : ∀ word ∈ tailWords, ¬word.toList <:+ right.map fold

instance (left : List Char) : Decidable (IsVariable left) :=
  decidable_of_iff (isName id left = true ∧ ∀ word ∈ conditionWords, left.map fold ≠ word.toList)
    ⟨fun ⟨name, noKeyword⟩ => ⟨name, noKeyword⟩, fun ⟨name, noKeyword⟩ => ⟨name, noKeyword⟩⟩

/-! ## Names -/

section

variable {left : List Char} {c : Char}

theorem toNat_lt_of_isNameRest (rest : isNameRest id c = true) : c.toNat < 128 := by
  rw [isNameRest, Bool.or_eq_true, Bool.or_eq_true] at rest
  rcases rest with (starts | digit) | point
  · exact toNat_lt_of_isNameStart starts
  · have code := code_of_isDigit digit
    omega
  · rw [of_decide_eq_true point]
    decide

theorem isBlank_of_isNameRest (rest : isNameRest id c = true) : isBlank c = false :=
  forall_of_ascii (fun c => isNameRest id c = true → isBlank c = false) (by decide) c
    (toNat_lt_of_isNameRest rest) rest

theorem isNameRest_fold (rest : isNameRest id c = true) : isNameRest fold c = true :=
  forall_of_ascii (fun c => isNameRest id c = true → isNameRest fold c = true) (by decide) c
    (toNat_lt_of_isNameRest rest) rest

theorem isNameStart_fold (starts : isNameStart c = true) : isNameStart (fold c) = true :=
  forall_of_ascii (fun c => isNameStart c = true → isNameStart (fold c) = true) (by decide) c
    (toNat_lt_of_isNameStart starts) starts

theorem isMark_of_isDecimalDigit (digit : isDecimalDigit c = true) : isMark c = false := by
  rw [isMark, ← Bool.not_eq_true, List.contains_iff_mem]
  intro mark
  simp only [List.mem_cons, List.not_mem_nil, or_false] at mark
  rcases mark with rfl | rfl | rfl | rfl | rfl | rfl <;> cases digit

theorem eq_point_of_isMark (rest : isNameRest id c = true) (mark : isMark c = true) : c = '.' := by
  rw [isMark, List.contains_iff_mem] at mark
  simp only [List.mem_cons, List.not_mem_nil, or_false] at mark
  rcases mark with rfl | rfl | rfl | rfl | rfl | rfl
  · rfl
  all_goals cases rest

theorem exists_of_isName (name : isName id left = true) :
    ∃ c rest, left = c :: rest ∧ isNameStart c = true ∧ ∀ c ∈ left, isNameRest id c = true := by
  cases left with
  | nil => cases name
  | cons c rest =>
      rw [isName, Bool.and_eq_true, List.all_eq_true] at name
      refine ⟨c, rest, rfl, name.1, List.forall_mem_cons.mpr ⟨?_, name.2⟩⟩
      simp [isNameRest, show isNameStart c = true from name.1]

theorem span_name {view : Char → Char} {rest : List Char}
    (names : ∀ c ∈ left, isNameRest view c = true) (stop : isNameRest view c = false) :
    (left ++ c :: rest).span (isNameRest view) = (left, c :: rest) := by
  rw [List.span_eq_takeWhile_dropWhile, List.takeWhile_append_of_pos names,
    List.dropWhile_append_of_pos names, List.takeWhile_cons_of_neg (by simp [stop]),
    List.dropWhile_cons_of_neg (by simp [stop]), List.append_nil]

end

/-! ## Keywords before a name -/

section

variable {left rest : List Char} {before : List Char} {behind : Place}

theorem exists_of_take?_space {letters : List Char} (noSpace : ' ' ∉ letters)
    (taken : Place.take? fold letters ⟨before, left ++ ' ' :: rest⟩ = some behind) :
    ∃ front tail, left = front ++ tail ∧ front.map fold = letters ∧
      behind.after = tail ++ ' ' :: rest := by
  rcases exists_of_take? taken with ⟨front, split, viewed, _⟩
  rcases List.append_eq_append_iff.mp split with ⟨more, isFront, isRest⟩ | ⟨tail, isLeft, isBehind⟩
  · cases more with
    | nil => exact ⟨front, [], by rw [isFront, List.append_nil, List.append_nil], viewed,
        by rw [List.nil_append]; exact isRest.symm⟩
    | cons c more =>
        cases isRest
        refine absurd ?_ noSpace
        rw [← viewed, isFront]
        exact List.mem_map.mpr ⟨' ', by simp, rfl⟩
  · exact ⟨front, tail, isLeft, viewed, isBehind⟩

variable (seen : ∀ c ∈ left, isBlank c = false)
include seen

theorem eq_nil_of_space {tail : List Char} (suffix : tail <:+ left)
    (fits : (Piece.fit? fold ⟨before, tail ++ ' ' :: rest⟩ .space).isSome = true) : tail = [] := by
  cases tail with
  | nil => rfl
  | cons c tail =>
      have nonblank := seen c (suffix.subset List.mem_cons_self)
      simp [Piece.fit?, nonblank] at fits

theorem after?_keyword {word : String} (noSpace : ' ' ∉ word.toList)
    (other : left.map fold ≠ word.toList) :
    Phrase.after? fold [.text word, .space] (left ++ ' ' :: rest) = none := by
  rw [Phrase.after?, Option.map_eq_none_iff, Phrase.fit?_cons, Option.bind_eq_none_iff]
  intro behind taken
  rcases exists_of_take?_space noSpace taken with ⟨front, tail, rfl, viewed, isBehind⟩
  rw [Phrase.fit?_cons, ← Option.not_isSome_iff_eq_none]
  intro fits
  obtain ⟨passed, after⟩ := behind
  have isBehind : after = tail ++ ' ' :: rest := isBehind
  subst isBehind
  cases eq_nil_of_space seen (List.suffix_append _ _) (Option.isSome_of_isSome_bind fits)
  exact other (by rw [List.append_nil, viewed])

/-- The keyword of two words is found only where both are one, unless the second follows. -/
theorem after?_elseIf (other : left.map fold ≠ "elseif".toList)
    (sign : rest.head?.any (fun c => !isBlank c && fold c != 'i') = true) :
    Phrase.after? fold [.text "else", .gap, .text "if", .space] (left ++ ' ' :: rest) = none := by
  rw [Phrase.after?, Option.map_eq_none_iff, Phrase.fit?_cons, Option.bind_eq_none_iff]
  intro behind taken
  rcases exists_of_take?_space (by decide) taken with ⟨front, tail, rfl, viewed, isBehind⟩
  obtain ⟨passed, after⟩ := behind
  have isBehind : after = tail ++ ' ' :: rest := isBehind
  subst isBehind
  rw [Phrase.fit?_cons, Piece.fit?, Option.bind_some, Phrase.fit?_cons, Option.bind_eq_none_iff]
  cases tail with
  | nil =>
      cases rest with
      | nil => cases sign
      | cons c rest =>
          simp only [List.head?_cons, Option.any_some, Bool.and_eq_true, Bool.not_eq_true',
            bne_iff_ne] at sign
          intro second taken
          have blank : isBlank ' ' = true := rfl
          simp [Piece.fit?, Place.skip, Place.take?, blank, sign.1, sign.2] at taken
  | cons letter tail =>
      intro second taken
      have nonblank : isBlank letter = false :=
        seen letter (List.mem_append_right _ List.mem_cons_self)
      have noGap : Place.skip isBlank ⟨passed, (letter :: tail) ++ ' ' :: rest⟩ =
          ⟨passed, (letter :: tail) ++ ' ' :: rest⟩ := by
        simp [Place.skip, nonblank]
      rw [noGap] at taken
      rcases exists_of_take?_space (by decide) taken with
        ⟨middle, last, split, viewedThen, isSecond⟩
      obtain ⟨passedThen, after⟩ := second
      have isSecond : after = last ++ ' ' :: rest := isSecond
      subst isSecond
      rw [Phrase.fit?_cons, ← Option.not_isSome_iff_eq_none]
      intro fits
      have suffix : last <:+ front ++ letter :: tail := by
        rw [split, ← List.append_assoc]
        exact List.suffix_append _ _
      cases eq_nil_of_space seen suffix (Option.isSome_of_isSome_bind fits)
      exact other (by rw [split, List.append_nil, List.map_append, viewed, viewedThen]; rfl)

end

section

variable {left right : List Char} {relation : Relation} (isVariable : IsVariable left)
  (known : relation ∈ Relation.known) (whole : IsWhole right)

include isVariable known in
theorem dropLeading_statement :
    dropLeading (statement left relation right) = statement left relation right := by
  rcases exists_of_isName isVariable.name with ⟨_, _, _, _, names⟩
  have seen : ∀ c ∈ left, isBlank c = false :=
    fun c member => isBlank_of_isNameRest (names c member)
  have sign : (relation.symbol.toList ++ ' ' :: right).head?.any
      (fun c => !isBlank c && fold c != 'i') = true := by
    simp only [Relation.known, List.mem_cons, List.not_mem_nil, or_false] at known
    rcases known with rfl | rfl | rfl | rfl | rfl | rfl <;> rfl
  have keyword {word : String} (isKeyword : word ∈ conditionWords) (noSpace : ' ' ∉ word.toList) :
      Phrase.after? fold [.text word, .space] (statement left relation right) = none :=
    after?_keyword seen noSpace (isVariable.noKeyword word isKeyword)
  have elseIf : Phrase.after? fold [.text "else", .gap, .text "if", .space]
      (statement left relation right) = none :=
    after?_elseIf seen (isVariable.noKeyword "elseif" (by decide)) sign
  rw [dropLeading, Phrase.firstAfter?, List.findSome?_eq_none_iff.mpr, Option.getD_none]
  intro phrase member
  simp only [leadingPhrases, List.mem_cons, List.not_mem_nil, or_false] at member
  rcases member with rfl | rfl | rfl | rfl | rfl | rfl
  · exact elseIf
  all_goals exact keyword (by decide) (by decide)

/-! ## What stands behind a condition -/

theorem suffix_behind_space {word front : List Char} (noSpace : ' ' ∉ word)
    (suffix : word <:+ front ++ ' ' :: right) : word <:+ right := by
  have behind : ' ' :: right <:+ front ++ ' ' :: right := List.suffix_append _ _
  rcases List.suffix_or_suffix_of_suffix suffix behind with within | around
  · rcases List.suffix_cons_iff.mp within with same | inside
    · exact absurd (by rw [same]; exact List.mem_cons_self) noSpace
    · exact inside
  · exact absurd (around.subset List.mem_cons_self) noSpace

include whole

theorem dropTrailingWord_of_isWhole (front : List Char) :
    dropTrailingWord (front ++ ' ' :: right) = front ++ ' ' :: right := by
  rw [dropTrailingWord, List.find?_eq_none.mpr]
  intro word member ends
  have ends : ((front ++ ' ' :: right).map fold).drop
      ((front ++ ' ' :: right).length - word.length) = word.toList := by
    rw [← List.map_drop]
    exact of_decide_eq_true ends
  have suffix : word.toList <:+ front.map fold ++ ' ' :: right.map fold := by
    have mapped : (front ++ ' ' :: right).map fold = front.map fold ++ ' ' :: right.map fold := by
      rw [List.map_append, List.map_cons]
      rfl
    rw [← mapped, ← ends]
    exact List.drop_suffix _ _
  have noSpace : ∀ word ∈ tailWords, ' ' ∉ word.toList := by decide
  exact whole.noWord word member (suffix_behind_space (noSpace word member) suffix)

theorem dropTrailingMarks_of_isWhole (some : right ≠ []) (front : List Char) :
    dropTrailingMarks (front ++ ' ' :: right) = front ++ ' ' :: right := by
  have last := whole.noMark
  rw [List.getLast?_eq_some_getLast some, Option.any_some] at last
  have split : front ++ ' ' :: right =
      (front ++ ' ' :: right.dropLast) ++ [right.getLast some] := by
    rw [List.append_assoc, List.cons_append, List.dropLast_concat_getLast]
  rw [split, dropTrailingMarks, List.reverse_append, List.reverse_singleton,
    List.singleton_append]
  simp only [last, Bool.false_eq_true, if_false]

end

/-! ## The whole of a statement -/

theorem findSome?_of_getElem? {α β : Type} {values : List α} {find : α → Option β} {value : α}
    {result : β} (index : Nat) (at_ : values[index]? = some value)
    (found : find value = some result)
    (earlier : (values.take index).all (fun other => (find other).isNone) = true) :
    values.findSome? find = some result := by
  rcases List.getElem?_eq_some_iff.mp at_ with ⟨bound, same⟩
  refine List.findSome?_eq_some_iff.mpr ⟨values.take index, value, values.drop (index + 1), ?_,
    found, fun other member => ?_⟩
  · rw [← same, List.getElem_cons_drop, List.take_append_drop]
  · exact Option.isNone_iff_eq_none.mp (List.all_eq_true.mp earlier other member)

theorem IsWhole.ne_nil {right : List Char} (whole : IsWhole right) : right ≠ [] := by
  rintro rfl
  cases whole.operand

section

variable {left right : List Char} {relation : Relation} (isVariable : IsVariable left)
  (known : relation ∈ Relation.known) (whole : IsWhole right)

theorem statement_eq (left : List Char) (relation : Relation) (right : List Char) :
    statement left relation right = (left ++ ' ' :: relation.symbol.toList) ++ ' ' :: right := by
  rw [statement, List.append_assoc, List.cons_append]

include isVariable whole

theorem trimmed_statement : Trimmed (statement left relation right) where
  first := by
    rcases exists_of_isName isVariable.name with ⟨c, rest, rfl, _, names⟩
    exact isBlank_of_isNameRest (names c List.mem_cons_self)
  last := by
    rw [statement_eq, List.getLast?_append_of_ne_nil _ (List.cons_ne_nil _ _),
      List.getLast?_cons_of_ne_nil whole.ne_nil]
    exact whole.trimmed.last

include known

theorem core_statement : core (statement left relation right) = statement left relation right := by
  have trimmed : Trimmed (statement left relation right) := trimmed_statement isVariable whole
  have trim := trimmed.trim_eq
  rw [core, trim, dropLeading_statement isVariable known, trim, statement_eq,
    dropTrailingWord_of_isWhole whole, dropTrailingMarks_of_isWhole whole whole.ne_nil]
  rcases exists_of_isName isVariable.name with ⟨c, rest, rfl, starts, _⟩
  refine unwrap.eq_2 _ fun inside parenthesis => ?_
  cases (List.cons.inj parenthesis).1
  cases starts

theorem parts?_statement :
    (parts? fold worded (statement left relation right)).orElse
      (fun _ => parts? id symbolic (statement left relation right)) =
        some (left, relation, right) := by
  rcases exists_of_isName isVariable.name with ⟨c, rest, isLeft, starts, names⟩
  have head : (statement left relation right).head? = some c := by rw [statement, isLeft]; rfl
  have folded : (statement left relation right).span (isNameRest fold) =
      (left, ' ' :: (relation.symbol.toList ++ ' ' :: right)) :=
    span_name (fun c member => isNameRest_fold (names c member)) rfl
  have plain : (statement left relation right).span (isNameRest id) =
      (left, ' ' :: (relation.symbol.toList ++ ' ' :: right)) := span_name names rfl
  have noWords : parts? fold worded (statement left relation right) = none := by
    rw [parts?, head, Option.any_some, if_pos (isNameStart_fold starts), folded]
    simp only [Relation.known, List.mem_cons, List.not_mem_nil, or_false] at known
    rcases known with rfl | rfl | rfl | rfl | rfl | rfl <;> rfl
  have noBlank : right.dropWhile isBlank = right := whole.trimmed.trimStart_eq
  have accepted : ((some (right.dropWhile isBlank)).filter (isOperand id)).map
      (fun operand => (left, relation, operand)) = some (left, relation, right) := by
    rw [noBlank, Option.filter_some_pos whole.operand, Option.map_some]
  rw [noWords, Option.orElse_none, parts?, head, Option.any_some,
    if_pos (show isNameStart (id c) = true from starts), plain]
  simp only [Relation.known, List.mem_cons, List.not_mem_nil, or_false] at known
  rcases known with rfl | rfl | rfl | rfl | rfl | rfl
  · exact findSome?_of_getElem? 6 rfl accepted rfl
  · exact findSome?_of_getElem? 2 rfl accepted rfl
  · exact findSome?_of_getElem? 5 rfl accepted rfl
  · exact findSome?_of_getElem? 1 rfl accepted rfl
  · exact findSome?_of_getElem? 4 rfl accepted rfl
  · exact findSome?_of_getElem? 0 rfl accepted rfl

/-- A text around a statement is read as the statement is written, if the operand can be read. -/
theorem read?_of_core {text : List Char} (same : core text = statement left relation right) :
    read? text =
      (operandValue right).map fun value => some ⟨String.ofList left, relation, value⟩ := by
  rw [read?, same]
  simp only [parts?_statement isVariable known whole]

theorem read?_of_isWhole : read? (statement left relation right) =
    (operandValue right).map fun value => some ⟨String.ofList left, relation, value⟩ :=
  read?_of_core isVariable known whole (core_statement isVariable known whole)

end

/-! ## Operands -/

/-- Operands with the values that they stand for: a whole number of not too many digits, a text
between quotes, and a name that stands for itself. Names of nothing at all, and names with a word
at the end that may end a condition, are left out. -/
inductive Denotes : List Char → Value → Prop
  | whole (negative : Bool) {digits : List Char} (some : digits ≠ [])
      (areDigits : ∀ c ∈ digits, isDecimalDigit c = true)
      (short : digits.length ≤ Numeral.maxDigits) :
      Denotes (if negative then '-' :: digits else digits)
        (.number (.int (Numeral.signed negative (digitsValue digits))))
  | quoted {quote : Char} {inside : List Char} (isQuote : quote = '\'' ∨ quote = '"')
      (unquoted : quote ∉ inside) :
      Denotes (quote :: (inside ++ [quote])) (.text (String.ofList inside))
  | name {name : List Char} (isName : isName id name = true) (noPoint : '.' ∉ name)
      (notNull : String.ofList (lower name) ∉ nullNames)
      (noWord : ∀ word ∈ tailWords, ¬word.toList <:+ name.map fold) :
      Denotes name (.text (String.ofList name))

theorem noWord_of_last {text : List Char} {c : Char} (last : text.getLast? = some c)
    (other : fold c ≠ 'n' ∧ fold c ≠ 'o') :
    ∀ word ∈ tailWords, ¬word.toList <:+ text.map fold := by
  rintro word member ⟨front, split⟩
  have lastThen : (front ++ word.toList).getLast? = some (fold c) := by
    rw [split, List.getLast?_map, last, Option.map_some]
  simp only [tailWords, List.mem_cons, List.not_mem_nil, or_false] at member
  rcases member with rfl | rfl
  · rw [List.getLast?_append_of_ne_nil _ (by decide)] at lastThen
    exact other.1 (Option.some.inj lastThen).symm
  · rw [List.getLast?_append_of_ne_nil _ (by decide)] at lastThen
    exact other.2 (Option.some.inj lastThen).symm

section

variable {digits : List Char} (some : digits ≠ [])
  (areDigits : ∀ c ∈ digits, isDecimalDigit c = true)
include some areDigits

theorem numeral?_of_digits (negative : Bool) :
    numeral? (if negative then '-' :: digits else digits) = .some (negative, digits, none) := by
  have whole : digits.span isDecimalDigit = (digits, []) := by
    rw [List.span_eq_takeWhile_dropWhile, List.takeWhile_eq_self_iff.mpr areDigits,
      List.dropWhile_eq_nil_iff.mpr areDigits]
  cases negative with
  | true =>
      simp only [if_true, numeral?, whole]
      exact if_neg (by simpa using some)
  | false =>
      have unsigned : numeral? digits = .some (false, digits, none) := by
        rw [numeral?, whole]
        · exact if_neg (by simpa using some)
        · rintro rest rfl
          exact absurd (areDigits _ List.mem_cons_self) (by decide)
      simpa using unsigned

theorem isWhole_of_digits (negative : Bool) :
    IsWhole (if negative then '-' :: digits else digits) := by
  have digit : isDecimalDigit (digits.getLast some) = true :=
    areDigits _ (List.getLast_mem some)
  have last : (if negative then '-' :: digits else digits).getLast? =
      .some (digits.getLast some) := by
    rw [← List.getLast?_eq_some_getLast some]
    cases negative with
    | true => exact List.getLast?_cons_of_ne_nil some
    | false => rfl
  have blank := isBlank_of_isDecimalDigit digit
  refine ⟨?_, ⟨?_, ?_⟩, ?_, ?_⟩
  · rw [isOperand, numeral?_of_digits some areDigits]
    rfl
  · cases negative with
    | true => rfl
    | false =>
        rcases List.exists_cons_of_ne_nil some with ⟨c, rest, rfl⟩
        exact isBlank_of_isDecimalDigit (areDigits c List.mem_cons_self)
  · rw [last]
    exact blank
  · rw [last]
    exact isMark_of_isDecimalDigit digit
  · exact noWord_of_last last ⟨fold_ne_of_isDecimalDigit digit rfl rfl,
      fold_ne_of_isDecimalDigit digit rfl rfl⟩

end

section

variable {quote : Char} {inside : List Char} (isQuote : quote = '\'' ∨ quote = '"')
include isQuote

theorem numeral?_of_quoted : numeral? (quote :: (inside ++ [quote])) = none := by
  rcases isQuote with rfl | rfl <;> rfl

variable (unquoted : quote ∉ inside)
include unquoted

theorem quoted?_of_quoted : quoted? (quote :: (inside ++ [quote])) = some inside := by
  rw [quoted?, List.getLast?_concat, List.dropLast_concat, if_pos]
  exact ⟨isQuote, rfl, by simpa using unquoted⟩

theorem isWhole_of_quoted : IsWhole (quote :: (inside ++ [quote])) := by
  have last : (quote :: (inside ++ [quote])).getLast? = some quote := by
    rw [← List.cons_append, List.getLast?_concat]
  have operand : isOperand id (quote :: (inside ++ [quote])) = true := by
    rw [isOperand, quoted?_of_quoted isQuote unquoted, Option.isSome_some, Bool.or_true,
      Bool.true_or]
  have seen : isBlank quote = false := by rcases isQuote with rfl | rfl <;> rfl
  refine ⟨operand, ⟨seen, by rw [last]; exact seen⟩, ?_, noWord_of_last last ?_⟩
  · rw [last]
    rcases isQuote with rfl | rfl <;> rfl
  · rcases isQuote with rfl | rfl <;> decide

end

section

variable {name : List Char} (isName : Comparison.isName id name = true)
include isName

theorem numeral?_of_isName : numeral? name = none := by
  rcases exists_of_isName isName with ⟨c, rest, rfl, starts, _⟩
  have digit := not_isDecimalDigit_of_isNameStart starts
  rw [numeral?, List.span_eq_takeWhile_dropWhile, List.takeWhile_cons_of_neg (by simp [digit])]
  · rfl
  · rintro rest same
    cases (List.cons.inj same).1
    cases starts

theorem quoted?_of_isName : quoted? name = none := by
  rcases exists_of_isName isName with ⟨c, rest, rfl, starts, _⟩
  rw [quoted?, if_neg]
  rintro ⟨rfl | rfl, _⟩
  · cases starts
  · cases starts

theorem isWhole_of_isName (noPoint : '.' ∉ name)
    (noWord : ∀ word ∈ tailWords, ¬word.toList <:+ name.map fold) : IsWhole name := by
  rcases exists_of_isName isName with ⟨c, rest, rfl, starts, names⟩
  have last := List.getLast?_eq_some_getLast (List.cons_ne_nil c rest)
  have isLast := List.getLast_mem (List.cons_ne_nil c rest)
  have noMark : isMark ((c :: rest).getLast (List.cons_ne_nil c rest)) = false := by
    rw [← Bool.not_eq_true]
    intro mark
    exact noPoint (eq_point_of_isMark (names _ isLast) mark ▸ isLast)
  refine ⟨by rw [isOperand, isName, Bool.or_true], ⟨?_, ?_⟩, by rw [last]; exact noMark, noWord⟩
  · exact isBlank_of_isNameRest (names c List.mem_cons_self)
  · rw [last]
    exact isBlank_of_isNameRest (names _ isLast)

end

theorem Denotes.isWhole {right : List Char} {value : Value} (denotes : Denotes right value) :
    IsWhole right := by
  cases denotes with
  | whole negative some areDigits short => exact isWhole_of_digits some areDigits negative
  | quoted isQuote unquoted => exact isWhole_of_quoted isQuote unquoted
  | name isName noPoint notNull noWord => exact isWhole_of_isName isName noPoint noWord

theorem Denotes.operandValue_eq {right : List Char} {value : Value}
    (denotes : Denotes right value) :
    operandValue right = .ok value := by
  cases denotes with
  | whole negative some areDigits short =>
      rw [operandValue, numeral?_of_digits some areDigits]
      dsimp only
      rw [Numeral.wholeOfDigits, if_neg (Nat.not_lt.mpr short)]
      rfl
  | quoted isQuote unquoted =>
      rw [operandValue, numeral?_of_quoted isQuote]
      dsimp only
      rw [quoted?_of_quoted isQuote unquoted]
  | name isName noPoint notNull noWord =>
      rw [operandValue, numeral?_of_isName isName]
      dsimp only
      rw [quoted?_of_isName isName]
      exact if_neg (by simpa using notNull)

/-- A comparison of a name with an operand, written in symbols, is read as it is written. -/
theorem read?_statement {left right : List Char} {relation : Relation} {value : Value}
    (isVariable : IsVariable left) (known : relation ∈ Relation.known)
    (denotes : Denotes right value) :
    read? (statement left relation right) =
      .ok (some ⟨String.ofList left, relation, value⟩) := by
  rw [read?_of_isWhole isVariable known denotes.isWhole, denotes.operandValue_eq]
  rfl

theorem read?_statement_plain :
    read? "grade >= 90".toList = .ok (some ⟨"grade", .atLeast, .number (.int 90)⟩) ∧
      read? "delta < -1".toList = .ok (some ⟨"delta", .less, .number (.int (-1))⟩) ∧
      read? "env == 'prod'".toList = .ok (some ⟨"env", .equal, .text "prod"⟩) ∧
      read? "else != done".toList = .ok (some ⟨"else", .notEqual, .text "done"⟩) := by
  have names : IsVariable "grade".toList ∧ IsVariable "delta".toList ∧ IsVariable "env".toList ∧
      IsVariable "else".toList := by decide
  refine ⟨?_, ?_, ?_, ?_⟩
  · have ninety : Denotes ['9', '0'] (.number (.int 90)) :=
      .whole false (by decide) (List.all_eq_true.mp rfl) (by simp [Numeral.maxDigits])
    have read : read? (statement "grade".toList .atLeast ['9', '0']) =
        .ok (some ⟨"grade", .atLeast, .number (.int 90)⟩) :=
      read?_statement names.1 (by decide) ninety
    exact read
  · have minusOne : Denotes ['-', '1'] (.number (.int (-1))) :=
      .whole true (by decide) (List.all_eq_true.mp rfl) (by simp [Numeral.maxDigits])
    have read : read? (statement "delta".toList .less ['-', '1']) =
        .ok (some ⟨"delta", .less, .number (.int (-1))⟩) :=
      read?_statement names.2.1 (by decide) minusOne
    exact read
  · have prod : Denotes ('\'' :: ("prod".toList ++ ['\''])) (.text "prod") :=
      .quoted (.inl rfl) (by decide)
    have read : read? (statement "env".toList .equal ('\'' :: ("prod".toList ++ ['\'']))) =
        .ok (some ⟨"env", .equal, .text "prod"⟩) :=
      read?_statement names.2.2.1 (by decide) prod
    exact read
  · have done : Denotes "done".toList (.text "done") :=
      .name rfl (by decide) (by decide) (by decide)
    have read : read? (statement "else".toList .notEqual "done".toList) =
        .ok (some ⟨"else", .notEqual, .text "done"⟩) :=
      read?_statement names.2.2.2 (by decide) done
    exact read

/-- A name in one word is taken for the keyword of two words, and the end of an operand for the
word behind a condition. -/
theorem exists_misread :
    (isName id "elseif".toList = true ∧
      "elseif" ∉ ["if", "elif", "when", "while", "unless", "else"] ∧
      read? "elseif == 5".toList = .ok none) ∧
    (isName id "undo".toList = true ∧ "undo" ∉ nullNames ++ tailWords ∧
      read? "x == undo".toList = .ok (some ⟨"x", .equal, .text "un"⟩)) := by
  refine ⟨⟨rfl, by decide, ?_⟩, rfl, by decide, ?_⟩
  · decide +kernel
  · decide +kernel

end Comparison

end Flowchart
