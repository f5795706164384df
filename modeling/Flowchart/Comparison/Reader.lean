import Flowchart.Comparison
import Flowchart.Number.Numeral
import Flowchart.Text.LetterCase
import Flowchart.Text.Phrase

/-!
Comparisons in the text of a condition: a name, a relation in words or symbols, and an operand.
-/

namespace Flowchart.Comparison

open Text

/-! ## The part that is compared -/

def leadingPhrases : List Phrase := [
  [.text "else", .gap, .text "if", .space], [.text "elif", .space], [.text "if", .space],
  [.text "when", .space], [.text "while", .space], [.text "unless", .space]]

def dropLeading (text : List Char) : List Char :=
  (Phrase.firstAfter? fold leadingPhrases text).getD text

/-- A text without one of the words that may end a condition. The word need not stand alone. -/
def dropTrailingWord (text : List Char) : List Char :=
  match ["then", "do"].find? fun word =>
      (text.drop (text.length - word.length)).map fold = word.toList with
  | some word => trimEnd (text.take (text.length - word.length))
  | none => text

def isMark (c : Char) : Bool := ['.', '!', '?', ',', ';', ':'].contains c

def dropTrailingMarks (text : List Char) : List Char :=
  match text.reverse with
  | [] => []
  | c :: rest => if isMark c then trimEnd (rest.dropWhile isMark).reverse else text

theorem length_trimEnd_le (text : List Char) : (trimEnd text).length ≤ text.length := by
  simpa [trimEnd] using (List.dropWhile_suffix (l := text.reverse) isBlank).length_le

theorem length_trim_le (text : List Char) : (trim text).length ≤ text.length :=
  Nat.le_trans (length_trimEnd_le _) (List.dropWhile_suffix isBlank).length_le

def unwrap : List Char → List Char
  | '(' :: rest =>
      if rest.getLast? = some ')' then unwrap (trim rest.dropLast) else '(' :: rest
  | text => text
termination_by text => text.length
decreasing_by
  have shorter := length_trim_le rest.dropLast
  simp only [List.length_dropLast, List.length_cons] at *
  omega

def core (text : List Char) : List Char :=
  unwrap (dropTrailingMarks (dropTrailingWord (trim (dropLeading (trim text)))))

/-! ## Operands -/

def isNameRest (view : Char → Char) (c : Char) : Bool :=
  isNameStart (view c) || c.isDigit || c = '.'

def isName (view : Char → Char) : List Char → Bool
  | [] => false
  | c :: rest => isNameStart (view c) && rest.all (isNameRest view)

def numeral? (text : List Char) : Option (Bool × List Char × Option (List Char)) :=
  let (negative, rest) := match text with
    | '-' :: rest => (true, rest)
    | _ => (false, text)
  let (whole, rest) := rest.span isDecimalDigit
  if whole.isEmpty then none
  else match rest with
    | [] => some (negative, whole, none)
    | '.' :: part =>
        if !part.isEmpty && part.all isDecimalDigit then some (negative, whole, some part) else none
    | _ => none

def quoted? : List Char → Option (List Char)
  | [] => none
  | quote :: rest =>
      if (quote = '\'' ∨ quote = '"') ∧ rest.getLast? = some quote ∧ !rest.dropLast.contains quote
      then some rest.dropLast
      else none

def isOperand (view : Char → Char) (text : List Char) : Bool :=
  (numeral? text).isSome || (quoted? text).isSome || isName view text

def nullNames : List String := ["null", "none", "nil"]

def operandValue (text : List Char) : Except NumeralError Value :=
  match numeral? text with
  | some (negative, whole, none) =>
      (Numeral.wholeOfDigits whole).map fun value => .number (.int (Numeral.signed negative value))
  | some (negative, whole, some part) =>
      let size := Binary64.ofDecimal (digitsValue (whole ++ part)) (-(part.length : Int))
      .ok (.number (.float (if negative then -size else size)))
  | none => match quoted? text with
      | some inside => .ok (.text (String.ofList inside))
      | none =>
          if nullNames.contains (String.ofList (lower text)) then .ok .null
          else .ok (.text (String.ofList text))

/-! ## Relations -/

def words (phrase : List String) : Phrase :=
  (phrase.map fun word => [Piece.text word]).intersperse [.space] |>.flatten

def wordings : List (Relation × List (List String)) := [
  (.atLeast, [["at", "least"], ["no", "less", "than"]]),
  (.atMost, [["at", "most"], ["no", "more", "than"]]),
  (.greater, [["greater", "than"], ["more", "than"]]),
  (.less, [["less", "than"], ["fewer", "than"]]),
  (.notEqual, [["not", "equal", "to"], ["is", "not"], ["are", "not"]]),
  (.equal, [["equal", "to"], ["equals"], ["equal"]])]

def auxiliaries : List Phrase := [[.text "is", .space], [.text "are", .space], []]

def worded : List (Relation × Phrase) :=
  (wordings.flatMap fun (relation, phrases) =>
    auxiliaries.flatMap fun auxiliary =>
      phrases.map fun phrase => (relation, .space :: auxiliary ++ words phrase ++ [.space])) ++
  [(.equal, [.space, .text "is", .space]), (.equal, [.space, .text "are", .space])]

def symbolic : List (Relation × Phrase) :=
  [(.atLeast, ">="), (.atMost, "<="), (.notEqual, "!="), (.notEqual, "<>"), (.greater, ">"),
    (.less, "<"), (.equal, "=="), (.equal, "=")].map fun (relation, symbol) =>
      (relation, [.gap, .text symbol, .gap])

def parts? (view : Char → Char) (forms : List (Relation × Phrase)) (text : List Char) :
    Option (List Char × Relation × List Char) :=
  if text.head?.any fun c => isNameStart (view c) then
    let (name, rest) := text.span (isNameRest view)
    forms.findSome? fun (relation, phrase) =>
      ((phrase.after? view rest).filter (isOperand view)).map fun operand =>
        (name, relation, operand)
  else none

/-- The comparison that a condition states, if it states one. Words are read without regard to
case. A whole number of too many digits is an error. -/
def read? (text : List Char) : Except NumeralError (Option Comparison) :=
  let text := core text
  match (parts? fold worded text).orElse fun _ => parts? id symbolic text with
  | none => .ok none
  | some (name, relation, operand) =>
      (operandValue operand).map fun value => some ⟨String.ofList name, relation, value⟩

end Flowchart.Comparison
