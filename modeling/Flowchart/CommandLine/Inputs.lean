import Flowchart.Number.Numeral
import Flowchart.Text.LetterCase
import Flowchart.Text.Lines
import Flowchart.Value

/-!
Variables with values, written as `name=value` and set apart by commas.
-/

namespace Flowchart.CommandLine

open Text

def unquote? : List Char → Option (List Char)
  | [] => none
  | mark :: rest =>
      if (mark = '"' ∨ mark = '\'') ∧ rest.getLast? = some mark then some rest.dropLast else none

def number? (text : List Char) : Option Number :=
  match Numeral.readInt text with
  | .ok value => some (.int value)
  | .error _ => (Numeral.readFloat? text).map Number.float

def inputValue (text : List Char) : Value :=
  match unquote? text with
  | some inside => .text (String.ofList inside)
  | none =>
      if lower text = "true".toList then .bool true
      else if lower text = "false".toList then .bool false
      else match number? text with
        | some number => .number number
        | none => .text (String.ofList text)

def input? (piece : List Char) : Option (String × Value) :=
  match piece.span (· ≠ '=') with
  | (_, []) => none
  | (name, _ :: value) => some (String.ofList (trim name), inputValue (trim value))

/-- All variables. Of several values for one the last counts, in the place of the first. -/
def inputs (items : List String) : Bindings :=
  ((items.flatMap fun item => pieces ',' item.toList).filterMap input?).foldl
    (fun bindings (name, value) => putField name value bindings) []

end Flowchart.CommandLine
