import Flowchart.Call.Site
import Flowchart.Position
import Flowchart.Recursion
import Flowchart.Text.Digit

/-!
What the arguments of a recursive call do to the parameters, and how the results of calls are put
together.
-/

namespace Flowchart.Recursion

open Text

/-! ## Arguments -/

def signs : List (Change × List String) :=
  [(.decrement, ["-"]), (.increment, ["+"]), (.divide, ["//", "/"]), (.multiply, ["*"])]

def isNumber (text : List Char) : Bool := !text.isEmpty && text.all isDecimalDigit

def isSigned (sign : String) (rest : List Char) : Bool :=
  (Phrase.after? id [.gap, .text sign, .gap] rest).any isNumber

def memberPhrases : List Phrase :=
  ["left", "right", "next", "prev", "parent", "child"].map fun member =>
    [.text ".", .text member, .edge]

def knownChange? (argument : List Char) : Option (List Char × Change) :=
  let signed := (Call.leadingName? id argument).bind fun name =>
    (signs.find? fun (_, texts) =>
      texts.any fun sign => isSigned sign (argument.drop name.length)).map
        fun (change, _) => (name, change)
  signed.orElse fun _ =>
    (Call.leadingName? fold argument).bind fun name =>
      if Phrase.anyBegins fold memberPhrases (argument.drop name.length) then
        some (name, .propertyAccess)
      else none

/-- What an argument does to a parameter. One that is made in no known way belongs to the
parameter that stands at its place, or to none and then to its own text. -/
def transformation (argument : List Char) (standing : Option String) : Transformation :=
  let text := trim argument
  match knownChange? text with
  | some (name, change) =>
      { parameter := String.ofList name
        before := String.ofList name
        after := String.ofList text
        change
        description := some (String.ofList (text.filter (· ≠ ' '))) }
  | none =>
      let name := standing.getD (String.ofList text)
      ⟨name, name, String.ofList text, .unclear, none⟩

def transformationAt (argument : List Char) (position : Int) (parameters : List String) :
    Except Position.Error Transformation := do
  if (knownChange? (trim argument)).isSome then return transformation argument none
  let index ← Position.index .list parameters.length position
  return transformation argument parameters[index]?

/-! ## Operations -/

def blankOut (text : List Char) (site : CallSite) : List Char :=
  text.take site.start ++ ' ' :: text.drop site.stop

def outsideCalls (expression : List Char) (sites : List CallSite) : List Char :=
  (sites.mergeSort fun left right => right.start ≤ left.start).foldl blankOut expression

def operation (expression : List Char) (sites : List CallSite) : Operation :=
  let rest := outsideCalls expression sites
  if rest.contains '+' then .add
  else if rest.contains '*' then .multiply
  else if 1 < sites.length then .combine
  else if rest.any fun c => c = '-' || c = '/' || c = '%' then .other
  else .single

end Flowchart.Recursion
