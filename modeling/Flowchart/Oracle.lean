import Flowchart.Block
import Flowchart.Comparison.Reader
import Flowchart.Oracle.Twister
import Flowchart.Text.Quoted

/-!
Oracles decide which way a program goes: yes or no at a condition, one of the cases at a switch.
They may remember what they have been asked.
-/

namespace Flowchart

open Text

/-- A way to decide, with a memory of type `σ`. The answer at a condition is a text; the answer at
a switch is a position among the labels of its cases. -/
structure Oracle (σ : Type) where
  decide : σ → Int → Block → Except NumeralError (String × σ)
  selectCase : σ → Int → Block → List String → Except NumeralError (Int × σ)

namespace Oracle

def yes : String := "yes"

def no : String := "no"

def ofBool (verdict : Bool) : String := if verdict then yes else no

structure WrongAnswer where
  answer : String

namespace WrongAnswer

def message (wrong : WrongAnswer) : String :=
  "answer must be 'yes' or 'no', got " ++ Text.quoted wrong.answer

end WrongAnswer

/-! ## The kinds of oracles -/

inductive Adviser
  /-- Always yes, and the first case. -/
  | agreeable
  /-- Always the same answer and the same case, or the last where there are fewer. -/
  | fixed (answer : String) (choice : Int)
  /-- The given answers in order, then those of another; `asked` counts the decisions. -/
  | scripted (answers : List String) (asked : Nat) (next : Adviser)
  | random (source : Twister)
  /-- The truth of comparisons of known variables, and another for what they do not settle. -/
  | comparing (bindings : Bindings) (fallback : Adviser)
deriving Repr, Inhabited

namespace Adviser

def fixed? (answer : String) (choice : Int) : Except WrongAnswer Adviser :=
  if answer = yes ∨ answer = no then .ok (.fixed answer choice) else .error ⟨answer⟩

def scriptedFrom (answers : List String) (next : Option Adviser) : Adviser :=
  .scripted answers 0 (next.getD (.fixed no 0))

def comparingWith (bindings : Bindings) (fallback : Option Adviser) : Adviser :=
  .comparing bindings (fallback.getD .agreeable)

def decide (index : Int) (block : Block) :
    Adviser → Except NumeralError (String × Adviser)
  | .agreeable => .ok (yes, .agreeable)
  | .fixed answer choice => .ok (answer, .fixed answer choice)
  | .scripted (answer :: answers) asked next => .ok (answer, .scripted answers (asked + 1) next)
  | .scripted [] asked next =>
      (next.decide index block).map fun (answer, next) =>
        (answer, .scripted [] (asked + 1) next)
  | .random source =>
      let (verdict, source) := source.drawHalf
      .ok (ofBool verdict, .random source)
  | .comparing bindings fallback => do
      let comparison ← Comparison.read? block.content.toList
      match comparison.bind (·.evaluate bindings) with
      | some verdict => return (ofBool verdict, .comparing bindings fallback)
      | none =>
          (fallback.decide index block).map fun (answer, fallback) =>
            (answer, .comparing bindings fallback)

/-! ### Cases by value -/

def subject (content : List Char) : List Char :=
  if (trim content).contains ' ' then trim (firstWord content).2 else []

def isQuoteMark (c : Char) : Bool := c = '\'' || c = '"'

def bare (text : List Char) : List Char :=
  lower (((text.dropWhile isQuoteMark).reverse.dropWhile isQuoteMark).reverse)

def names (wanted : List Char) (label : String) : Bool :=
  let (word, rest) := firstWord label.toList
  !word.isEmpty && !rest.isEmpty && bare (trim rest) = wanted

def isDefaultCase (label : String) : Bool :=
  (lower (trim label.toList)).take 7 = "default".toList

def caseFor? (value : Value) (labels : List String) : Option Nat :=
  let wanted := bare value.shown.toList
  (labels.findIdx? (names wanted)).orElse fun _ => labels.findIdx? isDefaultCase

def selectCase (index : Int) (block : Block) (labels : List String) :
    Adviser → Except NumeralError (Int × Adviser)
  | .agreeable => .ok (0, .agreeable)
  | .fixed answer choice =>
      .ok (min choice (labels.length - 1 : Nat), .fixed answer choice)
  | .scripted answers asked next =>
      (next.selectCase index block labels).map fun (choice, next) =>
        (choice, .scripted answers asked next)
  | .random source =>
      if labels.isEmpty then .ok (0, .random source)
      else
        let (choice, source) := source.drawBelow labels.length
        .ok (choice, .random source)
  | .comparing bindings fallback =>
      let found := (bindings.lookup (String.ofList (subject block.content.toList))).bind
        fun value => caseFor? value labels
      match found with
      | some choice => .ok (choice, .comparing bindings fallback)
      | none =>
          (fallback.selectCase index block labels).map fun (choice, fallback) =>
            (choice, .comparing bindings fallback)

def progress? : Adviser → Option (Nat × Nat)
  | .scripted answers asked _ => some (asked, answers.length)
  | _ => none

end Adviser

def advising : Oracle Adviser where
  decide adviser index block := adviser.decide index block
  selectCase adviser index block labels := adviser.selectCase index block labels

end Oracle

end Flowchart
