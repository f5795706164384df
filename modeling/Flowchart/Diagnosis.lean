import Flowchart.Extent
import Flowchart.Procedure

/-!
Faults in the structure of a program. A missing start or end and a construct that is not closed are
errors; a loop that may not exit and a doubtful recursion are warnings.
-/

namespace Flowchart

open Text

/-- A fault. `place` is the text that says where it is, empty for the main flow. -/
inductive Finding
  | missingStart
  | severalStarts (count : Nat)
  | missingEnd
  | severalEnds (count : Nat)
  | unclosedConditionals (place : String) (count : Nat)
  | strayEndMarkers (place : String) (count : Nat)
  | endlessLoop (place content : String) (index : Nat)
  | unclosedLoops (place : String) (count : Nat)
  | noBaseCase (place : String)
  | noRecursiveCall (place : String)
  | baseCaseWithoutCondition (place : String) (number : Nat)
  | baseCaseWithoutValue (place : String) (number : Nat)
  | unchangedParameters (place : String) (number : Nat) (expression : String)
  | divergingParameters (place : String) (number : Nat) (expression : String)
  | tailRecursion (place : String)
  | mutualRecursion (place : String)
deriving DecidableEq, Repr

namespace Finding

def message : Finding → String
  | missingStart => "Missing START block"
  | severalStarts count => s!"Multiple START blocks ({count}); exactly one is required"
  | missingEnd => "Missing END block"
  | severalEnds count => s!"Multiple END blocks ({count}); exactly one is required"
  | unclosedConditionals place count =>
      s!"{place}{count} unclosed conditional(s): missing 'End if'"
  | strayEndMarkers place count =>
      s!"{place}{count} 'End if' marker(s) without a matching 'If'"
  | endlessLoop place content index =>
      s!"{place}Loop '{content}' (block {index}) may never exit: " ++
        "no break/continue/increment/decrement nearby"
  | unclosedLoops place count => s!"{place}{count} unclosed loop(s)"
  | noBaseCase place => s!"{place}recursive function has no base case (infinite recursion)"
  | noRecursiveCall place => s!"{place}marked recursive but no recursive call was found"
  | baseCaseWithoutCondition place number => s!"{place}base case {number} has no condition"
  | baseCaseWithoutValue place number => s!"{place}base case {number} returns no value"
  | unchangedParameters place number expression =>
      s!"{place}recursive case {number} ('{expression}') does not change its " ++
        "parameters; it may never terminate"
  | divergingParameters place number expression =>
      s!"{place}recursive case {number} ('{expression}') has no parameter " ++
        "moving toward a base case"
  | tailRecursion place => s!"{place}tail recursion could be written as a loop"
  | mutualRecursion place =>
      s!"{place}mutual recursion: make sure every partner function has a base case"

end Finding

structure Diagnosis where
  errors : List Finding := []
  warnings : List Finding := []
deriving DecidableEq, Repr

namespace Diagnosis

instance : Append Diagnosis :=
  ⟨fun left right => ⟨left.errors ++ right.errors, left.warnings ++ right.warnings⟩⟩

def isValid (diagnosis : Diagnosis) : Bool := diagnosis.errors.isEmpty

def failureMessage (errors : List Finding) : String :=
  "Structural validation failed:\n- " ++ String.intercalate "\n- " (errors.map Finding.message)

/-! ## Structure -/

def ofStartEnd (blocks : List Block) : List Finding :=
  let starts := blocks.countP fun block => block.kind = .start
  let stops := blocks.countP fun block => block.kind = .stop
  (if starts = 0 then [.missingStart] else if 1 < starts then [.severalStarts starts] else []) ++
    if stops = 0 then [.missingEnd] else if 1 < stops then [.severalEnds stops] else []

def conditionalBalance (blocks : List Block) : Int :=
  (blocks.countP Block.opensConditional : Int) -
    blocks.countP fun block => !block.opensConditional && block.isIfEnd

def ofConditionals (place : String) (blocks : List Block) : List Finding :=
  let balance := conditionalBalance blocks
  if 0 < balance then [.unclosedConditionals place balance.natAbs]
  else if balance < 0 then [.strayEndMarkers place balance.natAbs]
  else []

def exitReach : Nat := 9

def exitPhrases : List Phrase :=
  (["break", "continue", "increment", "decrement"].map fun word =>
    [.edge, .text word, .edge]) ++
  (["++", "--", "+=", "-="].map fun sign => [.text sign]) ++
  [[.oneOf "+-", .gap, .text "1", .edge]]

def mentionsExit (content : String) : Bool :=
  exitPhrases.any fun phrase => phrase.occurs fold content.toList

def ofLoop (place : String) (index : Nat) (fromLoop : List Block) : List Finding :=
  match fromLoop with
  | [] => []
  | loop :: _ =>
      if (fromLoop.take (exitReach + 1)).any fun block => mentionsExit block.content then []
      else [.endlessLoop place loop.content index]

def ofLoops (place : String) (blocks : List Block) : List Finding :=
  let loops := blocks.zipIdx.filter fun (block, _) => block.kind = .loop
  let unclosed := loops.countP fun (_, index) => (loopExtent blocks index).close.isNone
  loops.flatMap (fun (_, index) => ofLoop place index (blocks.drop index)) ++
    if unclosed = 0 then [] else [.unclosedLoops place unclosed]

def ofBlocks (blocks : List Block) (startEnd : Bool) (place : String) : Diagnosis where
  errors := (if startEnd then ofStartEnd blocks else []) ++ ofConditionals place blocks
  warnings := ofLoops place blocks

/-! ## Recursion -/

def placeOf (name : String) : String := s!"Function '{name}': "

open Recursion in
def ofBaseCase (place : String) (number : Nat) (found : BaseCase) : List Finding :=
  (if found.condition.isEmpty then [.baseCaseWithoutCondition place number] else []) ++
    if found.exit = .empty ∧ found.value.all String.isEmpty then
      [.baseCaseWithoutValue place number]
    else []

open Recursion in
def ofRecursiveCase (place : String) (number : Nat) (found : RecursiveCase) : List Finding :=
  if found.transformations.isEmpty then [.unchangedParameters place number found.expression]
  else if found.transformations.any (·.change.converges) then []
  else [.divergingParameters place number found.expression]

open Recursion in
def ofForm (place : String) : Form → List Finding
  | .tail => [.tailRecursion place]
  | .mutual => [.mutualRecursion place]
  | _ => []

def ofRecursion (name : String) (recursion : Option Recursion) : Diagnosis :=
  match recursion with
  | none => {}
  | some recursion =>
      if recursion.isRecursive then
        let place := placeOf name
        { errors :=
            (if recursion.baseCases.isEmpty then [.noBaseCase place] else []) ++
              if recursion.callPoints.isEmpty then [.noRecursiveCall place] else []
          warnings :=
            (recursion.baseCases.zipIdx 1).flatMap (fun (found, number) =>
              ofBaseCase place number found) ++
            (recursion.recursiveCases.zipIdx 1).flatMap (fun (found, number) =>
              ofRecursiveCase place number found) ++
            ofForm place recursion.form }
      else {}

def ofProcedure (procedure : Procedure) : Diagnosis :=
  ofBlocks procedure.body false (placeOf procedure.name) ++
    ofRecursion procedure.name procedure.recursion

def ofProgram (blocks : List Block) (procedures : List Procedure) : Diagnosis :=
  procedures.foldl (fun diagnosis procedure => diagnosis ++ ofProcedure procedure)
    (ofBlocks blocks true "")

end Diagnosis

end Flowchart
