import Flowchart.Comparison.Reader
import Flowchart.Recursion.Argument
import Flowchart.Recursion.Body

/-!
The cases of a recursive function. The lines of its body are gathered into branches; a branch with
a call is a recursive case, and one that only ends the function is a base case.
-/

namespace Flowchart.Recursion

open Text

/-! ## Single cases -/

/-- The case of a line with calls. Of a return line only the expression counts, and the calls are
looked for again in it. -/
def recursiveCase (targets parameters : List String) (line : BodyLine) : RecursiveCase :=
  let expression := (returned? line.text).getD line.text
  let inside := if (returned? line.text).isSome then callsOf targets expression else []
  let sites := if inside.isEmpty then line.sites else inside
  { expression := String.ofList (trim expression)
    arguments := line.sites.flatMap (·.arguments)
    transformations := line.sites.flatMap fun site =>
      site.arguments.zipIdx.map fun (argument, position) =>
        transformation argument.toList parameters[position]?
    operation := operation expression sites }

def exitOf (text : List Char) : Exit × Option String :=
  match exitWord? text with
  | some word => (.ofName (String.ofList (lower word)), none)
  | none =>
      let value := trim ((returned? text).getD [])
      if value.isEmpty then (.empty, none) else (.return, some (String.ofList value))

def comparedText : Value → String
  | .null => "null"
  | value => value.shown

def baseCase (condition : List Char) (line : BodyLine) : Except NumeralError BaseCase := do
  let (exit, value) := exitOf line.text
  let comparison ←
    if condition.isEmpty || condition = "else".toList then pure none
    else Comparison.read? condition
  return {
    condition := String.ofList condition
    value
    exit
    relation := comparison.map (·.relation.symbol)
    comparedWith := comparison.map fun comparison => comparedText comparison.right }

/-! ## Branches -/

structure Branch where
  indent : Nat
  condition : List Char
  lines : List BodyLine
deriving DecidableEq, Repr

def conditionHeads : List Phrase :=
  [[.text "else", .gap, .text "if", .space], [.text "elif", .space], [.text "if", .space]]

def dropLastThen (text : List Char) : List Char :=
  let count := text.length - 4
  let before := trimEnd (text.take count)
  if (text.drop count).map fold = "then".toList ∧ before.length < count then before else text

def conditionOf (text : List Char) : List Char :=
  if elsePhrase.begins fold text then "else".toList
  else trim (dropLastThen ((Phrase.firstAfter? fold conditionHeads text).getD text))

structure CaseSearch where
  branches : List Branch := []
  baseCases : List BaseCase := []
  recursiveCases : List RecursiveCase := []

namespace CaseSearch

variable (targets parameters : List String)

def addLine (search : CaseSearch) (condition : List Char) (line : BodyLine) :
    Except NumeralError CaseSearch :=
  if line.sites.isEmpty then
    (baseCase condition line).map fun found =>
      { search with baseCases := search.baseCases ++ [found] }
  else
    .ok { search with
      recursiveCases := search.recursiveCases ++ [recursiveCase targets parameters line] }

def addBranch (search : CaseSearch) (branch : Branch) : Except NumeralError CaseSearch :=
  match branch.lines.find? fun line => !line.sites.isEmpty with
  | some line => search.addLine targets parameters branch.condition line
  | none => match branch.lines.find? fun line => isExitLine line.text with
      | some line => search.addLine targets parameters branch.condition line
      | none => .ok search

def closeOne (search : CaseSearch) : Except NumeralError CaseSearch :=
  match search.branches with
  | [] => .ok search
  | branch :: branches => ({ search with branches }).addBranch targets parameters branch

def closeWhile (property : Branch → Bool) :
    List Branch → CaseSearch → Except NumeralError CaseSearch
  | [], search => .ok { search with branches := [] }
  | branch :: branches, search =>
      if property branch then do
        let search ← search.addBranch targets parameters branch
        closeWhile property branches search
      else .ok { search with branches := branch :: branches }

def close (property : Branch → Bool) (search : CaseSearch) : Except NumeralError CaseSearch :=
  closeWhile targets parameters property search.branches search

def addStatement (search : CaseSearch) (line : BodyLine) : Except NumeralError CaseSearch :=
  match search.branches with
  | branch :: branches =>
      .ok { search with branches := { branch with lines := branch.lines ++ [line] } :: branches }
  | [] =>
      if !line.sites.isEmpty || isExitLine line.text then
        search.addLine targets parameters [] line
      else .ok search

/-- Takes in the next line. A line further out than a branch ends it, and so does a statement on
its own level. -/
def add (search : CaseSearch) (line : BodyLine) : Except NumeralError CaseSearch := do
  if isComment line.text then return search
  let search ← search.close targets parameters fun branch => line.indent < branch.indent
  if isIfEndLine line.text then search.closeOne targets parameters
  else if beginsBranch line.text then
    let search ←
      if search.branches.head?.any fun branch => branch.indent = line.indent then
        search.closeOne targets parameters
      else pure search
    return { search with
      branches := ⟨line.indent, conditionOf line.text, []⟩ :: search.branches }
  else
    let search ← search.close targets parameters fun branch => line.indent ≤ branch.indent
    search.addStatement targets parameters line

def ofBody (body : List BodyLine) : Except NumeralError CaseSearch := do
  let search ← body.foldlM (add targets parameters) {}
  search.close targets parameters fun _ => true

end CaseSearch

end Flowchart.Recursion
