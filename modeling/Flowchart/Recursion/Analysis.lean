import Flowchart.Recursion.Cases
import Flowchart.Recursion.Pattern

/-!
The recursion of a function, told from the lines of its body alone.
-/

namespace Flowchart.Recursion

open Text

/-! ## Call points -/

def guardReach : Nat := 3

def callPointsOf (before : List BodyLine) (line : BodyLine) : List CallPoint :=
  let guarded := (line :: before.take guardReach).any fun near => opensBranch near.text
  line.sites.map fun site =>
    ⟨line.index, String.ofList line.text, site.arguments, guarded, some site.callee⟩

def callPointsAfter (before : List BodyLine) : List BodyLine → List CallPoint
  | [] => []
  | line :: rest => callPointsOf before line ++ callPointsAfter (line :: before) rest

def callPointsIn (body : List BodyLine) : List CallPoint := callPointsAfter [] body

/-! ## The form -/

def hasNestedCalls (line : BodyLine) : Bool :=
  line.sites.any fun outer =>
    line.sites.any fun inner => outer.start < inner.start && inner.start < outer.stop

def treeWords : List Phrase :=
  ["node", "tree", "left", "right", "child", "children", "leaf", "root"].map fun word =>
    [.edge, .text word, .edge]

def hasTreeWord (text : List Char) : Bool := treeWords.any fun phrase => phrase.occurs fold text

def isTailCall (name : String) (body : List BodyLine) (points : List CallPoint) : Bool :=
  let statements := body.filter fun line => !isComment line.text && !isEndLine line.text
  match points, statements.getLast? with
  | [point], some line =>
      let text := trim ((returned? line.text).getD line.text)
      line.index = point.line &&
        match findCalls text (point.callee.getD name).toList with
        | [site] => site.start = 0 && site.stop = text.length
        | _ => false
  | _, _ => false

def formOf (name : String) (body : List BodyLine) (points : List CallPoint)
    (cases : List RecursiveCase) : Form :=
  if points.any fun point => point.callee.any fun callee =>
      !Call.sameName (some callee) (some name) then .mutual
  else if body.any hasNestedCalls then .nested
  else if 1 < points.length then
    let reachesMembers := cases.any fun found =>
      found.transformations.any fun transformation => transformation.change = .propertyAccess
    if reachesMembers || body.any (fun line => 1 < line.sites.length) || hasTreeWord (bodyText body)
    then .tree
    else .multiple
  else if isTailCall name body points then .tail
  else .linear

/-! ## The depth -/

def depthMargin : Int := 10

def halvingDepth : Int := 10

def wholeNumber? (text : String) : Option (Bool × List Char) :=
  let (negative, digits) := match text.toList with
    | '-' :: rest => (true, rest)
    | other => (false, other)
  if isNumber digits then some (negative, digits) else none

def depthOfCases (cases : List BaseCase) : Except NumeralError (Option Int) :=
  match cases.findSome? fun found => found.comparedWith.bind wholeNumber? with
  | none => .ok none
  | some (negative, digits) =>
      (Numeral.wholeOfDigits digits).map fun value =>
        some (Numeral.signed negative value + depthMargin)

def depthOf (pattern : Pattern) (cases : List BaseCase) :
    Except NumeralError (Option Int × Option String) :=
  if pattern.name = "factorial" then (depthOfCases cases).map (·, some "n")
  else if pattern.name = "fibonacci" then (depthOfCases cases).map (·, some "2^n")
  else if pattern.name = "tree-traversal" ∨ pattern.name = "binary-search" then
    .ok (some halvingDepth, some "log(n)")
  else .ok (none, none)

/-! ## The whole -/

/-- The functions whose calls count: the function itself and its peers under other names. -/
def targetsOf (name : String) (peers : List String) : List String :=
  name :: peers.filter fun peer => !Call.sameName (some peer) (some name)

def analyze (scorer : Scorer) (name : String) (parameters : List String)
    (lines : List (List Char)) (peers : List String) : Except NumeralError Recursion := do
  let targets := targetsOf name peers
  let body := bodyLines targets lines
  let points := callPointsIn body
  if points.isEmpty then return {}
  let pattern := scorer (bodyText body)
  let cases ← CaseSearch.ofBody targets parameters body
  let (depthHint, depthFormula) ← depthOf pattern cases.baseCases
  return {
    isRecursive := true
    form := formOf name body points cases.recursiveCases
    callPoints := points
    pattern := some pattern
    baseCases := cases.baseCases
    recursiveCases := cases.recursiveCases
    depthHint
    depthFormula }

end Flowchart.Recursion
