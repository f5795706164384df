import Flowchart.Graph
import Flowchart.ImplicitElse
import Flowchart.Procedure.CallGraph
import Flowchart.Procedure.Capture
import Flowchart.Recursion.Analysis

/-!
The functions of a program: their bodies as blocks, and their recursion.
-/

namespace Flowchart

open Text

/-- A function. Its body begins with an input block for each parameter. -/
structure Procedure where
  name : String
  parameters : List String
  body : List Block
  recursion : Option Recursion
  /-- The place of the header among the lines of the program. -/
  sourceLine : Nat := 0
  edges : List Edge := []
deriving DecidableEq, Repr

namespace Procedure

def graph (procedure : Procedure) : Graph := ⟨procedure.body, procedure.edges⟩

def isRecursive (procedure : Procedure) : Bool := procedure.recursion.any (·.isRecursive)

def parameterBlock (parameter : String) : Block where
  content := "Parameter: " ++ parameter
  kind := .input

def bodyBlocks (parameters : List String) (lines : List (List Char)) : List Block :=
  parameters.map parameterBlock ++ completeConditionals (outline (dedent (joinLines lines)))

/-- Which of the functions call which. Of several functions with one name the last counts. -/
def callGraph (captured : List Captured) : CallGraph :=
  captured.foldl (fun graph procedure =>
    let text := joinLines procedure.body
    let callees := (captured.map (·.header.name)).filter fun other =>
      other ≠ procedure.header.name && callsFunction text other.toList
    putField procedure.header.name callees.eraseDups graph) []

def ofCaptured (scorer : Recursion.Scorer) (graph : CallGraph) (captured : Captured) :
    Except NumeralError Procedure := do
  let ⟨name, parameters⟩ := captured.header
  let recursion ← Recursion.analyze scorer name parameters
    (lines (dedent (joinLines captured.body))) (graph.mutualPartners name)
  return {
    name
    parameters
    body := bodyBlocks parameters captured.body
    recursion := some recursion
    sourceLine := captured.line }

structure Extraction where
  mainFlow : List Char
  procedures : List Procedure

def extract (scorer : Recursion.Scorer) (text : List Char) : Except NumeralError Extraction := do
  let segments := segments (lines text)
  let captured := captured segments
  let procedures ← captured.mapM (ofCaptured scorer (callGraph captured))
  return ⟨joinLines (Procedure.mainFlow segments), procedures⟩

end Procedure

end Flowchart
