import Flowchart.Diagnosis
import Flowchart.Graph.Builder

/-!
Programs: a main flow and functions as flow graphs, with what is wrong with them.
-/

namespace Flowchart

structure Program where
  source : String
  main : Graph
  procedures : List Procedure
  diagnosis : Diagnosis
deriving Repr

namespace Program

def tagCalls (recursive : List String) (blocks : List Block) : List Block :=
  blocks.map fun block =>
    if block.kind = .call then
      let callee := (Call.callee? block.content.toList).map String.ofList
      { block with
        recursiveCall :=
          some (callee.any fun callee => recursive.contains (Call.plainName (some callee))) }
    else block

def recursiveNames (procedures : List Procedure) : List String :=
  CallGraph.sortNames ((procedures.filter (·.isRecursive)).map fun procedure =>
    Call.plainName (some procedure.name))

def completeProcedure (recursive : List String) (procedure : Procedure) : Procedure :=
  let graph := Graph.ofBlocks (tagCalls recursive procedure.body) (some procedure.name)
  { procedure with body := graph.blocks, edges := graph.edges }

/-- The program that a text writes. The only texts without one hold a numeral that is too long to
be read. -/
def compile (scorer : Recursion.Scorer) (source : String) : Except NumeralError Program := do
  let ⟨mainFlow, procedures⟩ ← Procedure.extract scorer source.toList
  let recursive := recursiveNames procedures
  let main := Graph.ofBlocks (tagCalls recursive (completeConditionals (outline mainFlow)))
  let procedures := procedures.map (completeProcedure recursive)
  return { source, main, procedures, diagnosis := .ofProgram main.blocks procedures }

def procedure? (program : Program) (name : String) : Option Procedure :=
  program.procedures.find? fun procedure => procedure.name == name

end Program

end Flowchart
