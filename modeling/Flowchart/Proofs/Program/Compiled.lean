import Flowchart.Program
import Mathlib.Data.List.Forall2

/-!
The graphs of a compiled program: each is drawn from a row of blocks.
-/

namespace Flowchart.Program

def graphs (program : Program) : List Graph :=
  program.main :: program.procedures.map Procedure.graph

variable {scorer : Recursion.Scorer} {source : String} {program : Program}

theorem of_compile (compiled : compile scorer source = .ok program) :
    ∃ extraction, Procedure.extract scorer source.toList = .ok extraction ∧
      program.main =
        Graph.ofBlocks (tagCalls (recursiveNames extraction.procedures)
          (completeConditionals (outline extraction.mainFlow))) ∧
      program.procedures =
        extraction.procedures.map (completeProcedure (recursiveNames extraction.procedures)) := by
  unfold compile at compiled
  cases extracted : Procedure.extract scorer source.toList with
  | error error =>
      rw [extracted] at compiled
      cases compiled
  | ok extraction =>
      rw [extracted] at compiled
      cases compiled
      exact ⟨extraction, rfl, rfl, rfl⟩

theorem main_eq_ofBlocks (compiled : compile scorer source = .ok program) :
    program.main = Graph.ofBlocks program.main.blocks := by
  rcases of_compile compiled with ⟨extraction, _, main, _⟩
  rw [main]
  rfl

theorem exists_ofBlocks_of_mem_graphs (compiled : compile scorer source = .ok program)
    {graph : Graph} (member : graph ∈ program.graphs) :
    ∃ functionName, graph = Graph.ofBlocks graph.blocks functionName := by
  rcases List.mem_cons.mp member with rfl | member
  · exact ⟨none, main_eq_ofBlocks compiled⟩
  · rcases of_compile compiled with ⟨extraction, _, _, procedures⟩
    rcases List.mem_map.mp member with ⟨procedure, inProgram, rfl⟩
    rw [procedures] at inProgram
    rcases List.mem_map.mp inProgram with ⟨extracted, _, rfl⟩
    exact ⟨some extracted.name, rfl⟩

theorem mainFlow_of_extract {text : List Char} {extraction : Procedure.Extraction}
    (extracted : Procedure.extract scorer text = .ok extraction) :
    extraction.mainFlow =
      Text.joinLines (Procedure.mainFlow (Procedure.segments (Text.lines text))) := by
  simp only [Procedure.extract] at extracted
  cases captured : (Procedure.captured (Procedure.segments (Text.lines text))).mapM
      (Procedure.ofCaptured scorer
        (Procedure.callGraph (Procedure.captured (Procedure.segments (Text.lines text))))) with
  | error error =>
      rw [captured] at extracted
      cases extracted
  | ok procedures =>
      rw [captured] at extracted
      cases extracted
      rfl

def ofExtraction (source : String) (extraction : Procedure.Extraction) : Program :=
  let recursive := recursiveNames extraction.procedures
  let main :=
    Graph.ofBlocks (tagCalls recursive (completeConditionals (outline extraction.mainFlow)))
  let procedures := extraction.procedures.map (completeProcedure recursive)
  { source, main, procedures, diagnosis := .ofProgram main.blocks procedures }

theorem compile_eq (scorer : Recursion.Scorer) (source : String) :
    compile scorer source = (Procedure.extract scorer source.toList).map (ofExtraction source) := by
  rw [compile]
  cases Procedure.extract scorer source.toList with
  | error error => rfl
  | ok extraction => rfl

theorem recursiveNames_eq_of_forall₂ {procedures others : List Procedure}
    (pairs : List.Forall₂ (fun procedure other =>
      other.name = procedure.name ∧ other.isRecursive = procedure.isRecursive) procedures others) :
    recursiveNames others = recursiveNames procedures := by
  rw [recursiveNames, recursiveNames]
  congr 1
  induction pairs with
  | nil => rfl
  | cons same pairs induction =>
      rw [List.filter_cons, List.filter_cons, same.2]
      split
      · rw [List.map_cons, List.map_cons, same.1, induction]
      · exact induction

/-! ## Texts without functions -/

theorem segmentsFrom_of_plain (index : Nat) (lines : List (List Char))
    (plain : ∀ line ∈ lines, Procedure.Header.read? line = none) :
    Procedure.segmentsFrom index lines = lines.map Procedure.Segment.plain := by
  induction lines generalizing index with
  | nil => simp [Procedure.segmentsFrom]
  | cons line rest induction =>
      have later := induction (index + 1) fun other member =>
        plain other (List.mem_cons_of_mem _ member)
      rw [Procedure.segmentsFrom, plain line List.mem_cons_self, List.map_cons]
      simp only [later]

theorem recursiveNames_nil : recursiveNames [] = [] := by
  simp [recursiveNames, CallGraph.sortNames]

/-- A text without function headers compiles to the chart of its outline. -/
theorem compile_of_plain (scorer : Recursion.Scorer) (source : String)
    (plain : ∀ line ∈ Text.lines source.toList, Procedure.Header.read? line = none) :
    ∃ program, compile scorer source = .ok program ∧ program.procedures = [] ∧
      program.main =
        Graph.ofBlocks (tagCalls [] (completeConditionals
          (outline (Text.joinLines (Text.lines source.toList))))) := by
  have segments : Procedure.segments (Text.lines source.toList) =
      (Text.lines source.toList).map Procedure.Segment.plain :=
    segmentsFrom_of_plain 0 _ plain
  have flow : Procedure.mainFlow ((Text.lines source.toList).map Procedure.Segment.plain) =
      Text.lines source.toList := by
    simp [Procedure.mainFlow, List.filterMap_map, Function.comp_def, Procedure.Segment.plain?]
  have captured : Procedure.captured ((Text.lines source.toList).map Procedure.Segment.plain) =
      [] := by
    simp [Procedure.captured, List.filterMap_map, Function.comp_def, Procedure.Segment.procedure?]
  have extracted : Procedure.extract scorer source.toList =
      .ok ⟨Text.joinLines (Text.lines source.toList), []⟩ := by
    simp only [Procedure.extract, segments, flow, captured]
    rfl
  have compiles : ∃ program, compile scorer source = .ok program := by
    unfold compile
    rw [extracted]
    exact ⟨_, rfl⟩
  rcases compiles with ⟨program, compiled⟩
  rcases of_compile compiled with ⟨extraction, same, main, procedures⟩
  cases extracted.symm.trans same
  rw [recursiveNames_nil] at main
  exact ⟨program, compiled, procedures, main⟩

end Flowchart.Program
