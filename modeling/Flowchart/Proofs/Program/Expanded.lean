import Flowchart.Proofs.Procedure.Surplus
import Flowchart.Proofs.Program.MainFlow

/-!
Programs with tabs at the start of lines, and with four spaces for each of them.

The main flow does not change, since its columns are counted. A function changes just if the margin
of its body leaves a surplus and the first of the least indented lines shows it.
-/

namespace Flowchart

open Text

namespace Program

/-! ## The levels of a completed body -/

theorem levels_tagCalls {written : List Block}
    (plain : ∀ block ∈ written, block.kind ≠ .implicitElse) (recursive parameters : List String) :
    ((tagCalls recursive
        (parameters.map Procedure.parameterBlock ++ completeConditionals written)).filter
          fun block => block.kind ≠ .implicitElse).map (·.level) =
      (parameters.map Procedure.parameterBlock).map (·.level) ++ written.map (·.level) := by
  have inputs : (parameters.map Procedure.parameterBlock).filter
      (fun block => block.kind ≠ .implicitElse) = parameters.map Procedure.parameterBlock := by
    apply List.filter_eq_self.mpr
    intro block member
    obtain ⟨parameter, _, rfl⟩ := List.mem_map.mp member
    rfl
  obtain ⟨mark, marked⟩ := exists_marked recursive
    (parameters.map Procedure.parameterBlock ++ completeConditionals written)
  have sameKinds : (fun block : Block => decide (block.kind ≠ .implicitElse)) ∘ Block.marked mark =
      fun block => decide (block.kind ≠ .implicitElse) := rfl
  have sameLevels : (fun block : Block => block.level) ∘ Block.marked mark =
      fun block => block.level := rfl
  rw [marked, List.filter_map, List.map_map, sameKinds, sameLevels, List.filter_append, inputs,
    ImplicitElse.filter_completeConditionals plain, List.map_append]

section

variable {function twin : Procedure.Captured} {procedure remade : Procedure}

theorem graph_completeProcedure_eq_iff (twins : Procedure.Twins Procedure.Expanded function twin)
    (both : Procedure.Remade function.body twin.body procedure remade) (recursive : List String) :
    (completeProcedure recursive remade).graph = (completeProcedure recursive procedure).graph ↔
      ¬Procedure.ShowsSurplus function.body := by
  have bodyToo : remade.body = Procedure.bodyBlocks procedure.parameters twin.body :=
    (congrArg Procedure.body both.unplaced_eq :)
  constructor
  · -- The levels of the written lines can be read off the completed body.
    intro same uneven
    apply Procedure.levels_outline_dedent_ne twins.body twins.unbroken twins.unbrokenToo uneven
    have blocks : tagCalls recursive remade.body = tagCalls recursive procedure.body :=
      (congrArg Graph.blocks same :)
    have levels := congrArg (fun blocks : List Block =>
      (blocks.filter fun block => block.kind ≠ .implicitElse).map (·.level)) blocks
    rw [bodyToo, both.body_eq] at levels
    dsimp only [Procedure.bodyBlocks] at levels
    rw [levels_tagCalls (fun _ => kind_ne_implicitElse_of_mem_outline),
      levels_tagCalls (fun _ => kind_ne_implicitElse_of_mem_outline)] at levels
    exact List.append_cancel_left levels
  · intro even
    have outlines := Procedure.outline_dedent_of_not_showsSurplus twins.body twins.unbroken
      twins.unbrokenToo even
    have bodies : remade.body = procedure.body := by
      rw [bodyToo, both.body_eq, Procedure.bodyBlocks, Procedure.bodyBlocks, outlines]
    rw [completeProcedure, completeProcedure, bodies, both.name_eq]
    rfl

end

/-! ## Texts -/

/-- Where tabs at the start of lines become spaces, the main flow stays as it is, and so does each
function in which no surplus shows. -/
theorem compile_expandTabs (scorer : Recursion.Scorer) (source : String) :
    Matches (fun program expanded => expanded.main = program.main ∧
        expanded.procedures.length = program.procedures.length ∧
        List.Forall₂ (fun function pair =>
            pair.1.name = function.header.name ∧ pair.2.name = pair.1.name ∧
              pair.2.parameters = pair.1.parameters ∧
              (pair.2.graph = pair.1.graph ↔ ¬Procedure.ShowsSurplus function.body))
          (Procedure.definitions source.toList) (program.procedures.zip expanded.procedures))
      (compile scorer source) (compile scorer (String.ofList (expandTabs source.toList))) := by
  have spaced := Procedure.spaced_expandTabs source.toList
  have twins := Procedure.forall₂_twins Procedure.sameReading_of_expanded spaced
  have graphs := Procedure.callGraph_eq Procedure.sameReading_of_expanded twins
  have extracted := Procedure.matches_extract Procedure.sameReading_of_expanded spaced scorer
  rw [compile_eq, compile_eq, String.toList_ofList]
  apply extracted.map
  intro extraction other first second remade
  have recursive : recursiveNames other.procedures = recursiveNames extraction.procedures := by
    apply recursiveNames_eq_of_forall₂
    apply remade.procedures.imp
    rintro procedure other ⟨function, twin, _, both⟩
    exact ⟨both.name_eq, both.isRecursive_eq⟩
  have firsts := Procedure.forall₂_of_extract first
  have seconds := Procedure.forall₂_of_extract second
  rw [graphs] at seconds
  refine ⟨?_, ?_, ?_⟩
  · simp only [ofExtraction, remade.flow, recursive]
  · simp only [ofExtraction, List.length_map]
    exact remade.procedures.length_eq.symm
  · have zipped : (ofExtraction source extraction).procedures.zip
          (ofExtraction (String.ofList (expandTabs source.toList)) other).procedures =
        (extraction.procedures.zip other.procedures).map (Prod.map
          (completeProcedure (recursiveNames extraction.procedures))
          (completeProcedure (recursiveNames extraction.procedures))) := by
      simp only [ofExtraction, recursive]
      exact List.zip_map
    rw [zipped, List.forall₂_map_right_iff]
    apply Procedure.forall₂_zip twins firsts seconds
    intro function twin procedure procedureToo pair made madeToo
    have both := pair.matches_ofCaptured Procedure.sameReading_of_expanded scorer
      (Procedure.callGraph (Procedure.captured (Procedure.segments (lines source.toList))))
    rw [made, madeToo] at both
    cases both with
    | ok both =>
        obtain ⟨_, _, name, _⟩ := Procedure.of_ofCaptured made
        exact ⟨name, both.name_eq, both.parameters_eq,
          graph_completeProcedure_eq_iff pair both _⟩

/-! ## Tabs and spaces mixed -/

def mixed : String := "Function f(a)\n\tx = 1\n    y = 2\nEnd function\nStart\nEnd"

def bodyLevels (program : Program) : List (List Int) :=
  program.procedures.map fun procedure => procedure.body.map (·.level)

theorem exists_changed_by_expandTabs : ¬∀ (scorer : Recursion.Scorer) (source : String),
    Matches (fun program expanded => expanded.main = program.main ∧
        List.Forall₂ (fun procedure remade => remade.graph = procedure.graph)
          program.procedures expanded.procedures)
      (compile scorer source) (compile scorer (String.ofList (expandTabs source.toList))) := by
  intro all
  have own := all .standard mixed
  have levels : (compile .standard mixed).toOption.map bodyLevels = some [[0, 1, 1]] := by
    decide +kernel
  have levelsThen : (compile .standard (String.ofList (expandTabs mixed.toList))).toOption.map
      bodyLevels = some [[0, 0, 0]] := by
    decide +kernel
  generalize compile .standard mixed = program at own levels
  generalize compile .standard (String.ofList (expandTabs mixed.toList)) = programThen
    at own levelsThen
  cases own with
  | error error => cases levels
  | @ok program programThen same =>
      have unchanged : bodyLevels programThen = bodyLevels program := by
        apply Procedure.map_eq_of_forall₂
        apply same.2.imp
        intro procedure remade graph
        exact congrArg (fun graph : Graph => graph.blocks.map (·.level)) graph
      rw [Except.toOption, Option.map_some] at levels levelsThen
      have first := Option.some.inj levels
      rw [← unchanged, Option.some.inj levelsThen] at first
      cases first

end Program

end Flowchart
