import Flowchart.Proofs.Procedure.Matched
import Flowchart.Proofs.Program.Compiled

/-!
Noise in the layout of a program: more blank lines, and double colons behind lines.

Neither is seen by the outline, by the search for functions or by the analysis of their bodies, and
the margin of a body is the same with and without them. So only the places of lines change.
-/

namespace Flowchart

open Text Outline

namespace Text

inductive Ended : List Char → List Char → Prop
  | same (line : List Char) : Ended line line
  | doubleColon {line : List Char} (some : isAllBlank line = false)
      (open' : isTerminated line = false) : Ended line (line ++ Text.doubleColon)

end Text

namespace Procedure

theorem sameReading_of_ended {line other : List Char} (ended : Ended line other) :
    SameReading line other := by
  cases ended with
  | same => exact ⟨rfl, rfl, rfl, rfl, rfl, rfl⟩
  | doubleColon some open' =>
      refine ⟨?_, leadingWidth_append_doubleColon line, ?_, content_append_doubleColon open',
        Header.read?_append_doubleColon open', ?_⟩
      · rw [some, isAllBlank, List.all_append]
        exact Bool.and_false _
      · rw [indentation, indentation, takeWhile_isIndent_append_doubleColon]
      · exact isEndLine_pad (List.forall_mem_nil _) isPadding_of_mem_doubleColon
          not_isBlank_of_mem_doubleColon line

abbrev Noisy : List (List Char) → List (List Char) → Prop := Spaced Ended

theorem all_isIndent_of_ended {line other : List Char} (ended : Ended line other) :
    other.all isIndent = line.all isIndent := by
  cases ended with
  | same => rfl
  | doubleColon some open' =>
      have own : line.all isIndent = false := by
        apply Bool.eq_false_iff.mpr
        intro only
        rw [isAllBlank_of_all_isIndent only] at some
        cases some
      rw [List.all_append, own]
      rfl

theorem takeWhile_isIndent_of_ended {line other : List Char} (ended : Ended line other) :
    other.takeWhile isIndent = line.takeWhile isIndent := by
  cases ended with
  | same => rfl
  | doubleColon some open' => exact takeWhile_isIndent_append_doubleColon line

theorem Noisy.margin_eq {rows others : List (List Char)} (noisy : Noisy rows others) :
    margin others = margin rows := by
  have starts := noisy.starts_eq fun ended =>
    ⟨all_isIndent_of_ended ended, takeWhile_isIndent_of_ended ended⟩
  rw [margin, margin, starts]

theorem Noisy.bodyBlocks_eq {body bodyToo : List (List Char)} (noisy : Noisy body bodyToo)
    (unbroken : Unbroken body) (unbrokenToo : Unbroken bodyToo) (parameters : List String) :
    bodyBlocks parameters bodyToo = bodyBlocks parameters body := by
  have inside : seen indentation (dedentLines bodyToo) = seen indentation (dedentLines body) := by
    apply further_injective (columns (margin body))
    rw [further_seen_dedentLines isMeasure_indentation, ← noisy.margin_eq,
      further_seen_dedentLines isMeasure_indentation,
      noisy.seen_indentation sameReading_of_ended]
  rw [bodyBlocks, bodyBlocks, outline_dedent unbroken, outline_dedent unbrokenToo, inside]

theorem unplaced_of_remade {procedure other : Procedure} {function twin : Captured}
    (twins : Twins Ended function twin) (remade : Remade function.body twin.body procedure other) :
    other.unplaced = procedure.unplaced := by
  rw [remade.unplaced_eq, Noisy.bodyBlocks_eq twins.body twins.unbroken twins.unbrokenToo,
    ← remade.body_eq]
  rfl

end Procedure

namespace Program

/-- A program without the places of lines, and without the text that it was written as. -/
def unplaced (program : Program) : Program :=
  { program with
    source := ""
    procedures := program.procedures.map Procedure.unplaced }

/-! ## From functions to the program -/

theorem ofRecursion_unplaced (name : String) (recursion : Option Recursion) :
    Diagnosis.ofRecursion name (recursion.map Recursion.unplaced) =
      Diagnosis.ofRecursion name recursion := by
  cases recursion with
  | none => rfl
  | some recursion =>
      simp only [Option.map_some, Diagnosis.ofRecursion, Recursion.unplaced, List.isEmpty_map]

theorem ofProgram_unplaced (blocks : List Block) (procedures : List Procedure) :
    Diagnosis.ofProgram blocks (procedures.map Procedure.unplaced) =
      Diagnosis.ofProgram blocks procedures := by
  rw [Diagnosis.ofProgram, Diagnosis.ofProgram, List.foldl_map]
  congr 1
  funext diagnosis procedure
  rw [Diagnosis.ofProcedure, Procedure.unplaced, ofRecursion_unplaced]
  rfl

theorem ofExtraction_unplaced {source sourceToo : String} {extraction other : Procedure.Extraction}
    (flow : outline other.mainFlow = outline extraction.mainFlow)
    (procedures : List.Forall₂ (fun procedure other => other.unplaced = procedure.unplaced)
      extraction.procedures other.procedures) :
    (ofExtraction sourceToo other).unplaced = (ofExtraction source extraction).unplaced := by
  have recursive : recursiveNames other.procedures = recursiveNames extraction.procedures := by
    apply recursiveNames_eq_of_forall₂
    apply procedures.imp
    intro procedure other same
    refine ⟨(congrArg Procedure.name same :), ?_⟩
    rw [← Procedure.isRecursive_unplaced other, same, Procedure.isRecursive_unplaced]
  -- The places of lines are neither read nor written when a body is completed.
  have completed (names : List String) (procedures : List Procedure) :
      (procedures.map (completeProcedure names)).map Procedure.unplaced =
        (procedures.map Procedure.unplaced).map (completeProcedure names) := by
    rw [List.map_map, List.map_map]
    rfl
  have same : (other.procedures.map (completeProcedure (recursiveNames other.procedures))).map
        Procedure.unplaced =
      (extraction.procedures.map (completeProcedure (recursiveNames extraction.procedures))).map
        Procedure.unplaced := by
    rw [completed, completed, Procedure.map_eq_of_forall₂ procedures, recursive]
  simp only [ofExtraction, unplaced]
  rw [← ofProgram_unplaced, same, ofProgram_unplaced, flow, recursive]

/-- Noise in the layout of a text changes nothing of the program that it writes but the places of
lines. -/
theorem compile_unplaced_of_noisy (scorer : Recursion.Scorer) {source sourceToo : String}
    (noisy : Procedure.Noisy (lines source.toList) (lines sourceToo.toList)) :
    (compile scorer sourceToo).map unplaced = (compile scorer source).map unplaced := by
  have extracted := Procedure.matches_extract Procedure.sameReading_of_ended noisy scorer
  rw [compile_eq, compile_eq]
  apply extracted.map_map_eq
  intro extraction other remade
  apply ofExtraction_unplaced remade.flow
  apply remade.procedures.imp
  rintro procedure other ⟨function, twin, twins, both⟩
  exact Procedure.unplaced_of_remade twins both

def callingItself : List (List Char) :=
  ["Function f(a)".toList, "    Return f(a)".toList, "End function".toList, "Start".toList,
    "End".toList]

def noisilyCallingItself : List (List Char) :=
  [[], "Function f(a)".toList ++ doubleColon, " \t".toList, "    Return f(a)".toList ++ doubleColon,
    [], "End function".toList ++ doubleColon, "Start".toList, "    ".toList, "End".toList]

theorem compile_unplaced_callingItself :
    Procedure.Noisy (lines (String.ofList (joinLines callingItself)).toList)
        (lines (String.ofList (joinLines noisilyCallingItself)).toList) ∧
      (compile .standard (String.ofList (joinLines noisilyCallingItself))).map unplaced =
        (compile .standard (String.ofList (joinLines callingItself))).map unplaced := by
  have quiet : lines (String.ofList (joinLines callingItself)).toList = callingItself := by
    decide +kernel
  have loud : lines (String.ofList (joinLines noisilyCallingItself)).toList =
      noisilyCallingItself := by
    decide +kernel
  have noisy : Procedure.Noisy callingItself noisilyCallingItself := by
    apply Procedure.Spaced.blank rfl
    apply Procedure.Spaced.line (.doubleColon (by decide) (by decide))
    apply Procedure.Spaced.blank (by decide)
    apply Procedure.Spaced.line (.doubleColon (by decide) (by decide))
    apply Procedure.Spaced.blank rfl
    apply Procedure.Spaced.line (.doubleColon (by decide) (by decide))
    apply Procedure.Spaced.line (.same _)
    apply Procedure.Spaced.blank (by decide)
    exact .line (.same _) .nil
  rw [← quiet, ← loud] at noisy
  exact ⟨noisy, compile_unplaced_of_noisy .standard noisy⟩

end Program

end Flowchart
