import Flowchart.Proofs.Document.Parts
import Flowchart.Proofs.Procedure.Extracted
import Flowchart.Proofs.Program.Compiled

/-!
The documents of compiled programs.

The blocks and edges of a compiled program always have their shape, and its edges lie inside its
blocks. A document is refused only for the recursion of a function: for a base case with a number
from which the hint at the depth is counted on to one below zero, or with the name of an exit.
-/

namespace Flowchart

/-! ## Checks -/

namespace Document

theorem forM_eq_ok_iff {ε α : Type} {values : List α} {step : α → Except ε Unit} :
    values.forM step = .ok () ↔ ∀ value ∈ values, step value = .ok () := by
  induction values with
  | nil => simp [List.forM, pure, Except.pure]
  | cons value values induction =>
      rw [List.forM, List.forall_mem_cons, ← induction]
      cases step value with
      | error error => simp [bind, Except.bind]
      | ok done => simp [bind, Except.bind]

theorem isIndex_int (size index : Nat) : isIndex size (.int index) = decide (index < size) := by
  have notNegative : (Number.int index).isNegative = false := by
    simp [Number.isNegative, Number.less, Number.compare?, Int.compare_eq_lt]
  have less : (Number.int index).less (.int size) = decide (index < size) := by
    simp [Number.less, Number.compare?, Int.compare_eq_lt]
  rw [isIndex, notNegative, less]
  rfl

theorem numberAt_from (edge : Edge) : numberAt "from" edge.toJson = .int edge.source := rfl

theorem numberAt_to (edge : Edge) : numberAt "to" edge.toJson = .int edge.target := rfl

theorem checkEdges_of_inside {place : String} {document : Json} {blocks : List Block}
    {edges : List Edge}
    (hasBlocks : itemsAt "blocks" document = blocks.map Block.toJson)
    (hasEdges : itemsAt "edges" document = edges.map Edge.toJson)
    (inside : ∀ edge ∈ edges, ∃ source target : Nat, edge.source = source ∧
      source < blocks.length ∧ edge.target = target ∧ target < blocks.length) :
    checkEdges place document = .ok () := by
  rw [checkEdges, hasBlocks, hasEdges, List.length_map, forM_eq_ok_iff]
  rintro ⟨value, number⟩ member
  rcases List.mem_map.mp (List.fst_mem_of_mem_zipIdx member) with ⟨edge, inEdges, rfl⟩
  rcases inside edge inEdges with ⟨source, target, isSource, small, isTarget, small'⟩
  dsimp only
  rw [numberAt_from, numberAt_to, isSource, isTarget, isIndex_int, isIndex_int,
    decide_eq_true small, decide_eq_true small']
  rfl

theorem check_of_accepts {document : Json} (main : checkEdges "main" document = .ok ())
    (procedures : ∀ procedure ∈ itemsAt "functions" document,
      ∀ place, checkEdges place procedure = .ok ()) :
    check document = .ok () ↔ shape.accepts document = true := by
  have others : ((itemsAt "functions" document).forM fun procedure =>
      checkEdges s!"function '{nameOf procedure}'" procedure) = .ok () :=
    forM_eq_ok_iff.mpr fun procedure member => procedures procedure member _
  unfold check
  rw [main]
  cases shape.accepts document with
  | false => simp [throw, throwThe, MonadExceptOf.throw, bind, Except.bind]
  | true => simpa [bind, Except.bind, pure, Except.pure] using others

end Document

/-! ## Programs -/

namespace Program

open Document

variable {source : String} {program : Program} {procedure : Procedure}

theorem exists_of_mem_procedures {scorer : Recursion.Scorer}
    (compiled : compile scorer source = .ok program) (member : procedure ∈ program.procedures) :
    ∃ recursive function graph extracted,
      (∃ line, Procedure.Header.read? line = some function.header) ∧
      Procedure.ofCaptured scorer graph function = .ok extracted ∧
      procedure = completeProcedure recursive extracted := by
  rcases of_compile compiled with ⟨extraction, extracted, _, procedures⟩
  rw [procedures] at member
  rcases List.mem_map.mp member with ⟨own, inExtraction, rfl⟩
  rcases Procedure.exists_captured_of_mem extracted inExtraction with ⟨function, isCaptured, made⟩
  rcases (Procedure.of_mem_captured isCaptured).1 with ⟨line, _, isHeader⟩
  exact ⟨_, function, _, own, ⟨line, isHeader⟩, made, rfl⟩

theorem accepts_procedure_iff (compiled : compile .standard source = .ok program)
    (member : procedure ∈ program.procedures) :
    Document.procedure.accepts procedure.toJson = true ↔
      ∀ recursion ∈ procedure.recursion, recursion.IsListed := by
  rcases exists_of_mem_procedures compiled member with
    ⟨recursive, function, graph, extracted, ⟨line, isHeader⟩, made, rfl⟩
  rcases Procedure.of_ofCaptured made with ⟨recursion, analyzed, name, body, isRecursion⟩
  have shaped : Document.recursion.accepts recursion.toJson = true ↔ recursion.IsListed :=
    Recursion.accepts_toJson_of_analyze analyzed
  have named : extracted.name ≠ "" := name ▸ Procedure.Header.name_ne_empty isHeader
  have blocks : ∀ block ∈ extracted.body, block.IsListed := fun block inBody =>
    isListed_of_mem_bodyBlocks (body ▸ inBody)
  have only : (completeProcedure recursive extracted).recursion = some recursion := isRecursion
  rw [Procedure.accepts_toJson_iff, only]
  simp only [Option.mem_some_iff, forall_eq', shaped]
  refine ⟨fun accepted => accepted.2.2.2, fun listed => ⟨named, ?_, ?_, listed⟩⟩
  · intro block inBody
    exact (isListed_of_mem_tagCalls blocks inBody).accepts_toJson
  · intro edge inEdges
    exact Graph.accepts_edge_of_mem _ _ inEdges

theorem accepts_main (compiled : compile .standard source = .ok program) :
    (∀ block ∈ program.main.blocks, Document.block.accepts block.toJson = true) ∧
      ∀ edge ∈ program.main.edges, Document.edge.accepts edge.toJson = true := by
  rcases of_compile compiled with ⟨extraction, _, main, _⟩
  rw [main]
  refine ⟨fun block inBlocks => ?_, fun edge => Graph.accepts_edge_of_mem _ _⟩
  exact (isListed_of_mem_tagCalls (fun _ =>
    isListed_of_mem_completeConditionals fun _ => isListed_of_mem_blocksFrom)
      inBlocks).accepts_toJson

theorem inside_of_mem_graphs {scorer : Recursion.Scorer}
    (compiled : compile scorer source = .ok program) {graph : Graph}
    (member : graph ∈ program.graphs) {edge : Edge} (inGraph : edge ∈ graph.edges) :
    ∃ first last : Nat, edge.source = first ∧ first < graph.blocks.length ∧
      edge.target = last ∧ last < graph.blocks.length := by
  rcases exists_ofBlocks_of_mem_graphs compiled member with ⟨functionName, drawn⟩
  rw [drawn] at inGraph
  exact Graph.exists_ends_of_mem _ _ inGraph

/-- The document of a compiled program is accepted just if the recursions of its functions are
listed: no depth is counted on from a number below minus ten, and no base case ends under another
name than the known ones. -/
theorem check_toJson_iff (compiled : compile .standard source = .ok program) :
    check program.toJson = .ok () ↔
      ∀ procedure ∈ program.procedures, ∀ recursion ∈ procedure.recursion,
        recursion.IsListed := by
  have main : checkEdges "main" program.toJson = .ok () :=
    checkEdges_of_inside rfl rfl fun _ => inside_of_mem_graphs compiled List.mem_cons_self
  have procedures : ∀ procedure ∈ itemsAt "functions" program.toJson,
      ∀ place, checkEdges place procedure = .ok () := by
    intro document member place
    rcases List.mem_map.mp member with ⟨procedure, inProgram, rfl⟩
    have isGraph : procedure.graph ∈ program.graphs :=
      List.mem_cons_of_mem _ (List.mem_map_of_mem inProgram)
    exact checkEdges_of_inside rfl rfl fun _ => inside_of_mem_graphs compiled isGraph
  rw [check_of_accepts main procedures, accepts_toJson_iff]
  constructor
  · rintro ⟨_, _, accepted⟩ procedure member
    exact (accepts_procedure_iff compiled member).mp (accepted procedure member)
  · intro listed
    exact ⟨(accepts_main compiled).1, (accepts_main compiled).2, fun procedure member =>
      (accepts_procedure_iff compiled member).mpr (listed procedure member)⟩

def countdown (limit : String) : String :=
  "Function factorial(n)\n    If n <= " ++ limit ++ "\n        Return 1\n    End if\n" ++
    "    Return n * factorial(n - 1)\nEnd function\nStart\nEnd"

theorem check_toJson_countdown :
    ∃ program, compile .standard (countdown "1") = .ok program ∧
      check program.toJson = .ok () := by
  have listed : (compile .standard (countdown "1")).toOption.any (fun program =>
      program.procedures.all fun procedure => procedure.recursion.all fun recursion =>
        decide recursion.IsListed) = true := by
    decide +kernel
  cases compiled : compile .standard (countdown "1") with
  | error error =>
      rw [compiled] at listed
      cases listed
  | ok program =>
      refine ⟨program, rfl, (check_toJson_iff compiled).mpr ?_⟩
      rw [compiled] at listed
      simpa [Except.toOption, Option.all_eq_true] using listed

/-- Counting down to a number below minus ten hints at a negative depth. -/
theorem exists_refused : ¬∀ source program,
    compile .standard source = .ok program → check program.toJson = .ok () := by
  intro accepted
  have refused : (compile .standard (countdown "-20")).toOption.any (fun program =>
      decide (check program.toJson ≠ .ok ())) = true := by
    decide +kernel
  cases compiled : compile .standard (countdown "-20") with
  | error error =>
      rw [compiled] at refused
      cases refused
  | ok program =>
      rw [compiled] at refused
      exact of_decide_eq_true refused (accepted _ _ compiled)

end Program

end Flowchart
