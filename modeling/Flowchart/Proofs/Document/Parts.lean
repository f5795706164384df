import Flowchart.Proofs.Document.Shape
import Flowchart.Proofs.Graph.Cycles
import Flowchart.Proofs.ImplicitElse.Complete
import Flowchart.Proofs.Recursion.Analyzed
import Flowchart.Proofs.Recursion.Scored

/-!
Blocks, edges and recursions as they are made, and the shape that a document asks of them.

Levels are counted from zero and kinds are read off tables, so that every block of an outline has
its shape, also behind the branches that are added and the marks on its calls. Edges are drawn with
known kinds between positions. What an analysis finds may only fail in its depth hint, which counts
on from a number in the text, and in the exits of its base cases, which are named as in the text.
-/

namespace Flowchart

/-! ## Blocks -/

def Block.IsListed (block : Block) : Prop := 0 ≤ block.level ∧ block.kind ∈ Kind.known

theorem Block.IsListed.accepts_toJson {block : Block} (listed : block.IsListed) :
    Document.block.accepts block.toJson = true :=
  Block.accepts_toJson_iff.mpr ⟨listed.1, List.mem_map_of_mem listed.2⟩

theorem Block.Kind.ofLine_mem_known (line : List Char) : ofLine line ∈ known := by
  have rows : ∀ row ∈ keywords, row.1 ∈ known := by decide
  unfold ofLine
  dsimp only
  split
  · rename_i found
    exact rows _ (List.mem_of_find?_eq_some found)
  · decide

theorem isListed_of_mem_blocksFrom {ladder : Outline.Ladder} {lines : List (List Char)}
    {block : Block} (member : block ∈ Outline.blocksFrom ladder lines) : block.IsListed := by
  induction lines generalizing ladder with
  | nil => cases member
  | cons line rest induction =>
      rw [Outline.blocksFrom] at member
      dsimp only at member
      split at member
      · exact induction member
      · rcases List.mem_cons.mp member with rfl | later
        · exact ⟨Int.natCast_nonneg _, Block.Kind.ofLine_mem_known _⟩
        · exact induction later

theorem isListed_of_mem_before {blocks : List Block} (listed : ∀ block ∈ blocks, block.IsListed)
    {index : Nat} {branch : Block}
    (member : branch ∈ ImplicitElse.before (ImplicitElse.missing blocks) index) :
    branch.IsListed := by
  rcases ImplicitElse.mem_missing.mp (ImplicitElse.mem_before.mp member) with
    ⟨position, conditional, _, same⟩
  cases same
  rcases isConditional_iff.mp conditional with ⟨opener, found, _⟩
  refine ⟨?_, (by decide : Block.Kind.implicitElse ∈ Block.Kind.known)⟩
  change 0 ≤ levelAt blocks position
  rw [levelAt_eq found]
  exact (listed opener (List.mem_of_getElem? found)).1

theorem isListed_of_mem_completeConditionals {blocks : List Block}
    (listed : ∀ block ∈ blocks, block.IsListed) {block : Block}
    (member : block ∈ completeConditionals blocks) : block.IsListed := by
  rcases List.mem_append.mp member with inRow | behind
  · rcases List.mem_flatMap.mp inRow with ⟨⟨own, index⟩, place, member⟩
    rcases List.mem_append.mp member with added | same
    · exact isListed_of_mem_before listed added
    · cases List.mem_singleton.mp same
      exact listed _ (List.fst_mem_of_mem_zipIdx place)
  · exact isListed_of_mem_before listed behind

theorem isListed_of_mem_tagCalls {recursive : List String} {blocks : List Block}
    (listed : ∀ block ∈ blocks, block.IsListed) {block : Block}
    (member : block ∈ Program.tagCalls recursive blocks) : block.IsListed := by
  rcases List.mem_map.mp member with ⟨plain, inBlocks, rfl⟩
  split
  · exact listed plain inBlocks
  · exact listed plain inBlocks

theorem isListed_of_mem_bodyBlocks {parameters : List String} {lines : List (List Char)}
    {block : Block} (member : block ∈ Procedure.bodyBlocks parameters lines) :
    block.IsListed := by
  rcases List.mem_append.mp member with input | line
  · rcases List.mem_map.mp input with ⟨parameter, _, rfl⟩
    exact ⟨Int.le_refl 0, (by decide : Block.Kind.input ∈ Block.Kind.known)⟩
  · exact isListed_of_mem_completeConditionals (fun _ => isListed_of_mem_blocksFrom) line

/-! ## Edges -/

def Edge.IsListed (edge : Edge) : Prop :=
  edge.kind ∈ Kind.known ∧ ∀ depth ∈ edge.depth, 0 ≤ depth

namespace Graph

section

variable {size index : Nat} {scopes : Scopes} {target : Option Nat} {kind : Edge.Kind}
  {label : Option String} {plan : Plan} {block : Block} {edge : Edge}

theorem isListed_of_mem_edgeWithin (known : kind ∈ Edge.Kind.known)
    (member : edge ∈ edgeWithin size scopes index target kind label) : edge.IsListed := by
  rcases mem_edgeWithin member with ⟨_, _, _, ⟨_, rfl⟩ | ⟨_, depth, _, rfl⟩⟩
  · exact ⟨known, nofun⟩
  · split
    · refine ⟨(by decide : Edge.Kind.loopBack ∈ Edge.Kind.known), fun found same => ?_⟩
      cases same
      exact Int.natCast_nonneg depth
    · exact ⟨known, nofun⟩

theorem isListed_of_mem_edgeBeyond (member : edge ∈ edgeBeyond size index target) :
    edge.IsListed := by
  rcases mem_edgeBeyond member with ⟨_, _, _, rfl⟩
  exact ⟨(by decide : Edge.Kind.default ∈ Edge.Kind.known), nofun⟩

namespace Plan

theorem isListed_of_mem_branchBlock (member : edge ∈ (plan.branchBlock scopes index block).edges) :
    edge.IsListed := by
  unfold branchBlock at member
  dsimp only at member
  split at member
  · exact isListed_of_mem_edgeWithin (by decide) member
  · split at member
    · rcases List.mem_append.mp member with yes | no
      · exact isListed_of_mem_edgeWithin (by decide) yes
      · exact isListed_of_mem_edgeWithin (by decide) no
    · exact isListed_of_mem_edgeWithin (by decide) member

theorem isListed_of_mem_switchBlock (member : edge ∈ (plan.switchBlock scopes index).edges) :
    edge.IsListed := by
  unfold switchBlock at member
  dsimp only at member
  split at member
  · exact isListed_of_mem_edgeWithin (by decide) member
  · rcases List.mem_flatMap.mp member with ⟨_, _, ofBranch⟩
    exact isListed_of_mem_edgeWithin (by decide) ofBranch

theorem isListed_of_mem_returnBlock (member : edge ∈ (plan.returnBlock scopes index block).edges) :
    edge.IsListed := by
  unfold returnBlock at member
  split at member
  · dsimp only at member
    exact isListed_of_mem_edgeBeyond member
  · rcases List.mem_append.mp member with on | again
    · exact isListed_of_mem_edgeBeyond on
    · split at again
      · exact isListed_of_mem_edgeWithin (by decide) again
      · cases again

theorem isListed_of_mem_contribution
    (member : edge ∈ (plan.contribution scopes index block).edges) : edge.IsListed := by
  unfold contribution at member
  split at member
  · cases member
  split at member
  · rcases List.mem_append.mp member with yes | no
    · exact isListed_of_mem_edgeWithin (by decide) yes
    · exact isListed_of_mem_edgeWithin (by decide) no
  split at member
  · exact isListed_of_mem_branchBlock member
  split at member
  · exact isListed_of_mem_switchBlock member
  split at member
  · dsimp only [loopBlock] at member
    exact isListed_of_mem_edgeWithin (by decide) member
  split at member
  · exact isListed_of_mem_returnBlock member
  · exact isListed_of_mem_edgeWithin (by decide) member

end Plan

end

variable (blocks : List Block) (functionName : Option String)

theorem isListed_of_mem_ofBlocks {edge : Edge}
    (member : edge ∈ (ofBlocks blocks functionName).edges) : edge.IsListed := by
  rcases (mem_edges_ofBlocks blocks functionName).mp member with
    ⟨index, block, found, _, own | repetition⟩
  · have same : (Plan.ofBlocks blocks functionName).blocks[index]? = some block := found
    simp only [Plan.edgesAt, same] at own
    exact Plan.isListed_of_mem_contribution own
  · rcases (Plan.mem_repetitionsAt _).mp repetition with ⟨_, _, _, _, rfl⟩
    refine ⟨(by decide : Edge.Kind.loopBack ∈ Edge.Kind.known), fun depth same => ?_⟩
    cases same
    exact Int.natCast_nonneg _

theorem exists_ends_of_mem {edge : Edge} (member : edge ∈ (ofBlocks blocks functionName).edges) :
    ∃ source target : Nat, edge.source = source ∧ source < blocks.length ∧
      edge.target = target ∧ target < blocks.length := by
  rcases (mem_edges_ofBlocks blocks functionName).mp member with ⟨source, _, found, isSource, _⟩
  rcases exists_target_of_mem member with ⟨target, isTarget, inside⟩
  exact ⟨source, target, isSource, (List.getElem?_eq_some_iff.mp found).1, isTarget, inside⟩

theorem accepts_edge_of_mem {edge : Edge}
    (member : edge ∈ (ofBlocks blocks functionName).edges) :
    Document.edge.accepts edge.toJson = true := by
  have listed := isListed_of_mem_ofBlocks blocks functionName member
  rcases exists_ends_of_mem blocks functionName member with
    ⟨source, target, isSource, _, isTarget, _⟩
  refine Edge.accepts_toJson_iff.mpr ⟨?_, ?_, List.mem_map_of_mem listed.1, listed.2⟩
  · rw [isSource]
    exact Int.natCast_nonneg source
  · rw [isTarget]
    exact Int.natCast_nonneg target

end Graph

/-! ## Recursions -/

namespace Recursion

theorem accepts_recursiveCase (targets parameters : List String) (line : BodyLine) :
    Document.recursiveCase.accepts (recursiveCase targets parameters line).toJson = true :=
  RecursiveCase.accepts_toJson_iff.mpr fun _ member =>
    Transformation.accepts_toJson_iff.mpr
      (List.mem_map_of_mem (change_of_recursiveCase member))

/-- Whether a recursion can be shown in a document: a number from which its depth is counted on is
not below minus the margin, and its base cases end in known ways only. -/
def IsListed (recursion : Recursion) : Prop :=
  (∀ pattern ∈ recursion.pattern, pattern.name ∈ countedPatterns →
    ∀ number ∈ comparedNumber? recursion.baseCases, -depthMargin ≤ number) ∧
  ∀ found ∈ recursion.baseCases, found.exit.name ∈ Exit.known.map Exit.name

instance (recursion : Recursion) : Decidable recursion.IsListed :=
  inferInstanceAs (Decidable (_ ∧ _))

variable {threshold : Number} {name : String} {parameters peers : List String}
  {lines : List (List Char)} {recursion : Recursion}

theorem accepts_toJson_of_analyze
    (analyzed : analyze (Pattern.ofText .standard threshold) name parameters lines peers =
      .ok recursion) :
    Document.recursion.accepts recursion.toJson = true ↔ recursion.IsListed := by
  rw [accepts_toJson_iff, IsListed]
  rcases of_analyze analyzed with ⟨_, rfl⟩ | ⟨_, search, hint, _, searched, hinted, rfl⟩
  · have form : Form.linear.name ∈ Form.known.map Form.name := by decide
    exact ⟨fun _ => ⟨nofun, nofun⟩, fun _ => ⟨form, nofun, nofun, nofun, nofun⟩⟩
  · have recursiveCases : ∀ found ∈ search.recursiveCases,
        Document.recursiveCase.accepts found.toJson = true := by
      intro found member
      rcases (CaseSearch.isOfLines_of_ofBody searched).recursiveCases found member with
        ⟨line, _, _, rfl⟩
      exact accepts_recursiveCase _ _ line
    have pattern (text : List Char) : Document.pattern.accepts
        (Pattern.ofText .standard threshold text).toJson = true :=
      Pattern.accepts_toJson_iff.mpr (Pattern.of_ofText _ _ _)
    have form := List.mem_map_of_mem (f := Form.name) (formOf_mem_known name
      (bodyLines (targetsOf name peers) lines)
      (callPointsIn (bodyLines (targetsOf name peers) lines)) search.recursiveCases)
    simp only [Option.mem_some_iff, forall_eq', nonneg_of_depthOf hinted, pattern, form, true_and]
    exact ⟨fun ⟨exits, _, counted⟩ => ⟨counted, exits⟩,
      fun ⟨counted, exits⟩ => ⟨exits, recursiveCases, counted⟩⟩

end Recursion

end Flowchart
