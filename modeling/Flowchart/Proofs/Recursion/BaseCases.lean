import Flowchart.Diagnosis
import Flowchart.Proofs.Recursion.Analyzed

/-!
Where base cases come from: exit lines that do not lead back to the function.

A peer that goes by the function's own name does not count as a peer. Where every exit leads back,
there is no base case, and a recursion is reported as one without end.
-/

namespace Flowchart.Recursion

/-- Whether a text calls the function itself, or a peer that does not go by the same name. -/
def CallsBack (name : String) (peers : List String) (text : List Char) : Prop :=
  findCalls text name.toList ≠ [] ∨
    ∃ peer ∈ peers, Call.sameName (some peer) (some name) = false ∧
      findCalls text peer.toList ≠ []

instance (name : String) (peers : List String) (text : List Char) :
    Decidable (CallsBack name peers text) := inferInstanceAs (Decidable (_ ∨ _))

def IsExit (line : List Char) : Prop :=
  isComment (Outline.content line) = false ∧ isExitLine (Outline.content line) = true

instance (line : List Char) : Decidable (IsExit line) := inferInstanceAs (Decidable (_ ∧ _))

def BaseCase.IsOfExit (name : String) (peers : List String) (lines : List (List Char))
    (found : BaseCase) : Prop :=
  ∃ line ∈ lines, IsExit line ∧ ¬CallsBack name peers (Outline.content line) ∧
    (found.exit, found.value) = exitOf (Outline.content line)

section

variable {name : String} {parameters peers : List String} {lines : List (List Char)}

theorem callsBack_iff {text : List Char} :
    CallsBack name peers text ↔
      ∃ target ∈ targetsOf name peers, findCalls text target.toList ≠ [] := by
  simp [CallsBack, targetsOf, and_assoc]

theorem exists_exit_of_endsHere {found : BodyLine}
    (member : found ∈ bodyLines (targetsOf name peers) lines)
    (noComment : isComment found.text = false) (endsHere : EndsHere found) :
    ∃ line ∈ lines, IsExit line ∧ ¬CallsBack name peers (Outline.content line) ∧
      found.text = Outline.content line := by
  rcases exists_of_mem_bodyLines member with ⟨line, inLines, text, sites⟩
  rw [text] at noComment
  have noCalls := sitesOf_eq_nil_iff.mp (sites.symm.trans endsHere.1) noComment
  refine ⟨line, inLines, ⟨noComment, text ▸ endsHere.2⟩, fun callsBack => ?_, text⟩
  rcases callsBack_iff.mp callsBack with ⟨target, isTarget, calls⟩
  exact calls (noCalls target isTarget)

theorem isOfExit_of_ofBody {search : CaseSearch} {found : BaseCase}
    (searched : CaseSearch.ofBody (targetsOf name peers) parameters
      (bodyLines (targetsOf name peers) lines) = .ok search)
    (member : found ∈ search.baseCases) : found.IsOfExit name peers lines := by
  rcases (CaseSearch.isOfLines_of_ofBody searched).baseCases found member with
    ⟨condition, read, ⟨inBody, noComment⟩, endsHere, made⟩
  rcases exists_exit_of_endsHere inBody noComment endsHere with
    ⟨line, inLines, isExit, staysOut, text⟩
  exact ⟨line, inLines, isExit, staysOut, text ▸ exitOf_of_baseCase made⟩

/-- Where every exit leads back no condition has to be read, so the search comes to an end. -/
theorem exists_ofBody_of_callsBack (parameters : List String)
    (callBack : ∀ line ∈ lines, IsExit line → CallsBack name peers (Outline.content line)) :
    ∃ search, CaseSearch.ofBody (targetsOf name peers) parameters
      (bodyLines (targetsOf name peers) lines) = .ok search ∧ search.baseCases = [] := by
  have comes := CaseSearch.ofBody_comesOfLines (targetsOf name peers) parameters
    (bodyLines (targetsOf name peers) lines)
  cases searched : CaseSearch.ofBody (targetsOf name peers) parameters
      (bodyLines (targetsOf name peers) lines) with
  | error error =>
      rw [searched] at comes
      rcases comes with ⟨_, read, ⟨inBody, noComment⟩, endsHere, _⟩
      rcases exists_exit_of_endsHere inBody noComment endsHere with
        ⟨line, inLines, isExit, staysOut, _⟩
      exact absurd (callBack line inLines isExit) staysOut
  | ok search =>
      refine ⟨search, rfl, List.eq_nil_iff_forall_not_mem.mpr fun found member => ?_⟩
      rcases isOfExit_of_ofBody searched member with ⟨line, inLines, isExit, staysOut, _⟩
      exact staysOut (callBack line inLines isExit)

theorem exists_depthOf_nil (pattern : Pattern) : ∃ hint, depthOf pattern [] = .ok hint := by
  have noHint : depthOfCases [] = .ok none := rfl
  unfold depthOf
  rw [noHint]
  split
  · exact ⟨_, rfl⟩
  · split
    · exact ⟨_, rfl⟩
    · split
      · exact ⟨_, rfl⟩
      · exact ⟨_, rfl⟩

theorem noBaseCase_mem_errors {recursion : Recursion} (recursive : recursion.isRecursive = true)
    (none : recursion.baseCases = []) :
    .noBaseCase (Diagnosis.placeOf name) ∈
      (Diagnosis.ofRecursion name (some recursion)).errors := by
  simp [Diagnosis.ofRecursion, recursive, none]

end

/-- A base case is always that of an exit which does not lead back. Where every exit does, the
analysis comes to an end without a base case, and a recursion is reported to have none. -/
theorem baseCases_of_analyze (scorer : Scorer) (name : String) (parameters peers : List String)
    (lines : List (List Char)) :
    (∀ recursion, analyze scorer name parameters lines peers = .ok recursion →
      ∀ found ∈ recursion.baseCases, found.IsOfExit name peers lines) ∧
    ((∀ line ∈ lines, IsExit line → CallsBack name peers (Outline.content line)) →
      ∃ recursion, analyze scorer name parameters lines peers = .ok recursion ∧
        recursion.baseCases = [] ∧
        (recursion.isRecursive = true →
          .noBaseCase (Diagnosis.placeOf name) ∈
            (Diagnosis.ofRecursion name (some recursion)).errors)) := by
  constructor
  · intro recursion analyzed found member
    rcases of_analyze analyzed with ⟨_, rfl⟩ | ⟨_, search, _, _, searched, _, rfl⟩
    · cases member
    · exact isOfExit_of_ofBody searched member
  · intro callBack
    suffices ends : ∃ recursion, analyze scorer name parameters lines peers = .ok recursion ∧
        recursion.baseCases = [] by
      rcases ends with ⟨recursion, analyzed, none⟩
      exact ⟨recursion, analyzed, none, fun recursive => noBaseCase_mem_errors recursive none⟩
    rcases exists_ofBody_of_callsBack parameters callBack with
      ⟨search, searched, none⟩
    rcases exists_depthOf_nil (scorer (bodyText (bodyLines (targetsOf name peers) lines))) with
      ⟨hint, hinted⟩
    unfold analyze
    dsimp only
    split
    · exact ⟨_, rfl, rfl⟩
    · rw [← none] at hinted
      rw [searched]
      dsimp only [bind, Except.bind]
      rw [hinted]
      exact ⟨_, rfl, none⟩

def countingDown : List (List Char) :=
  ["If n <= 0".toList, "    Return 0".toList, "End if".toList, "If n > 9".toList,
    "    Return other(n - 2)".toList, "End if".toList, "Return down(n - 1)".toList]

def unending : List (List Char) :=
  ["If n > 0".toList, "    Return back(n)".toList, "End if".toList, "Return forever(n)".toList]

theorem baseCases_of_analyze_countingDown_unending :
    (∃ recursion, analyze .standard "down" ["n"] countingDown ["other"] = .ok recursion ∧
      recursion.baseCases.length = 1 ∧
      ∀ found ∈ recursion.baseCases, found.IsOfExit "down" ["other"] countingDown) ∧
    ∃ recursion, analyze .standard "forever" ["n"] unending ["back"] = .ok recursion ∧
      recursion.isRecursive = true ∧ recursion.baseCases = [] ∧
      .noBaseCase (Diagnosis.placeOf "forever") ∈
        (Diagnosis.ofRecursion "forever" (some recursion)).errors := by
  constructor
  · have found : (analyze .standard "down" ["n"] countingDown ["other"]).toOption.any
        (fun recursion => recursion.baseCases.length = 1) = true := by decide +kernel
    rcases exists_of_any found with ⟨recursion, analyzed, single⟩
    exact ⟨recursion, analyzed, of_decide_eq_true single,
      (baseCases_of_analyze .standard "down" ["n"] ["other"] countingDown).1 recursion analyzed⟩
  · rcases (baseCases_of_analyze .standard "forever" ["n"] ["back"] unending).2 (by decide) with
      ⟨recursion, analyzed, none, reported⟩
    have calls : ¬∀ line ∈ unending, isComment (Outline.content line) = false →
        ∀ target ∈ targetsOf "forever" ["back"],
          findCalls (Outline.content line) target.toList = [] := by
      decide
    have isRecursive : recursion.isRecursive = true :=
      (isRecursive_of_analyze analyzed).mpr fun none => calls (callPointsIn_eq_nil_iff.mp none)
    exact ⟨recursion, analyzed, isRecursive, none, reported isRecursive⟩

def accented : List (List Char) :=
  ["If n <= 0".toList, "    Return fé(n)".toList, "End if".toList, "Return f(n - 1)".toList]

/-- The exit that calls a peer of the same plain name is taken for a base case. -/
theorem exists_baseCase_calling_peer :
    ¬∀ (name : String) (parameters peers : List String) (lines : List (List Char))
        (recursion : Recursion),
      analyze .standard name parameters lines peers = .ok recursion →
      recursion.isRecursive = true →
      (∀ line ∈ lines, IsExit line →
        ∃ callee ∈ name :: peers, findCalls (Outline.content line) callee.toList ≠ []) →
      recursion.baseCases = [] := by
  intro all
  have found : (analyze .standard "f" ["n"] accented ["fé"]).toOption.any (fun recursion =>
      recursion.isRecursive && !recursion.baseCases.isEmpty) = true := by decide +kernel
  rcases exists_of_any found with ⟨recursion, analyzed, wrong⟩
  rw [Bool.and_eq_true, Bool.not_eq_true'] at wrong
  have none := all "f" ["n"] ["fé"] accented recursion analyzed wrong.1 (by decide)
  rw [none] at wrong
  cases wrong.2

end Flowchart.Recursion
