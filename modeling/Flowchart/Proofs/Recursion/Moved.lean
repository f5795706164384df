import Flowchart.Proofs.Matches
import Flowchart.Proofs.Outline.Seen
import Flowchart.Proofs.Recursion.Analyzed

/-!
The analysis of a body that is moved: its lines stand at other places, and all of them further in.

Places are only passed on to the call points, and told apart where a tail call is looked for.
Indentations are only compared with each other. Whatever the analysis does to moved lines is
therefore what it does to the lines, moved.
-/

namespace Flowchart

open Text

def Recursion.CallPoint.unplaced (point : CallPoint) : CallPoint := { point with line := 0 }

def Recursion.unplaced (recursion : Recursion) : Recursion :=
  { recursion with callPoints := recursion.callPoints.map CallPoint.unplaced }

namespace Recursion

def BodyLine.moved (shift : Nat) (line : BodyLine) : BodyLine :=
  { line with index := 0, indent := line.indent + shift }

def Branch.moved (shift : Nat) (branch : Branch) : Branch :=
  { branch with indent := branch.indent + shift, lines := branch.lines.map (BodyLine.moved shift) }

def CaseSearch.moved (shift : Nat) (search : CaseSearch) : CaseSearch :=
  { search with branches := search.branches.map (Branch.moved shift) }

section

variable (shift : Nat)

/-! ## Call points -/

theorem callPointsOf_moved (before : List BodyLine) (line : BodyLine) :
    callPointsOf (before.map (BodyLine.moved shift)) (line.moved shift) =
      (callPointsOf before line).map CallPoint.unplaced := by
  simp only [callPointsOf, ← List.map_take, ← List.map_cons, List.any_map, List.map_map]
  rfl

theorem callPointsAfter_moved (before body : List BodyLine) :
    callPointsAfter (before.map (BodyLine.moved shift)) (body.map (BodyLine.moved shift)) =
      (callPointsAfter before body).map CallPoint.unplaced := by
  induction body generalizing before with
  | nil => rfl
  | cons line rest induction =>
      rw [List.map_cons, callPointsAfter, callPointsAfter, List.map_append, callPointsOf_moved,
        ← List.map_cons, induction]

/-! ## Cases -/

namespace CaseSearch

variable (targets parameters : List String)

theorem addLine_moved (search : CaseSearch) (condition : List Char) (line : BodyLine) :
    (search.moved shift).addLine targets parameters condition (line.moved shift) =
      (search.addLine targets parameters condition line).map (moved shift) := by
  have sameCase : baseCase condition (line.moved shift) = baseCase condition line := rfl
  have sameSites : (line.moved shift).sites = line.sites := rfl
  simp only [addLine, sameCase, sameSites]
  split
  · cases baseCase condition line <;> rfl
  · rfl

theorem addBranch_moved (search : CaseSearch) (branch : Branch) :
    (search.moved shift).addBranch targets parameters (branch.moved shift) =
      (search.addBranch targets parameters branch).map (moved shift) := by
  have find (property : BodyLine → Bool)
      (blind : ∀ line, property (BodyLine.moved shift line) = property line) :
      (branch.moved shift).lines.find? property =
        (branch.lines.find? property).map (BodyLine.moved shift) := by
    rw [Branch.moved, List.find?_map]
    congr 2
    funext line
    exact blind line
  rw [addBranch, addBranch, find _ fun _ => rfl]
  cases branch.lines.find? fun line => !line.sites.isEmpty with
  | some line => exact addLine_moved shift targets parameters search branch.condition line
  | none =>
      rw [find (fun line => isExitLine line.text) fun _ => rfl]
      cases branch.lines.find? fun line => isExitLine line.text with
      | some line => exact addLine_moved shift targets parameters search branch.condition line
      | none => rfl

theorem closeOne_moved (search : CaseSearch) :
    (search.moved shift).closeOne targets parameters =
      (search.closeOne targets parameters).map (moved shift) := by
  rcases search with ⟨branches, baseCases, recursiveCases⟩
  cases branches with
  | nil => rfl
  | cons branch branches =>
      exact addBranch_moved shift targets parameters ⟨branches, baseCases, recursiveCases⟩ branch

theorem closeWhile_moved (property ofMoved : Branch → Bool)
    (blind : ∀ branch, ofMoved (Branch.moved shift branch) = property branch)
    (branches : List Branch) (search : CaseSearch) :
    closeWhile targets parameters ofMoved (branches.map (Branch.moved shift)) (search.moved shift) =
      (closeWhile targets parameters property branches search).map (moved shift) := by
  induction branches generalizing search with
  | nil => rfl
  | cons branch branches induction =>
      rw [List.map_cons, closeWhile, closeWhile, blind]
      split
      · rw [addBranch_moved]
        cases search.addBranch targets parameters branch with
        | error error => rfl
        | ok search => exact induction search
      · rfl

theorem close_moved (property ofMoved : Branch → Bool)
    (blind : ∀ branch, ofMoved (Branch.moved shift branch) = property branch)
    (search : CaseSearch) :
    (search.moved shift).close targets parameters ofMoved =
      (search.close targets parameters property).map (moved shift) :=
  closeWhile_moved shift targets parameters property ofMoved blind search.branches search

theorem addStatement_moved (search : CaseSearch) (line : BodyLine) :
    (search.moved shift).addStatement targets parameters (line.moved shift) =
      (search.addStatement targets parameters line).map (moved shift) := by
  rcases search with ⟨branches, baseCases, recursiveCases⟩
  cases branches with
  | cons branch branches =>
      simp [addStatement, moved, Branch.moved, Except.map]
  | nil =>
      have sameSites : (line.moved shift).sites = line.sites := rfl
      have sameText : (line.moved shift).text = line.text := rfl
      have adds := addLine_moved shift targets parameters ⟨[], baseCases, recursiveCases⟩ [] line
      simp only [addStatement, moved, List.map_nil, sameSites, sameText] at adds ⊢
      split
      · exact adds
      · rfl

theorem add_moved (search : CaseSearch) (line : BodyLine) :
    (search.moved shift).add targets parameters (line.moved shift) =
      (search.add targets parameters line).map (moved shift) := by
  have outer := close_moved shift targets parameters (fun branch => line.indent < branch.indent)
    (fun branch => line.indent + shift < branch.indent) (fun branch => by simp [Branch.moved])
  have own := close_moved shift targets parameters (fun branch => line.indent ≤ branch.indent)
    (fun branch => line.indent + shift ≤ branch.indent) (fun branch => by simp [Branch.moved])
  have onLevel (search : CaseSearch) :
      ((search.moved shift).branches.head?.any fun branch => branch.indent = line.indent + shift) =
        search.branches.head?.any fun branch => branch.indent = line.indent := by
    rw [moved, List.head?_map, Option.any_map]
    congr 1
    funext branch
    simp [Branch.moved]
  have sameText : (line.moved shift).text = line.text := rfl
  have indent : (line.moved shift).indent = line.indent + shift := rfl
  simp only [add, sameText, indent]
  split
  · rfl
  apply bind_eq_map_bind (outer search)
  intro search
  split
  · exact closeOne_moved shift targets parameters search
  split
  · -- A branch on the level of the innermost one takes its place.
    rw [onLevel]
    split
    · exact bind_eq_map_bind (closeOne_moved shift targets parameters search) fun search => rfl
    · rfl
  · apply bind_eq_map_bind (own search)
    exact fun search => addStatement_moved shift targets parameters search line

theorem ofBody_moved (body : List BodyLine) :
    ofBody targets parameters (body.map (BodyLine.moved shift)) =
      (ofBody targets parameters body).map (moved shift) := by
  have gathers (search : CaseSearch) :
      (body.map (BodyLine.moved shift)).foldlM (add targets parameters) (search.moved shift) =
        (body.foldlM (add targets parameters) search).map (moved shift) := by
    induction body generalizing search with
    | nil => rfl
    | cons line rest induction =>
        rw [List.map_cons, List.foldlM_cons, List.foldlM_cons]
        exact bind_eq_map_bind (add_moved shift targets parameters search line) induction
  exact bind_eq_map_bind (gathers {}) fun search =>
    close_moved shift targets parameters (fun _ => true) (fun _ => true) (fun _ => rfl) search

end CaseSearch

end

/-! ## Tail calls

The line of the only call is the last one just if the last one has a call. -/

theorem lines_callPointsAfter (before body : List BodyLine) :
    (callPointsAfter before body).map (·.line) =
      body.flatMap fun line => line.sites.map fun _ => line.index := by
  induction body generalizing before with
  | nil => rfl
  | cons line rest induction =>
      rw [callPointsAfter, List.map_append, induction, List.flatMap_cons, callPointsOf,
        List.map_map]
      rfl

def Apart (body : List BodyLine) : Prop :=
  ∀ first ∈ body, ∀ second ∈ body, first.index = second.index → first = second

theorem Apart.index_eq_iff {body : List BodyLine} (apart : Apart body) {point : CallPoint}
    (points : callPointsIn body = [point]) {line : BodyLine} (member : line ∈ body) :
    line.index = point.line ↔ line.sites ≠ [] := by
  have places := lines_callPointsAfter [] body
  rw [← callPointsIn, points, List.map_singleton] at places
  constructor
  · intro same
    have inPlaces : line.index ∈ body.flatMap fun line => line.sites.map fun _ => line.index := by
      rw [← places, same]
      exact List.mem_singleton_self _
    obtain ⟨other, among, found⟩ := List.mem_flatMap.mp inPlaces
    obtain ⟨site, isSite, sameIndex⟩ := List.mem_map.mp found
    exact List.ne_nil_of_mem (apart other among line member sameIndex ▸ isSite)
  · intro calls
    obtain ⟨site, isSite⟩ := List.exists_mem_of_ne_nil _ calls
    have found : line.index ∈ [point.line] := by
      rw [places]
      exact List.mem_flatMap.mpr ⟨line, member, List.mem_map_of_mem isSite⟩
    exact List.mem_singleton.mp found

def lastStatement? (body : List BodyLine) : Option BodyLine :=
  (body.filter fun line => !isComment line.text && !isEndLine line.text).getLast?

def isOnlyCall (name : String) (callee : Option String) (text : List Char) : Bool :=
  match findCalls (trim ((returned? text).getD text)) (callee.getD name).toList with
  | [site] => site.start = 0 && site.stop = (trim ((returned? text).getD text)).length
  | _ => false

theorem isTailCall_iff (name : String) (body : List BodyLine) (points : List CallPoint) :
    isTailCall name body points = true ↔ ∃ point line, points = [point] ∧
      lastStatement? body = some line ∧ line.index = point.line ∧
        isOnlyCall name point.callee line.text = true := by
  simp only [isTailCall, lastStatement?]
  constructor
  · intro tail
    split at tail
    · rename_i point line last
      simp only [Bool.and_eq_true, decide_eq_true_eq] at tail
      exact ⟨point, line, rfl, last, tail⟩
    · cases tail
  · rintro ⟨point, line, rfl, last, onLine, only⟩
    rw [last]
    simp only [onLine, decide_true, Bool.true_and]
    exact only

theorem Apart.isTailCall_iff {body : List BodyLine} (apart : Apart body) (name : String) :
    isTailCall name body (callPointsIn body) = true ↔
      ∃ point line, callPointsIn body = [point] ∧ lastStatement? body = some line ∧
        line.sites ≠ [] ∧ isOnlyCall name point.callee line.text = true := by
  rw [Recursion.isTailCall_iff]
  apply exists_congr
  intro point
  apply exists_congr
  intro line
  apply and_congr_right
  intro points
  apply and_congr_right
  intro last
  rw [apart.index_eq_iff points (List.mem_filter.mp (List.mem_of_getLast? last)).1]

/-! ## Moving a whole body -/

section

variable {shift shiftThen : Nat} {body bodyThen : List BodyLine}

theorem any_moved {property : BodyLine → Bool}
    (blind : ∀ line, property (BodyLine.moved shift line) = property line) (body : List BodyLine) :
    (body.map (BodyLine.moved shift)).any property = body.any property := by
  rw [List.any_map]
  congr 1
  funext line
  exact blind line

theorem bodyText_moved (shift : Nat) (body : List BodyLine) :
    bodyText (body.map (BodyLine.moved shift)) = bodyText body := by
  rw [bodyText, List.map_map]
  rfl

theorem lastStatement?_moved (shift : Nat) (body : List BodyLine) :
    lastStatement? (body.map (BodyLine.moved shift)) =
      (lastStatement? body).map (BodyLine.moved shift) := by
  rw [lastStatement?, lastStatement?, List.filter_map, List.getLast?_map]
  rfl

variable (same : bodyThen.map (BodyLine.moved shiftThen) = body.map (BodyLine.moved shift))

include same

theorem callPointsIn_of_moved :
    (callPointsIn bodyThen).map CallPoint.unplaced =
      (callPointsIn body).map CallPoint.unplaced := by
  have moves := callPointsAfter_moved shiftThen [] bodyThen
  rw [List.map_nil, same] at moves
  exact moves.symm.trans (callPointsAfter_moved shift [] body)

theorem isTailCall_of_moved (apart : Apart body) (apartThen : Apart bodyThen) (name : String)
    (tail : isTailCall name body (callPointsIn body) = true) :
    isTailCall name bodyThen (callPointsIn bodyThen) = true := by
  obtain ⟨point, line, points, last, calls, only⟩ := (apart.isTailCall_iff name).mp tail
  have pointsSame := callPointsIn_of_moved same
  rw [points, List.map_singleton] at pointsSame
  obtain ⟨pointThen, pointsThen, isPoint⟩ := List.map_eq_singleton_iff.mp pointsSame
  have lastSame := lastStatement?_moved shiftThen bodyThen
  rw [same, lastStatement?_moved, last] at lastSame
  obtain ⟨lineThen, lastThen, isLine⟩ := Option.map_eq_some_iff.mp lastSame.symm
  have callee : pointThen.callee = point.callee := (congrArg CallPoint.callee isPoint :)
  have sites : lineThen.sites = line.sites := (congrArg BodyLine.sites isLine :)
  have text : lineThen.text = line.text := (congrArg BodyLine.text isLine :)
  apply (apartThen.isTailCall_iff name).mpr
  exact ⟨pointThen, lineThen, pointsThen, lastThen, sites ▸ calls, by rw [callee, text, only]⟩

theorem formOf_of_moved (apart : Apart body) (apartThen : Apart bodyThen) (name : String)
    (cases : List RecursiveCase) :
    formOf name bodyThen (callPointsIn bodyThen) cases =
      formOf name body (callPointsIn body) cases := by
  have pointsSame := callPointsIn_of_moved same
  have callees (property : Option String → Bool) :
      ((callPointsIn bodyThen).any fun point => property point.callee) =
        (callPointsIn body).any fun point => property point.callee := by
    have seen := congrArg (List.any · fun point => property point.callee) pointsSame
    simp only [List.any_map] at seen
    exact seen
  have counts : (callPointsIn bodyThen).length = (callPointsIn body).length := by
    simpa only [List.length_map] using congrArg List.length pointsSame
  have lines (property : BodyLine → Bool)
      (blind : ∀ shift line, property (BodyLine.moved shift line) = property line) :
      bodyThen.any property = body.any property := by
    rw [← any_moved (blind shiftThen), same, any_moved (blind shift)]
  have text : bodyText bodyThen = bodyText body := by
    rw [← bodyText_moved shiftThen, same, bodyText_moved]
  have tail : isTailCall name bodyThen (callPointsIn bodyThen) =
      isTailCall name body (callPointsIn body) :=
    Bool.eq_iff_iff.mpr ⟨isTailCall_of_moved same.symm apartThen apart name,
      isTailCall_of_moved same apart apartThen name⟩
  simp only [formOf]
  rw [callees fun callee => callee.any fun callee => !Call.sameName (some callee) (some name),
    lines hasNestedCalls fun _ _ => rfl, counts,
    lines (fun line => 1 < line.sites.length) fun _ _ => rfl, text, tail]

end

/-! ## Moving the lines of a text -/

section

variable {targets : List String}

theorem apart_bodyLines (targets : List String) (lines : List (List Char)) :
    Apart (bodyLines targets lines) := by
  intro first inLines second inLinesToo sameIndex
  obtain ⟨⟨line, index⟩, found, made⟩ := List.mem_filterMap.mp inLines
  obtain ⟨⟨lineToo, indexToo⟩, foundToo, madeToo⟩ := List.mem_filterMap.mp inLinesToo
  have index_eq : first.index = index ∧ second.index = indexToo := by
    dsimp only at made madeToo
    split at made
    · cases made
    split at madeToo
    · cases madeToo
    cases made
    cases madeToo
    exact ⟨rfl, rfl⟩
  rw [index_eq.1, index_eq.2] at sameIndex
  subst sameIndex
  rw [List.mem_zipIdx_iff_getElem?] at found foundToo
  have sameLine := found.symm.trans foundToo
  cases sameLine
  exact Option.some.inj (made.symm.trans madeToo)

theorem bodyLines_moved (shift : Nat) (lines : List (List Char)) :
    (bodyLines targets lines).map (BodyLine.moved shift) =
      (Outline.further shift (Outline.seen Outline.leadingWidth lines)).map fun view =>
        ⟨0, view.1, view.2, sitesOf targets view.2⟩ := by
  have withoutPlaces : lines.zipIdx.map Prod.fst = lines := List.zipIdx_map_fst 0 lines
  rw [Outline.further, Outline.seen, List.map_map, List.map_filterMap, bodyLines,
    List.map_filterMap]
  conv => rhs; rw [← withoutPlaces]
  rw [List.filterMap_map]
  congr 1
  funext place
  obtain ⟨line, index⟩ := place
  dsimp only [Function.comp_apply, Outline.seen?]
  split <;> rfl

end

/-- Of bodies in which the same lines are seen, up to how far they are indented, the recursion is
the same, up to the places of the calls. -/
theorem analyze_unplaced (scorer : Scorer) (name : String) (parameters : List String)
    (peers : List String) {lines linesThen : List (List Char)} {shift shiftThen : Nat}
    (same : Outline.further shiftThen (Outline.seen Outline.leadingWidth linesThen) =
      Outline.further shift (Outline.seen Outline.leadingWidth lines)) :
    (analyze scorer name parameters linesThen peers).map Recursion.unplaced =
      (analyze scorer name parameters lines peers).map Recursion.unplaced := by
  have moves : (bodyLines (targetsOf name peers) linesThen).map (BodyLine.moved shiftThen) =
      (bodyLines (targetsOf name peers) lines).map (BodyLine.moved shift) := by
    rw [bodyLines_moved, bodyLines_moved, same]
  have apart := apart_bodyLines (targetsOf name peers) lines
  have apartThen := apart_bodyLines (targetsOf name peers) linesThen
  simp only [analyze]
  generalize bodyLines (targetsOf name peers) linesThen = bodyThen at moves apartThen ⊢
  generalize bodyLines (targetsOf name peers) lines = body at moves apart ⊢
  have points := callPointsIn_of_moved moves
  have text : bodyText bodyThen = bodyText body := by
    rw [← bodyText_moved shiftThen, moves, bodyText_moved]
  have noPoints : (callPointsIn bodyThen).isEmpty = (callPointsIn body).isEmpty := by
    simpa only [List.isEmpty_map] using congrArg List.isEmpty points
  have found : (CaseSearch.ofBody (targetsOf name peers) parameters bodyThen).map
        (CaseSearch.moved shiftThen) =
      (CaseSearch.ofBody (targetsOf name peers) parameters body).map (CaseSearch.moved shift) := by
    rw [← CaseSearch.ofBody_moved, moves, CaseSearch.ofBody_moved]
  rw [noPoints, text]
  split
  · rfl
  apply (Matches.of_map_eq found).bind_map_eq
  intro search searchThen same
  have baseCases : searchThen.baseCases = search.baseCases :=
    (congrArg CaseSearch.baseCases same :)
  have recursiveCases : searchThen.recursiveCases = search.recursiveCases :=
    (congrArg CaseSearch.recursiveCases same :)
  have form := formOf_of_moved moves apart apartThen name search.recursiveCases
  rw [baseCases, recursiveCases, form]
  cases depthOf (scorer (bodyText body)) search.baseCases with
  | error error => rfl
  | ok depth =>
      apply congrArg Except.ok
      simp only [Recursion.unplaced, points]

end Recursion

end Flowchart
