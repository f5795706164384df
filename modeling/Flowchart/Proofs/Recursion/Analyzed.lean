import Flowchart.Recursion.Analysis
import Mathlib.Data.List.Forall2

/-!
What an analysis can say about the recursion of a function.

It says something only of a function with calls. The form is one of the known ones, the changes of
parameters are known or unclear, and what the standard patterns score lies between zero and one.
-/

namespace Flowchart.Recursion

open Text

theorem exists_of_bind {α β : Type} {first : Except NumeralError α}
    {rest : α → Except NumeralError β} {result : β} (done : first >>= rest = .ok result) :
    ∃ value, first = .ok value ∧ rest value = .ok result := by
  cases first with
  | error error => cases done
  | ok value => exact ⟨value, rfl, done⟩

theorem exists_of_any {α : Type} {outcome : Except NumeralError α} {property : α → Bool}
    (found : outcome.toOption.any property = true) :
    ∃ result, outcome = .ok result ∧ property result = true := by
  cases outcome with
  | error error => cases found
  | ok result => exact ⟨result, rfl, found⟩

theorem map_eq_error_iff {α β : Type} {outcome : Except NumeralError α} {result : α → β}
    {error : NumeralError} : outcome.map result = .error error ↔ outcome = .error error := by
  cases outcome <;> simp [Except.map]

theorem mapM_cases {α β : Type} {step : α → Except NumeralError β}
    {Fails : α → NumeralError → Prop} {Passes : α → β → Prop}
    (each : ∀ value, (∃ error, step value = .error error ∧ Fails value error) ∨
      ∃ result, step value = .ok result ∧ Passes value result) (values : List α) :
    (∃ error, values.mapM step = .error error ∧ ∃ value ∈ values, Fails value error) ∨
      ∃ results, values.mapM step = .ok results ∧ List.Forall₂ Passes values results := by
  induction values with
  | nil => exact .inr ⟨[], rfl, .nil⟩
  | cons value values induction =>
      rw [List.mapM_cons]
      rcases each value with ⟨error, failed, fails⟩ | ⟨result, done, passes⟩
      · exact .inl ⟨error, by rw [failed]; rfl, value, List.mem_cons_self, fails⟩
      · rw [done]
        rcases induction with ⟨error, failed, other, member, fails⟩ | ⟨results, passed, pairs⟩
        · exact .inl ⟨error, by rw [failed]; rfl, other, List.mem_cons_of_mem _ member, fails⟩
        · exact .inr ⟨result :: results, by rw [passed]; rfl, .cons passes pairs⟩

/-! ## Call points -/

theorem callPointsAfter_eq_nil_iff {before body : List BodyLine} :
    callPointsAfter before body = [] ↔ ∀ line ∈ body, line.sites = [] := by
  induction body generalizing before with
  | nil => simp [callPointsAfter]
  | cons line body induction =>
      rw [callPointsAfter, List.append_eq_nil_iff, induction, List.forall_mem_cons]
      simp [callPointsOf]

def sitesOf (targets : List String) (text : List Char) : List CallSite :=
  if isComment text then [] else sortSites (callsOf targets text)

theorem sitesOf_eq_nil_iff {targets : List String} {text : List Char} :
    sitesOf targets text = [] ↔
      (isComment text = false → ∀ target ∈ targets, findCalls text target.toList = []) := by
  have sorted : sortSites (callsOf targets text) = [] ↔ callsOf targets text = [] := by
    rw [← List.length_eq_zero_iff, sortSites, List.length_mergeSort, List.length_eq_zero_iff]
  rw [sitesOf]
  split
  · rename_i comment
    simp [comment]
  · rename_i noComment
    rw [sorted, callsOf, List.flatMap_eq_nil_iff]
    simp [noComment]

def bodyLine? (targets : List String) (placed : List Char × Nat) : Option BodyLine :=
  let text := Outline.content placed.1
  if text.isEmpty then none
  else some ⟨placed.2, Outline.leadingWidth placed.1, text, sitesOf targets text⟩

theorem bodyLines_eq (targets : List String) (lines : List (List Char)) :
    bodyLines targets lines = lines.zipIdx.filterMap (bodyLine? targets) := rfl

theorem exists_of_mem_bodyLines {targets : List String} {lines : List (List Char)}
    {found : BodyLine} (member : found ∈ bodyLines targets lines) :
    ∃ line ∈ lines, found.text = Outline.content line ∧
      found.sites = sitesOf targets (Outline.content line) := by
  rcases List.mem_filterMap.mp member with ⟨⟨line, index⟩, inLines, made⟩
  dsimp only at made
  split at made
  · cases made
  · cases made
    exact ⟨line, List.fst_mem_of_mem_zipIdx inLines, rfl, rfl⟩

theorem callPointsIn_eq_nil_iff {targets : List String} {lines : List (List Char)} :
    callPointsIn (bodyLines targets lines) = [] ↔
      ∀ line ∈ lines, isComment (Outline.content line) = false →
        ∀ target ∈ targets, findCalls (Outline.content line) target.toList = [] := by
  simp only [← sitesOf_eq_nil_iff]
  rw [callPointsIn, callPointsAfter_eq_nil_iff]
  constructor
  · intro none line member
    by_cases empty : Outline.content line = []
    · rw [sitesOf_eq_nil_iff, empty]
      intro _ target _
      simp [findCalls, Call.occurrences]
    · rcases List.mem_iff_getElem.mp member with ⟨index, bound, same⟩
      refine none ⟨index, Outline.leadingWidth line, Outline.content line, _⟩ ?_
      refine List.mem_filterMap.mpr ⟨(line, index), ?_, ?_⟩
      · rw [List.mem_zipIdx_iff_getElem?, List.getElem?_eq_getElem bound, same]
      · dsimp only
        rw [if_neg (by simpa using empty)]
        rfl
  · intro none found member
    rcases exists_of_mem_bodyLines member with ⟨line, inLines, _, sites⟩
    rw [sites]
    exact none line inLines

/-! ## The form -/

theorem formOf_mem_known (name : String) (body : List BodyLine) (points : List CallPoint)
    (cases : List RecursiveCase) : formOf name body points cases ∈ Form.known := by
  unfold formOf
  split
  · decide
  · split
    · decide
    · split
      · dsimp only
        split <;> decide
      · split <;> decide

/-! ## Recursive cases -/

theorem change_mem_known_of_mem_signs : ∀ entry ∈ signs, entry.1 ∈ Change.known := by decide

theorem eq_some_of_orElse {α : Type} {first : Option α} {second : Unit → Option α} {value : α}
    (found : first.orElse second = some value) : first = some value ∨ second () = some value := by
  cases first with
  | none => exact .inr found
  | some other => exact .inl found

theorem knownChange?_mem_known {argument name : List Char} {change : Change}
    (found : knownChange? argument = some (name, change)) : change ∈ Change.known := by
  rcases eq_some_of_orElse found with signed | ofMember
  · rcases Option.bind_eq_some_iff.mp signed with ⟨_, _, ofSign⟩
    rcases Option.map_eq_some_iff.mp ofSign with ⟨entry, isSign, same⟩
    cases same
    exact change_mem_known_of_mem_signs entry (List.mem_of_find?_eq_some isSign)
  · rcases Option.bind_eq_some_iff.mp ofMember with ⟨_, _, same⟩
    split at same
    · cases same
      decide
    · cases same

theorem change_of_transformation (argument : List Char) (standing : Option String) :
    (transformation argument standing).change ∈ Change.known ++ [Change.unclear] := by
  unfold transformation
  dsimp only
  split
  · rename_i known
    exact List.mem_append_left _ (knownChange?_mem_known known)
  · exact List.mem_append_right _ (List.mem_singleton_self _)

theorem change_of_recursiveCase {targets parameters : List String} {line : BodyLine}
    {change : Transformation}
    (member : change ∈ (recursiveCase targets parameters line).transformations) :
    change.change ∈ Change.known ++ [Change.unclear] := by
  rcases List.mem_flatMap.mp member with ⟨site, _, ofSite⟩
  rcases List.mem_map.mp ofSite with ⟨⟨argument, position⟩, _, rfl⟩
  exact change_of_transformation _ _

def EndsHere (line : BodyLine) : Prop := line.sites = [] ∧ isExitLine line.text = true

theorem exitOf_of_baseCase {condition : List Char} {line : BodyLine} {found : BaseCase}
    (made : baseCase condition line = .ok found) :
    (found.exit, found.value) = exitOf line.text := by
  unfold baseCase at made
  dsimp only at made
  split at made
  · cases made
    rfl
  · rcases exists_of_bind made with ⟨comparison, _, returned⟩
    cases returned
    rfl

namespace CaseSearch

section

variable {targets parameters : List String} {Counts : BodyLine → Prop}

variable (targets parameters Counts) in
structure IsOfLines (search : CaseSearch) : Prop where
  branches : ∀ branch ∈ search.branches, ∀ line ∈ branch.lines, Counts line
  recursiveCases : ∀ found ∈ search.recursiveCases, ∃ line, Counts line ∧ line.sites ≠ [] ∧
    found = recursiveCase targets parameters line
  baseCases : ∀ found ∈ search.baseCases, ∃ condition line, Counts line ∧ EndsHere line ∧
    baseCase condition line = .ok found

variable (targets parameters Counts) in
/-- What a step of the search comes to: a search of lines that count, or the failure to read a
number in the condition over one of their exits. -/
def ComesOfLines : Except NumeralError CaseSearch → Prop
  | .ok search => search.IsOfLines targets parameters Counts
  | .error error => ∃ condition line, Counts line ∧ EndsHere line ∧
      baseCase condition line = .error error

variable {search : CaseSearch}

theorem ComesOfLines.bind {first : Except NumeralError CaseSearch}
    {rest : CaseSearch → Except NumeralError CaseSearch}
    (comes : ComesOfLines targets parameters Counts first)
    (goesOn : ∀ next, next.IsOfLines targets parameters Counts →
      ComesOfLines targets parameters Counts (rest next)) :
    ComesOfLines targets parameters Counts (first >>= rest) := by
  cases first with
  | error error => exact comes
  | ok next => exact goesOn next comes

theorem IsOfLines.withBranches {branches : List Branch}
    (ofLines : search.IsOfLines targets parameters Counts)
    (counted : ∀ branch ∈ branches, ∀ line ∈ branch.lines, Counts line) :
    ({ search with branches } : CaseSearch).IsOfLines targets parameters Counts :=
  ⟨counted, ofLines.recursiveCases, ofLines.baseCases⟩

theorem IsOfLines.addLine {condition : List Char} {line : BodyLine} (counts : Counts line)
    (cases : line.sites ≠ [] ∨ isExitLine line.text = true)
    (ofLines : search.IsOfLines targets parameters Counts) :
    ComesOfLines targets parameters Counts
      (search.addLine targets parameters condition line) := by
  unfold CaseSearch.addLine
  split
  · rename_i none
    have endsHere : EndsHere line :=
      have noCalls : line.sites = [] := List.isEmpty_iff.mp none
      ⟨noCalls, cases.resolve_left (· noCalls)⟩
    cases made : baseCase condition line with
    | error error => exact ⟨condition, line, counts, endsHere, made⟩
    | ok found =>
        refine ⟨ofLines.branches, ofLines.recursiveCases, fun other member => ?_⟩
        rcases List.mem_append.mp member with earlier | last
        · exact ofLines.baseCases other earlier
        · rw [List.mem_singleton.mp last]
          exact ⟨condition, line, counts, endsHere, made⟩
  · rename_i some
    refine ⟨ofLines.branches, fun other member => ?_, ofLines.baseCases⟩
    rcases List.mem_append.mp member with earlier | last
    · exact ofLines.recursiveCases other earlier
    · exact ⟨line, counts, fun none => some (List.isEmpty_iff.mpr none),
        List.mem_singleton.mp last⟩

theorem IsOfLines.addBranch {branch : Branch} (counted : ∀ line ∈ branch.lines, Counts line)
    (ofLines : search.IsOfLines targets parameters Counts) :
    ComesOfLines targets parameters Counts (search.addBranch targets parameters branch) := by
  unfold CaseSearch.addBranch
  split
  · rename_i line found
    have calls := List.find?_some found
    exact ofLines.addLine (counted line (List.mem_of_find?_eq_some found))
      (.inl (by simpa using calls))
  · split
    · rename_i line found
      have ends := List.find?_some found
      exact ofLines.addLine (counted line (List.mem_of_find?_eq_some found)) (.inr ends)
    · exact ofLines

theorem IsOfLines.closeOne (ofLines : search.IsOfLines targets parameters Counts) :
    ComesOfLines targets parameters Counts (search.closeOne targets parameters) := by
  unfold CaseSearch.closeOne
  split
  · exact ofLines
  · rename_i branch branches open_
    have counted := ofLines.branches
    rw [open_, List.forall_mem_cons] at counted
    exact (ofLines.withBranches counted.2).addBranch counted.1

theorem IsOfLines.closeWhile {property : Branch → Bool} {branches : List Branch}
    (counted : ∀ branch ∈ branches, ∀ line ∈ branch.lines, Counts line)
    (ofLines : search.IsOfLines targets parameters Counts) :
    ComesOfLines targets parameters Counts
      (CaseSearch.closeWhile targets parameters property branches search) := by
  induction branches generalizing search with
  | nil => exact ofLines.withBranches counted
  | cons branch branches induction =>
      rw [CaseSearch.closeWhile]
      split
      · rw [List.forall_mem_cons] at counted
        exact (ofLines.addBranch counted.1).bind fun next ofLines => induction counted.2 ofLines
      · exact ofLines.withBranches counted

theorem IsOfLines.close {property : Branch → Bool}
    (ofLines : search.IsOfLines targets parameters Counts) :
    ComesOfLines targets parameters Counts (search.close targets parameters property) :=
  ofLines.closeWhile ofLines.branches

theorem IsOfLines.addStatement {line : BodyLine} (counts : Counts line)
    (ofLines : search.IsOfLines targets parameters Counts) :
    ComesOfLines targets parameters Counts (search.addStatement targets parameters line) := by
  unfold CaseSearch.addStatement
  split
  · rename_i branch branches open_
    have counted := ofLines.branches
    rw [open_, List.forall_mem_cons] at counted
    refine ofLines.withBranches (List.forall_mem_cons.mpr ⟨fun other member => ?_, counted.2⟩)
    rcases List.mem_append.mp member with earlier | last
    · exact counted.1 other earlier
    · rw [List.mem_singleton.mp last]
      exact counts
  · split
    · rename_i cases
      exact ofLines.addLine counts (by simpa using cases)
    · exact ofLines

/-- A comment is passed over, so of the others only it need be known that they count. -/
theorem IsOfLines.add {line : BodyLine} (counts : isComment line.text = false → Counts line)
    (ofLines : search.IsOfLines targets parameters Counts) :
    ComesOfLines targets parameters Counts (search.add targets parameters line) := by
  unfold CaseSearch.add
  split
  · exact ofLines
  · rename_i noComment
    refine ofLines.close.bind fun level ofLines => ?_
    split
    · exact ofLines.closeOne
    · split
      · have opens (outer : CaseSearch) (ofLines : outer.IsOfLines targets parameters Counts) :
            ComesOfLines targets parameters Counts (.ok { outer with
              branches := ⟨line.indent, conditionOf line.text, []⟩ :: outer.branches }) :=
          ofLines.withBranches (List.forall_mem_cons.mpr ⟨List.forall_mem_nil _, ofLines.branches⟩)
        dsimp only
        split
        · exact ofLines.closeOne.bind opens
        · exact opens level ofLines
      · exact ofLines.close.bind fun outer ofLines =>
          ofLines.addStatement (counts (by simpa using noComment))

theorem IsOfLines.addAll {body : List BodyLine}
    (counted : ∀ line ∈ body, isComment line.text = false → Counts line)
    (ofLines : search.IsOfLines targets parameters Counts) :
    ComesOfLines targets parameters Counts
      (body.foldlM (CaseSearch.add targets parameters) search) := by
  induction body generalizing search with
  | nil => exact ofLines
  | cons line body induction =>
      rw [List.forall_mem_cons] at counted
      rw [List.foldlM_cons]
      exact (ofLines.add counted.1).bind fun next ofLines => induction counted.2 ofLines

end

theorem ofBody_comesOfLines (targets parameters : List String) (body : List BodyLine) :
    ComesOfLines targets parameters (fun line => line ∈ body ∧ isComment line.text = false)
      (ofBody targets parameters body) := by
  have start : ({} : CaseSearch).IsOfLines targets parameters
      (fun line => line ∈ body ∧ isComment line.text = false) := ⟨nofun, nofun, nofun⟩
  exact (start.addAll fun line member noComment => ⟨member, noComment⟩).bind
    fun gathered ofLines => ofLines.close

theorem isOfLines_of_ofBody {targets parameters : List String} {body : List BodyLine}
    {search : CaseSearch} (searched : ofBody targets parameters body = .ok search) :
    search.IsOfLines targets parameters
      (fun line => line ∈ body ∧ isComment line.text = false) := by
  have comes := ofBody_comesOfLines targets parameters body
  rwa [searched] at comes

end CaseSearch

/-! ## The depth -/

def comparedNumber? (cases : List BaseCase) : Option Int :=
  (cases.findSome? fun found => found.comparedWith.bind wholeNumber?).map
    fun (negative, digits) => Numeral.signed negative (digitsValue digits)

theorem hint_of_depthOfCases {cases : List BaseCase} {hint : Option Int}
    (hinted : depthOfCases cases = .ok hint) :
    hint = (comparedNumber? cases).map (· + depthMargin) := by
  unfold depthOfCases at hinted
  unfold comparedNumber?
  split at hinted
  · rename_i none
    cases hinted
    rw [none]
    rfl
  · rename_i negative digits some
    rw [some]
    unfold Numeral.wholeOfDigits at hinted
    split at hinted
    · cases hinted
    · cases hinted
      rfl

def countedPatterns : List String := ["factorial", "fibonacci"]

/-- A hint is negative only where it is counted on from a number below minus the margin. -/
theorem nonneg_of_depthOf {pattern : Pattern} {cases : List BaseCase} {hint : Option Int}
    {formula : Option String} (hinted : depthOf pattern cases = .ok (hint, formula)) :
    (∀ depth ∈ hint, 0 ≤ depth) ↔
      (pattern.name ∈ countedPatterns →
        ∀ number ∈ comparedNumber? cases, -depthMargin ≤ number) := by
  have counted (formula' : String)
      (hinted : (depthOfCases cases).map (·, some formula') = .ok (hint, formula)) :
      (∀ depth ∈ hint, 0 ≤ depth) ↔
        ∀ number ∈ comparedNumber? cases, -depthMargin ≤ number := by
    cases first : depthOfCases cases with
    | error error =>
        rw [first] at hinted
        cases hinted
    | ok value =>
        rw [first] at hinted
        cases hinted
        rw [hint_of_depthOfCases first]
        cases comparedNumber? cases with
        | none => simp
        | some number =>
            simp only [Option.map_some, Option.mem_some_iff, forall_eq']
            omega
  unfold depthOf at hinted
  split at hinted
  · rename_i name
    simpa [name, countedPatterns] using counted "n" hinted
  split at hinted
  · rename_i name
    simpa [name, countedPatterns] using counted "2^n" hinted
  · rename_i notFactorial notFibonacci
    have other : pattern.name ∉ countedPatterns := by
      simp [countedPatterns, notFactorial, notFibonacci]
    split at hinted
    · cases hinted
      simp [other, halvingDepth]
    · cases hinted
      simp [other]

/-! ## The whole -/

section Analysis

variable {scorer : Scorer} {name : String} {parameters peers : List String}
  {lines : List (List Char)} {recursion : Recursion}

theorem of_analyze (analyzed : analyze scorer name parameters lines peers = .ok recursion) :
    let targets := targetsOf name peers
    let body := bodyLines targets lines
    callPointsIn body = [] ∧ recursion = {} ∨
      callPointsIn body ≠ [] ∧ ∃ search hint formula,
        CaseSearch.ofBody targets parameters body = .ok search ∧
          depthOf (scorer (bodyText body)) search.baseCases = .ok (hint, formula) ∧
          recursion = {
            isRecursive := true
            form := formOf name body (callPointsIn body) search.recursiveCases
            callPoints := callPointsIn body
            pattern := some (scorer (bodyText body))
            baseCases := search.baseCases
            recursiveCases := search.recursiveCases
            depthHint := hint
            depthFormula := formula } := by
  intro targets body
  unfold analyze at analyzed
  dsimp only at analyzed
  split at analyzed
  · rename_i none
    cases analyzed
    exact .inl ⟨List.isEmpty_iff.mp none, rfl⟩
  · rename_i some
    rcases exists_of_bind analyzed with ⟨search, searched, analyzed⟩
    rcases exists_of_bind analyzed with ⟨⟨hint, formula⟩, hinted, analyzed⟩
    cases analyzed
    exact .inr ⟨fun none => some (List.isEmpty_iff.mpr none), search, hint, formula, searched,
      hinted, rfl⟩

theorem isRecursive_of_analyze
    (analyzed : analyze scorer name parameters lines peers = .ok recursion) :
    recursion.isRecursive = true ↔ callPointsIn (bodyLines (targetsOf name peers) lines) ≠ [] := by
  rcases of_analyze analyzed with ⟨none, rfl⟩ | ⟨some, _, _, _, _, _, rfl⟩
  · simp [none]
  · simp [some]

end Analysis

end Flowchart.Recursion
