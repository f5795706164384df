import Flowchart.Proofs.Comparison.Operand
import Flowchart.Proofs.Recursion.Branches

/-!
Bodies whose numbers can be read.

The analysis of a function reads numbers in two places: in the conditions over its exits, and for
the depth in the first whole number that one of them compares with, be it in quotes. It comes to a
result unless one of these has too many digits.
-/

namespace Flowchart.Recursion

open Text Comparison

def operandsOf (body : List BodyLine) : List (List Char) :=
  (exitsOf body).filterMap fun exit => operand? exit.1

def firstWhole? (body : List BodyLine) : Option (List Char) :=
  ((operandsOf body).map unquoted).find? Numeral.isWhole

structure Readable (scorer : Scorer) (body : List BodyLine) : Prop where
  operands : ∀ operand ∈ operandsOf body, ¬Numeral.Overlong operand
  depth : (scorer (bodyText body)).name ∈ countedPatterns →
    ∀ number ∈ firstWhole? body, ¬Numeral.Overlong number

/-! ## Where the operands stand -/

theorem isInfix_dropLastThen (text : List Char) : dropLastThen text <:+: text := by
  rw [dropLastThen]
  split
  · exact (isInfix_trimEnd _).trans (List.take_prefix _ _).isInfix
  · exact List.infix_rfl

theorem isInfix_conditionOf (text : List Char) :
    conditionOf text = "else".toList ∨ conditionOf text <:+: text := by
  rw [conditionOf]
  split
  · exact .inl rfl
  · refine .inr ((isInfix_trim _).trans ((isInfix_dropLastThen _).trans ?_))
    cases found : Phrase.firstAfter? fold conditionHeads text with
    | none => exact List.infix_rfl
    | some rest => exact (Phrase.firstAfter?_suffix found).isInfix

theorem operand?_of_noCondition {condition : List Char}
    (none : (condition.isEmpty || condition = "else".toList) = true) :
    operand? condition = .none := by
  rcases Bool.or_eq_true_iff.mp none with empty | otherwise
  · rw [List.isEmpty_iff.mp empty]
    decide +kernel
  · rw [of_decide_eq_true otherwise]
    decide +kernel

theorem exists_infix_of_mem_operandsOf {body : List BodyLine} {operand : List Char}
    (member : operand ∈ operandsOf body) : ∃ line ∈ body, operand <:+: line.text := by
  rcases List.mem_filterMap.mp member with ⟨⟨condition, last⟩, isExit, states⟩
  rcases (of_mem_exitsOf isExit).2 with none | ⟨line, inBody, ofLine⟩
  · rw [show condition = [] from none, operand?_of_noCondition rfl] at states
    cases states
  · have ofLine : condition = conditionOf line.text := ofLine
    rw [ofLine] at states
    rcases isInfix_conditionOf line.text with otherwise | within
    · rw [otherwise, operand?_of_noCondition rfl] at states
      cases states
    · exact ⟨line, inBody, (isInfix_operand? states).trans within⟩

theorem exists_infix_of_mem_operandsOf_dedent {targets : List String} {rows : List (List Char)}
    (unbroken : ∀ line ∈ rows, ∀ c ∈ line, isLineBreak c = false) {operand : List Char}
    (member : operand ∈ operandsOf (bodyLines targets (lines (dedent (joinLines rows))))) :
    operand = [] ∨ ∃ row ∈ rows, operand <:+: row := by
  rcases exists_infix_of_mem_operandsOf member with ⟨found, inBody, inText⟩
  rcases exists_of_mem_bodyLines inBody with ⟨line, inLines, text, _⟩
  have inLine : operand <:+: line := inText.trans (text ▸ Outline.isInfix_content line)
  by_cases empty : line = []
  · exact .inl (List.infix_nil.mp (empty ▸ inLine))
  · rcases exists_infix_of_mem_lines_dedent unbroken empty inLines with ⟨row, inRows, inRow⟩
    exact .inr ⟨row, inRows, inLine.trans inRow⟩

/-! ## Cases -/

def BaseCase.size? (found : BaseCase) : Option (Except NumeralError Nat) :=
  found.comparedWith.bind fun text => Numeral.size? text.toList

/-- What a base case that is told has of the operand in its condition: the operand can be read, and
a whole number that it compares with has the size of the one that is written. -/
structure IsOfOperand (condition : List Char) (found : BaseCase) : Prop where
  legible : ∀ error, (operand? condition).bind Numeral.size? ≠ some (.error error)
  size : found.size? = (operand? condition).bind fun operand => Numeral.size? (unquoted operand)

theorem baseCase_cases (condition : List Char) (line : BodyLine) :
    (∃ error, baseCase condition line = .error error ∧
        (operand? condition).bind Numeral.size? = some (.error error)) ∨
      ∃ found, baseCase condition line = .ok found ∧ IsOfOperand condition found := by
  unfold baseCase
  dsimp only
  split
  · rename_i none
    have noOperand := operand?_of_noCondition none
    exact .inr ⟨_, rfl, by rw [noOperand]; nofun, by rw [noOperand]; rfl⟩
  · rcases read?_cases condition with
      ⟨error, failed, noComparison⟩ | ⟨comparison, read, legible, same⟩
    · exact .inl ⟨error, by rw [noComparison]; rfl, failed⟩
    · refine .inr ⟨_, by rw [read]; rfl, legible, ?_⟩
      rw [← same]
      cases comparison <;> rfl

theorem sizes_of_forall₂ {exits : List (List Char × BodyLine)} {cases : List BaseCase}
    (pairs : List.Forall₂ (fun exit found => IsOfOperand exit.1 found) exits cases) :
    (∀ operand ∈ exits.filterMap fun exit => operand? exit.1, ∀ error,
        Numeral.size? operand ≠ some (.error error)) ∧
      cases.findSome? BaseCase.size? =
        ((exits.filterMap fun exit => operand? exit.1).map unquoted).findSome? Numeral.size? := by
  induction pairs with
  | nil => exact ⟨nofun, rfl⟩
  | @cons exit found _ _ ofOperand _ induction =>
      rcases ofOperand with ⟨legible, size⟩
      rw [List.filterMap_cons, List.findSome?_cons, size, induction.2]
      revert legible
      cases operand? exit.1 with
      | none => exact fun _ => ⟨induction.1, rfl⟩
      | some operand =>
          exact fun legible => ⟨List.forall_mem_cons.mpr ⟨legible, induction.1⟩, rfl⟩

theorem findSome?_size? (texts : List (List Char)) :
    texts.findSome? Numeral.size? = (texts.find? Numeral.isWhole).bind Numeral.size? := by
  induction texts with
  | nil => rfl
  | cons text texts induction =>
      have whole : Numeral.isWhole text = (Numeral.size? text).isSome := by
        rw [Numeral.size?, Option.isSome_map, Numeral.isWhole]
      rw [List.findSome?_cons, List.find?_cons, induction, whole]
      cases size : Numeral.size? text with
      | none => rfl
      | some value => exact size.symm

/-- Where the cases of a body cannot be told, an operand is too long. Otherwise the first whole
number that one of them compares with has the size of the first one that is written. -/
theorem ofBody_cases (targets parameters : List String) (body : List BodyLine) :
    (∃ error, CaseSearch.ofBody targets parameters body = .error error ∧
        ∃ operand ∈ operandsOf body, Numeral.size? operand = some (.error error)) ∨
      ∃ search, CaseSearch.ofBody targets parameters body = .ok search ∧
        (∀ operand ∈ operandsOf body, ∀ error, Numeral.size? operand ≠ some (.error error)) ∧
        search.baseCases.findSome? BaseCase.size? = (firstWhole? body).bind Numeral.size? := by
  have read := CaseSearch.baseCases_ofBody targets parameters body
  rcases mapM_cases (fun exit : List Char × BodyLine => baseCase_cases exit.1 exit.2)
      (exitsOf body) with ⟨error, failed, exit, member, overlong⟩ | ⟨cases, passed, pairs⟩
  · rcases Option.bind_eq_some_iff.mp overlong with ⟨operand, states, overlong⟩
    exact .inl ⟨error, map_eq_error_iff.mp (read.trans failed), operand,
      List.mem_filterMap.mpr ⟨exit, member, states⟩, overlong⟩
  · cases searched : CaseSearch.ofBody targets parameters body with
    | error error =>
        rw [searched] at read
        cases read.trans passed
    | ok search =>
        rw [searched] at read
        cases read.trans passed
        rcases sizes_of_forall₂ pairs with ⟨legible, size⟩
        exact .inr ⟨search, rfl, legible, size.trans (findSome?_size? _)⟩

/-! ## The depth -/

theorem BaseCase.size?_eq (found : BaseCase) :
    found.size? = (found.comparedWith.bind wholeNumber?).map
      fun (_, digits) => Numeral.wholeOfDigits digits := by
  rw [BaseCase.size?, Option.map_bind]
  congr 1
  funext text
  rw [Numeral.size?, String.ofList_toList]
  rfl

theorem depthOfCases_eq_error_iff {cases : List BaseCase} {error : NumeralError} :
    depthOfCases cases = .error error ↔ cases.findSome? BaseCase.size? = some (.error error) := by
  have first : cases.findSome? BaseCase.size? =
      (cases.findSome? fun found => found.comparedWith.bind wholeNumber?).map
        fun (_, digits) => Numeral.wholeOfDigits digits := by
    rw [List.map_findSome?]
    exact congrArg (List.findSome? · cases) (funext BaseCase.size?_eq)
  rw [first, depthOfCases]
  cases cases.findSome? fun found => found.comparedWith.bind wholeNumber? with
  | none => exact ⟨nofun, nofun⟩
  | some number =>
      rcases number with ⟨negative, digits⟩
      dsimp only [Option.map_some]
      rw [map_eq_error_iff, Option.some_inj]

theorem depthOf_eq_error_iff {pattern : Pattern} {cases : List BaseCase} {error : NumeralError} :
    depthOf pattern cases = .error error ↔
      pattern.name ∈ countedPatterns ∧ cases.findSome? BaseCase.size? = some (.error error) := by
  rw [← depthOfCases_eq_error_iff, depthOf]
  split
  · rename_i name
    simp [map_eq_error_iff, name, countedPatterns]
  · split
    · rename_i name
      simp [map_eq_error_iff, name, countedPatterns]
    · rename_i notFactorial notFibonacci
      have other : pattern.name ∉ countedPatterns := by
        simp [countedPatterns, notFactorial, notFibonacci]
      split <;> simp [other]

/-! ## The whole -/

structure Unreadable (scorer : Scorer) (body : List BodyLine) (error : NumeralError) : Prop where
  number : ∃ operand ∈ operandsOf body, ∃ number, number <:+: operand ∧
    Numeral.size? number = some (.error error)
  notReadable : ¬Readable scorer body

theorem unreadable_of_operand {scorer : Scorer} {body : List BodyLine} {operand : List Char}
    {error : NumeralError} (member : operand ∈ operandsOf body)
    (overlong : Numeral.size? operand = some (.error error)) : Unreadable scorer body error where
  number := ⟨operand, member, operand, List.infix_rfl, overlong⟩
  notReadable readable :=
    readable.operands operand member (Numeral.overlong_iff.mpr ⟨error, overlong⟩)

theorem unreadable_of_firstWhole {scorer : Scorer} {body : List BodyLine} {error : NumeralError}
    (counted : (scorer (bodyText body)).name ∈ countedPatterns)
    (overlong : (firstWhole? body).bind Numeral.size? = some (.error error)) :
    Unreadable scorer body error := by
  rcases Option.bind_eq_some_iff.mp overlong with ⟨number, first, overlong⟩
  rcases List.mem_map.mp (List.mem_of_find?_eq_some first) with ⟨operand, member, rfl⟩
  exact ⟨⟨operand, member, unquoted operand, isInfix_unquoted operand, overlong⟩,
    fun readable => readable.depth counted _ first (Numeral.overlong_iff.mpr ⟨error, overlong⟩)⟩

theorem analyze_cases (scorer : Scorer) (name : String) (parameters : List String)
    (lines : List (List Char)) (peers : List String) :
    let body := bodyLines (targetsOf name peers) lines
    (∃ error, analyze scorer name parameters lines peers = .error error ∧
        callPointsIn body ≠ [] ∧ Unreadable scorer body error) ∨
      ∃ recursion, analyze scorer name parameters lines peers = .ok recursion ∧
        (callPointsIn body ≠ [] → Readable scorer body) := by
  intro body
  unfold analyze
  dsimp only
  split
  · rename_i none
    exact .inr ⟨{}, rfl, fun some => absurd (List.isEmpty_iff.mp none) some⟩
  rename_i some
  have calls : callPointsIn body ≠ [] := fun none => some (List.isEmpty_iff.mpr none)
  rcases ofBody_cases (targetsOf name peers) parameters body with
    ⟨error, failed, operand, member, overlong⟩ | ⟨search, searched, legible, same⟩
  · exact .inl ⟨error, by rw [failed]; rfl, calls, unreadable_of_operand member overlong⟩
  · rw [searched]
    have goesOn {α : Type} (rest : CaseSearch → Except NumeralError α) :
        Except.ok search >>= rest = rest search := rfl
    rw [goesOn]
    cases hinted : depthOf (scorer (bodyText body)) search.baseCases with
    | error error =>
        rcases depthOf_eq_error_iff.mp hinted with ⟨counted, overlong⟩
        exact .inl ⟨error, rfl, calls, unreadable_of_firstWhole counted (same ▸ overlong)⟩
    | ok hint =>
        refine .inr ⟨_, rfl, fun _ => ⟨fun operand member overlong => ?_, ?_⟩⟩
        · rcases Numeral.overlong_iff.mp overlong with ⟨error, overlong⟩
          exact legible operand member error overlong
        · intro counted number first overlong
          rcases Numeral.overlong_iff.mp overlong with ⟨error, overlong⟩
          have failed := depthOf_eq_error_iff.mpr
            ⟨counted, same.trans (Option.bind_eq_some_iff.mpr ⟨number, first, overlong⟩)⟩
          cases hinted.symm.trans failed

end Flowchart.Recursion
