import Flowchart.Proofs.Comparison.TooLong
import Flowchart.Proofs.Procedure.Cycle
import Flowchart.Proofs.Program.Compiled
import Flowchart.Proofs.Recursion.Readable

/-!
Texts that compile.

A text compiles unless a recursive function in it compares with a whole number of too many digits
before one of its exits. Nothing else fails.
-/

namespace Flowchart

open Text

namespace Procedure

def bodyIn (functions : List Captured) (function : Captured) : List Recursion.BodyLine :=
  let peers := (callGraph functions).mutualPartners function.header.name
  Recursion.bodyLines (Recursion.targetsOf function.header.name peers)
    (lines (dedent (joinLines function.body)))

def recursiveDefinitions (text : List Char) : List Captured :=
  (definitions text).filter fun function =>
    !(Recursion.callPointsIn (bodyIn (definitions text) function)).isEmpty

theorem mem_recursiveDefinitions_iff {text : List Char} {function : Captured} :
    function ∈ recursiveDefinitions text ↔ function ∈ definitions text ∧
      Recursion.callPointsIn (bodyIn (definitions text) function) ≠ [] := by
  simp [recursiveDefinitions]

theorem ofCaptured_cases (scorer : Recursion.Scorer) (functions : List Captured)
    (function : Captured) :
    (∃ error, ofCaptured scorer (callGraph functions) function = .error error ∧
        (Recursion.callPointsIn (bodyIn functions function) ≠ [] ∧
          Recursion.Unreadable scorer (bodyIn functions function) error)) ∨
      ∃ procedure, ofCaptured scorer (callGraph functions) function = .ok procedure ∧
        (Recursion.callPointsIn (bodyIn functions function) ≠ [] →
          Recursion.Readable scorer (bodyIn functions function)) := by
  rcases function with ⟨⟨name, parameters⟩, line, body⟩
  rw [ofCaptured]
  rcases Recursion.analyze_cases scorer name parameters (lines (dedent (joinLines body)))
      ((callGraph functions).mutualPartners name) with
    ⟨error, failed, calls, unreadable⟩ | ⟨recursion, analyzed, readable⟩
  · exact .inl ⟨error, by simp only [failed]; rfl, calls, unreadable⟩
  · exact .inr ⟨_, by simp only [analyzed]; rfl, readable⟩

/-- A number that is too long in a function of a text is a row of digits of the text. -/
theorem exists_row_of_unreadable {scorer : Recursion.Scorer} {text : List Char}
    {function : Captured} (member : function ∈ definitions text) {error : NumeralError}
    (unreadable : Recursion.Unreadable scorer (bodyIn (definitions text) function) error) :
    ∃ row, Numeral.OverlongRow row text ∧ error = .tooLong row.length := by
  rcases unreadable.number with ⟨operand, inBody, number, inOperand, failed⟩
  rcases Numeral.exists_row_of_size? failed with ⟨row, overlong, _, same⟩
  have rows := (of_mem_captured member).2
  have unbroken : ∀ line ∈ function.body, ∀ c ∈ line, isLineBreak c = false :=
    fun line inRows => not_isLineBreak_of_mem_lines (rows line inRows)
  have within : operand <:+: text := by
    rcases Recursion.exists_infix_of_mem_operandsOf_dedent unbroken inBody with
      rfl | ⟨line, inRows, inLine⟩
    · exact List.nil_infix
    · exact inLine.trans (infix_of_mem_lines (rows line inRows))
  exact ⟨row, ⟨overlong.within.trans (inOperand.trans within), overlong.areDigits,
    overlong.tooLong⟩, same⟩

/-! ## A function that cannot be read -/

section Comparing

open Recursion Comparison

def comparingBody (digits : List Char) : List (List Char) :=
  ["    ".toList ++ condition digits, "        Return 1".toList, "    Return f(x)".toList]

def comparingRows (digits : List Char) : List (List Char) :=
  "Function f(x)".toList :: comparingBody digits

def comparingText (digits : List Char) : String := String.ofList (joinLines (comparingRows digits))

def comparing (digits : List Char) : Captured := ⟨⟨"f", ["x"]⟩, 0, comparingBody digits⟩

def comparingExit : BodyLine := ⟨1, 4, "Return 1".toList, []⟩

def comparingCall (sites : List CallSite) : BodyLine := ⟨2, 0, "Return f(x)".toList, sites⟩

theorem captured_comparingRows (digits : List Char) :
    captured (segments (comparingRows digits)) = [comparing digits] := by
  have header : Header.read? "Function f(x)".toList = some ⟨"f", ["x"]⟩ := by decide
  have body : takeBody (Outline.leadingWidth "Function f(x)".toList) none (comparingBody digits) =
      (comparingBody digits, []) := rfl
  have trimmed : trimBody (comparingBody digits) = comparingBody digits := rfl
  rw [segments, comparingRows, segmentsFrom, header]
  simp only [body, trimmed, dropEnd]
  rw [segmentsFrom]
  rfl

theorem unbroken_comparingRows {digits : List Char}
    (areDigits : ∀ c ∈ digits, c.isDigit = true) :
    ∀ line ∈ comparingRows digits, ∀ c ∈ line, isLineBreak c = false := by
  have others : ∀ line ∈ ["Function f(x)".toList, "    ".toList, "        Return 1".toList,
      "    Return f(x)".toList], line.any isLineBreak = false := by decide
  simp only [List.any_eq_false, Bool.not_eq_true, List.forall_mem_cons] at others
  rcases others with ⟨header, margin, others⟩
  simp only [comparingRows, comparingBody, List.forall_mem_cons, List.forall_mem_append]
  exact ⟨header, ⟨margin, unbroken_condition areDigits⟩, others⟩

theorem definitions_comparingRows {digits : List Char}
    (areDigits : ∀ c ∈ digits, c.isDigit = true) :
    definitions (joinLines (comparingRows digits)) = [comparing digits] := by
  have filled : ∀ line ∈ comparingRows digits, line ≠ [] := by
    simp [comparingRows, comparingBody]
  rw [definitions, lines_joinLines (unbroken_comparingRows areDigits) filled,
    captured_comparingRows]

theorem mutualPartners_comparing (digits : List Char) :
    (callGraph [comparing digits]).mutualPartners "f" = [] := by
  have graph : callGraph [comparing digits] = [("f", [])] := rfl
  rw [graph]
  simp [CallGraph.mutualPartners, CallGraph.callees, CallGraph.sortNames]

theorem endings_comparing (digits : List Char) (sites : List CallSite) (site : CallSite)
    (more : List CallSite) :
    Branch.endings []
        [⟨0, 0, condition digits, sites⟩, comparingExit, comparingCall (site :: more)] =
      [⟨0, conditionOf (condition digits), [comparingExit]⟩,
        ⟨0, [], [comparingCall (site :: more)]⟩] := rfl

section

variable {digits : List Char} (some : digits ≠ []) (areDigits : ∀ c ∈ digits, c.isDigit = true)
include some areDigits

theorem conditionOf_condition : conditionOf (condition digits) = equation digits := by
  have noElse : elsePhrase.begins fold (condition digits) = false := rfl
  have head : (Phrase.firstAfter? fold conditionHeads (condition digits)).getD (condition digits) =
      equation digits := rfl
  have noThen : dropLastThen (equation digits) = equation digits := by
    rcases exists_last_digit some areDigits "x == ".toList with ⟨front, c, split, digit⟩
    have split : equation digits = front ++ [c] := split
    have noLetter : fold c ≠ 'n' :=
      fold_ne_of_isDecimalDigit (isDecimalDigit_of_isDigit digit) rfl rfl
    refine if_neg fun ends => noLetter ?_
    have last := congrArg List.getLast? ends.1
    rw [List.getLast?_map, List.getLast?_drop, split, List.getLast?_concat] at last
    split at last
    · cases last
    · exact Option.some.inj last
  have isVariable : IsVariable ['x'] := by decide
  have trimmed : Trimmed (statement ['x'] .equal digits) :=
    trimmed_statement isVariable (isWhole_of_isDigit some areDigits)
  rw [conditionOf, noElse, head, noThen]
  exact trimmed.trim_eq

theorem operand?_equation : operand? (equation digits) = .some digits := by
  have isVariable : IsVariable ['x'] := by decide
  have known : Relation.equal ∈ Relation.known := by decide
  have whole := isWhole_of_isDigit some areDigits
  have same : equation digits = statement ['x'] .equal digits := rfl
  rw [operand?, same, core_statement isVariable known whole]
  exact congrArg (Option.map fun parts => parts.2.2) (parts?_statement isVariable known whole)

omit some in
theorem lines_dedent_comparingBody : lines (dedent (joinLines (comparingBody digits))) =
    [condition digits, "    Return 1".toList, "Return f(x)".toList] := by
  have unbroken := (List.forall_mem_cons.mp (unbroken_comparingRows areDigits)).2
  have cut : (comparingBody digits).map (behindMargin (margin (comparingBody digits)).length) =
      [condition digits, "    Return 1".toList, "Return f(x)".toList] := rfl
  have unbrokenThen := unbroken_behindMargin unbroken
  have some : comparingBody digits ≠ [] := List.cons_ne_nil _ _
  rw [dedent_joinLines some (newline_not_mem unbroken), cut]
  rw [cut] at unbrokenThen
  exact lines_joinLines unbrokenThen (by simp [condition])

theorem exists_bodyIn_comparing : ∃ sites site more, bodyIn [comparing digits] (comparing digits) =
    [⟨0, 0, condition digits, sites⟩, comparingExit, comparingCall (site :: more)] := by
  have calls : sitesOf ["f"] "Return f(x)".toList ≠ [] := by decide +kernel
  rcases List.exists_cons_of_ne_nil calls with ⟨site, more, called⟩
  have first : bodyLine? ["f"] (condition digits, 0) =
      .some ⟨0, 0, condition digits, sitesOf ["f"] (condition digits)⟩ := by
    rw [bodyLine?, content_condition some areDigits]
    rfl
  have others : [("    Return 1".toList, 1), ("Return f(x)".toList, 2)].filterMap
      (bodyLine? ["f"]) =
        [comparingExit, comparingCall (sitesOf ["f"] "Return f(x)".toList)] := by decide +kernel
  have places : [condition digits, "    Return 1".toList, "Return f(x)".toList].zipIdx =
      [(condition digits, 0), ("    Return 1".toList, 1), ("Return f(x)".toList, 2)] := rfl
  have body : bodyIn [comparing digits] (comparing digits) =
      bodyLines (targetsOf "f" ((callGraph [comparing digits]).mutualPartners "f"))
        (lines (dedent (joinLines (comparingBody digits)))) := rfl
  have targets : targetsOf "f" [] = ["f"] := rfl
  refine ⟨sitesOf ["f"] (condition digits), site, more, ?_⟩
  rw [body, mutualPartners_comparing, targets, lines_dedent_comparingBody areDigits, bodyLines_eq,
    places, List.filterMap_cons_some first, others, called]

theorem operandsOf_comparing :
    digits ∈ operandsOf (bodyIn [comparing digits] (comparing digits)) := by
  rcases exists_bodyIn_comparing some areDigits with ⟨sites, site, more, body⟩
  have isExit : (equation digits, comparingExit) ∈
      exitsOf (bodyIn [comparing digits] (comparing digits)) := by
    rw [exitsOf, body, endings_comparing, conditionOf_condition some areDigits]
    exact List.mem_singleton_self _
  exact List.mem_filterMap.mpr ⟨_, isExit, operand?_equation some areDigits⟩

theorem mem_recursiveDefinitions_comparing :
    comparing digits ∈ recursiveDefinitions (joinLines (comparingRows digits)) := by
  rcases exists_bodyIn_comparing some areDigits with ⟨sites, site, more, body⟩
  rw [mem_recursiveDefinitions_iff, definitions_comparingRows areDigits, body, callPointsIn]
  refine ⟨List.mem_singleton_self _, fun none => ?_⟩
  have noSites := callPointsAfter_eq_nil_iff.mp none (comparingCall (site :: more)) (by simp)
  cases noSites

end

end Comparing

end Procedure

namespace Program

open Procedure

theorem compile_cases (scorer : Recursion.Scorer) (source : String) :
    (∃ error, compile scorer source = .error error ∧
        ∃ function ∈ recursiveDefinitions source.toList,
          Recursion.Unreadable scorer (bodyIn (definitions source.toList) function) error) ∨
      ∃ program, compile scorer source = .ok program ∧
        ∀ function ∈ recursiveDefinitions source.toList,
          Recursion.Readable scorer (bodyIn (definitions source.toList) function) := by
  rw [compile_eq]
  rcases Recursion.mapM_cases (ofCaptured_cases scorer (definitions source.toList))
      (definitions source.toList) with
    ⟨error, failed, function, member, calls, unreadable⟩ | ⟨procedures, passed, pairs⟩
  · rw [definitions] at failed
    exact .inl ⟨error, by simp only [extract, failed]; rfl, function,
      mem_recursiveDefinitions_iff.mpr ⟨member, calls⟩, unreadable⟩
  · refine .inr ⟨_, by rw [definitions] at passed; simp only [extract, passed]; rfl,
      fun function member => ?_⟩
    rcases mem_recursiveDefinitions_iff.mp member with ⟨defined, calls⟩
    rcases exists_of_forall₂ pairs defined with ⟨_, _, readable⟩
    exact readable calls

theorem compile_comparingText_ne_ok (scorer : Recursion.Scorer) {digits : List Char}
    (areDigits : ∀ c ∈ digits, c.isDigit = true) (tooLong : Numeral.maxDigits < digits.length)
    (program : Program) : compile scorer (comparingText digits) ≠ .ok program := by
  intro compiled
  have some : digits ≠ [] := List.ne_nil_of_length_pos (Nat.zero_lt_of_lt tooLong)
  have overlong : Numeral.Overlong digits := ⟨digits, ⟨List.infix_rfl, fun c member =>
    isDecimalDigit_of_isDigit (areDigits c member), tooLong⟩, .inl rfl⟩
  rcases compile_cases scorer (comparingText digits) with ⟨error, failed, _⟩ | ⟨_, _, readable⟩
  · cases failed.symm.trans compiled
  · rw [comparingText, String.toList_ofList] at readable
    have body := readable (comparing digits) (mem_recursiveDefinitions_comparing some areDigits)
    rw [definitions_comparingRows areDigits] at body
    exact body.operands digits (operandsOf_comparing some areDigits) overlong

/-- A text compiles if the numbers in its recursive functions can be read, and only then. What
cannot be read is a row of digits of the text that is too long, and nothing else fails: where the
value of a return is taken, there is one. -/
theorem exists_program_iff (scorer : Recursion.Scorer) (source : String) :
    ((∃ program, compile scorer source = .ok program) ↔
        ∀ function ∈ recursiveDefinitions source.toList,
          Recursion.Readable scorer (bodyIn (definitions source.toList) function)) ∧
      (∀ error, compile scorer source = .error error →
        ∃ row, Numeral.OverlongRow row source.toList ∧ error = .tooLong row.length) ∧
      ∀ function ∈ recursiveDefinitions source.toList,
        ∀ exit ∈ Recursion.exitsOf (bodyIn (definitions source.toList) function),
          Recursion.exitWord? exit.2.text = none →
            (Recursion.returned? exit.2.text).isSome = true := by
  refine ⟨?_, ?_, ?_⟩
  · rcases compile_cases scorer source with
      ⟨error, failed, function, member, unreadable⟩ | ⟨program, compiled, readable⟩
    · constructor
      · rintro ⟨program, compiled⟩
        cases failed.symm.trans compiled
      · exact fun readable => absurd (readable function member) unreadable.notReadable
    · exact ⟨fun _ => readable, fun _ => ⟨program, compiled⟩⟩
  · intro error failed
    rcases compile_cases scorer source with
      ⟨other, failedThen, function, member, unreadable⟩ | ⟨program, compiled, _⟩
    · cases failed.symm.trans failedThen
      exact exists_row_of_unreadable (mem_recursiveDefinitions_iff.mp member).1 unreadable
    · cases failed.symm.trans compiled
  · intro function _ exit member noWord
    have ends := (Recursion.of_mem_exitsOf member).1
    rw [Recursion.isExitLine, noWord, Option.isSome_none, Bool.or_false] at ends
    exact ends

/-- A text without a program, in which a recursive function compares with too many digits. -/
theorem exists_text_without_program :
    ¬∀ source : String, ∃ program, compile .standard source = .ok program := by
  intro compiles
  have areDigits : ∀ c ∈ List.replicate (Numeral.maxDigits + 1) '1', c.isDigit = true :=
    fun c member => (List.eq_of_mem_replicate member).symm ▸ rfl
  have tooLong : Numeral.maxDigits < (List.replicate (Numeral.maxDigits + 1) '1').length := by
    rw [List.length_replicate]
    exact Nat.lt_succ_self _
  rcases compiles (comparingText (List.replicate (Numeral.maxDigits + 1) '1')) with
    ⟨program, compiled⟩
  exact compile_comparingText_ne_ok .standard areDigits tooLong program compiled

end Program

end Flowchart
