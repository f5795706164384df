import Flowchart.Proofs.Procedure.Header
import Mathlib.Data.List.DropRight

/-!
The lines of a text, divided into parts.

A part is a line that is no header, or a function: its header, its body, the blank lines behind the
body and the end line behind those, if one stands there. The parts follow one another without gaps,
and the segments of a text are its parts, so that every line belongs to exactly one of them.
-/

namespace Flowchart.Procedure

open Text Outline

structure Definition where
  top : List Char
  header : Header
  body : List (List Char)
  blanks : List (List Char)
  ending : Option (List Char)
  isHeader : Header.read? top = some header
  /-- The first line of the body that is not blank is deeper than the header. -/
  deeper : ∀ first ∈ body.find? (!isAllBlank ·), leadingWidth top < leadingWidth first
  /-- No line of the body that is not blank is narrower than the first. -/
  level : ∀ first ∈ body.find? (!isAllBlank ·), ∀ line ∈ body, isAllBlank line = false →
    leadingWidth first ≤ leadingWidth line
  trimmed : ∀ last ∈ body.getLast?, isAllBlank last = false
  blank : ∀ line ∈ blanks, isAllBlank line = true
  ends : ∀ line ∈ ending, isEndLine line = true ∧ leadingWidth line ≤ leadingWidth top

inductive Part
  | plain (line : List Char) (noHeader : Header.read? line = none)
  | function (definition : Definition)

namespace Definition

def lines (definition : Definition) : List (List Char) :=
  definition.top :: (definition.body ++ definition.blanks ++ definition.ending.toList)

def Takes (definition : Definition) (line : List Char) : Prop :=
  leadingWidth definition.top < leadingWidth line ∧
    ∀ first ∈ definition.body.find? (!isAllBlank ·), leadingWidth first ≤ leadingWidth line

structure Closed (definition : Definition) (behind : List (List Char)) : Prop where
  whole : ∀ next ∈ (definition.ending.toList ++ behind).head?,
    isAllBlank next = false ∧ ¬definition.Takes next
  noEnding : definition.ending = none → ∀ next ∈ behind.head?,
    ¬(isEndLine next = true ∧ leadingWidth next ≤ leadingWidth definition.top)

end Definition

namespace Part

def lines : Part → List (List Char)
  | plain line _ => [line]
  | function definition => definition.lines

def kept : Part → List (List Char)
  | plain line _ => [line]
  | function definition =>
      definition.top :: (definition.body ++ definition.ending.toList)

def plain? : Part → Option (List Char)
  | plain line _ => some line
  | function _ => none

def segment (index : Nat) : Part → Segment
  | plain line _ => .plain line
  | function definition => .procedure ⟨definition.header, index, definition.body⟩

def segmentsFrom (index : Nat) : List Part → List Segment
  | [] => []
  | part :: rest => part.segment index :: segmentsFrom (index + part.lines.length) rest

end Part

/-! ## Bodies -/

/-- What a body takes and where it ends. No line is narrower than the base, which is the first line
of the body unless it is known before. -/
theorem takeBody_bounds (headerWidth : Nat) (base : Option Nat) (lines : List (List Char)) :
    let least := base.or
      (((takeBody headerWidth base lines).1.find? (!isAllBlank ·)).map leadingWidth)
    (∀ line ∈ (takeBody headerWidth base lines).1, isAllBlank line = false →
      headerWidth < leadingWidth line ∧ ∀ width ∈ least, width ≤ leadingWidth line) ∧
    ∀ next ∈ (takeBody headerWidth base lines).2.head?, isAllBlank next = false ∧
      ¬(headerWidth < leadingWidth next ∧ ∀ width ∈ least, width ≤ leadingWidth next) := by
  induction lines generalizing base with
  | nil =>
      constructor
      · intro line member
        cases member
      · intro next isFirst
        cases isFirst
  | cons line rest induction =>
      cases blank : isAllBlank line with
      | true =>
          have taken : takeBody headerWidth base (line :: rest) =
              (line :: (takeBody headerWidth base rest).1, (takeBody headerWidth base rest).2) := by
            rw [takeBody, if_pos blank]
          rw [taken, List.find?_cons_of_neg (by simp [blank])]
          refine ⟨fun other member notBlank => ?_, (induction base).2⟩
          rcases List.mem_cons.mp member with rfl | later
          · rw [blank] at notBlank
            cases notBlank
          · exact (induction base).1 other later notBlank
      | false =>
          by_cases goesOn : headerWidth < leadingWidth line ∧ base.all (· ≤ leadingWidth line)
          · have taken : takeBody headerWidth base (line :: rest) =
                (line :: (takeBody headerWidth (some (base.getD (leadingWidth line))) rest).1,
                  (takeBody headerWidth (some (base.getD (leadingWidth line))) rest).2) := by
              rw [takeBody, if_neg (by simp [blank]), if_pos goesOn]
            -- From this line on the base is known.
            have same : base.or (some (leadingWidth line)) =
                some (base.getD (leadingWidth line)) := by
              cases base <;> rfl
            have later := induction (some (base.getD (leadingWidth line)))
            rw [taken, List.find?_cons_of_pos (by simp [blank]), Option.map_some, same]
            rw [Option.some_or] at later
            refine ⟨fun other member notBlank => ?_, later.2⟩
            rcases List.mem_cons.mp member with rfl | member
            · refine ⟨goesOn.1, fun width isBase => ?_⟩
              cases isBase
              cases base with
              | none => exact Nat.le_refl _
              | some base => simpa using goesOn.2
            · exact later.1 other member notBlank
          · have taken : takeBody headerWidth base (line :: rest) = ([], line :: rest) := by
              rw [takeBody, if_neg (by simp [blank]), if_neg goesOn]
            rw [taken]
            refine ⟨fun other member => absurd member List.not_mem_nil, fun next isFirst => ?_⟩
            cases isFirst
            refine ⟨blank, fun takes => goesOn ⟨takes.1, ?_⟩⟩
            cases base with
            | none => rfl
            | some base => simpa using takes.2

theorem exists_trimBody (body : List (List Char)) :
    ∃ blanks, body = trimBody body ++ blanks ∧ (∀ line ∈ blanks, isAllBlank line = true) ∧
      ∀ last ∈ (trimBody body).getLast?, isAllBlank last = false := by
  refine ⟨body.rtakeWhile isAllBlank, ?_, fun line member => List.mem_rtakeWhile_imp member,
    fun last isLast => ?_⟩
  · apply List.reverse_injective
    rw [List.reverse_append, trimBody, List.reverse_reverse, List.rtakeWhile, List.reverse_reverse,
      List.takeWhile_append_dropWhile]
  · rw [trimBody, List.getLast?_reverse] at isLast
    have notBlank := List.head?_dropWhile_not isAllBlank body.reverse
    rw [Option.mem_def.mp isLast] at notBlank
    exact notBlank

theorem exists_dropEnd (headerWidth : Nat) (lines : List (List Char)) :
    ∃ ending : Option (List Char), lines = ending.toList ++ dropEnd headerWidth lines ∧
      (∀ line ∈ ending, isEndLine line = true ∧ leadingWidth line ≤ headerWidth) ∧
      (ending = none → ∀ next ∈ (dropEnd headerWidth lines).head?,
        ¬(isEndLine next = true ∧ leadingWidth next ≤ headerWidth)) := by
  cases lines with
  | nil => exact ⟨none, rfl, nofun, fun _ => nofun⟩
  | cons line rest =>
      by_cases ends : isEndLine line = true ∧ leadingWidth line ≤ headerWidth
      · refine ⟨some line, ?_, fun other same => ?_, nofun⟩
        · rw [dropEnd, if_pos (by simpa using ends)]
          rfl
        · cases same
          exact ends
      · have kept : dropEnd headerWidth (line :: rest) = line :: rest := by
          rw [dropEnd, if_neg (by simpa using ends)]
        rw [kept]
        refine ⟨none, rfl, nofun, fun _ next isFirst => ?_⟩
        cases isFirst
        exact ends

/-! ## Definitions -/

theorem exists_definition {top : List Char} {header : Header}
    (isHeader : Header.read? top = some header) (rest : List (List Char)) :
    ∃ definition : Definition,
      top :: rest = definition.lines ++
        dropEnd (leadingWidth top) (takeBody (leadingWidth top) none rest).2 ∧
      definition.header = header ∧
      definition.body = trimBody (takeBody (leadingWidth top) none rest).1 ∧
      definition.Closed (dropEnd (leadingWidth top) (takeBody (leadingWidth top) none rest).2) := by
  rcases takeBody_bounds (leadingWidth top) none rest with ⟨inside, outside⟩
  have split := takeBody_append (leadingWidth top) none rest
  generalize (takeBody (leadingWidth top) none rest).1 = body at inside outside split ⊢
  generalize (takeBody (leadingWidth top) none rest).2 = after at outside split ⊢
  rcases exists_trimBody body with ⟨blanks, cut, blank, trimmed⟩
  rcases exists_dropEnd (leadingWidth top) after with ⟨ending, dropped, ends, noEnding⟩
  have sameFirst : body.find? (!isAllBlank ·) = (trimBody body).find? (!isAllBlank ·) := by
    have none : blanks.find? (!isAllBlank ·) = none :=
      List.find?_eq_none.mpr fun line member => by simp [blank line member]
    conv_lhs => rw [cut]
    rw [List.find?_append, none, Option.or_none]
  have part : ∀ line ∈ trimBody body, line ∈ body := fun line member =>
    cut ▸ List.mem_append_left blanks member
  rw [Option.none_or, sameFirst] at inside outside
  simp only [Option.mem_map, forall_exists_index, and_imp, forall_apply_eq_imp_iff₂]
    at inside outside
  refine ⟨⟨top, header, trimBody body, blanks, ending, isHeader, fun first isFirst => ?_,
    fun first isFirst line member notBlank =>
      (inside line (part line member) notBlank).2 first isFirst,
    trimmed, blank, ends⟩, ?_, rfl, rfl, ?_, noEnding⟩
  · have notBlank : isAllBlank first = false := by simpa using List.find?_some isFirst
    exact (inside first (part first (List.mem_of_find?_eq_some isFirst)) notBlank).1
  · rw [Definition.lines, List.cons_append, List.append_assoc, ← dropped, ← cut, split]
  · rwa [← dropped]

/-! ## Texts -/

theorem filter_kept (part : Part) :
    part.lines.filter (!isAllBlank ·) = part.kept.filter (!isAllBlank ·) := by
  cases part with
  | plain line noHeader => rfl
  | function definition =>
      have none : definition.blanks.filter (!isAllBlank ·) = [] :=
        List.filter_eq_nil_iff.mpr fun line member => by simp [definition.blank line member]
      rw [Part.lines, Definition.lines, Part.kept, List.filter_cons, List.filter_cons]
      simp only [List.filter_append, none, List.append_nil]

theorem mainFlow_segmentsFrom (index : Nat) (parts : List Part) :
    mainFlow (Part.segmentsFrom index parts) = parts.filterMap Part.plain? := by
  induction parts generalizing index with
  | nil => rfl
  | cons part rest induction =>
      have later := induction (index + part.lines.length)
      rw [mainFlow] at later
      rw [Part.segmentsFrom, mainFlow, List.filterMap_cons, List.filterMap_cons, later]
      cases part <;> rfl

theorem exists_parts (index : Nat) (lines : List (List Char)) :
    ∃ parts : List Part, parts.flatMap Part.lines = lines ∧
      segmentsFrom index lines = Part.segmentsFrom index parts ∧
      ∀ front definition back, parts = front ++ .function definition :: back →
        definition.Closed (back.flatMap Part.lines) := by
  induction index, lines using segmentsFrom.induct with
  | case1 index =>
      refine ⟨[], rfl, by rw [segmentsFrom, Part.segmentsFrom],
        fun front definition back same => ?_⟩
      cases front <;> cases same
  | case2 index line rest noHeader induction =>
      rcases induction with ⟨parts, whole, same, closed⟩
      refine ⟨.plain line noHeader :: parts, ?_, ?_, fun front definition back split => ?_⟩
      · rw [List.flatMap_cons, whole]
        rfl
      · rw [segmentsFrom, noHeader, Part.segmentsFrom]
        exact congrArg (List.cons _) same
      · cases front with
        | nil => cases split
        | cons first front =>
            cases split
            exact closed front definition back rfl
  | case3 index line rest header isHeader width after induction =>
      rcases induction with ⟨parts, whole, same, closed⟩
      rcases exists_definition isHeader rest with ⟨definition, lines, isOf, body, ends⟩
      -- The next part begins behind all lines of this one.
      have length : 1 + (rest.length - after.length) = definition.lines.length := by
        have total := congrArg List.length lines
        rw [List.length_cons, List.length_append] at total
        have own : 0 < definition.lines.length := Nat.zero_lt_succ _
        change rest.length + 1 = definition.lines.length + after.length at total
        omega
      refine ⟨.function definition :: parts, ?_, ?_, fun front other back split => ?_⟩
      · rw [List.flatMap_cons, whole]
        exact lines.symm
      · rw [segmentsFrom, isHeader, Part.segmentsFrom, Part.segment, isOf, body, Part.lines,
          ← length, ← Nat.add_assoc]
        exact congrArg (List.cons _) same
      · cases front with
        | nil =>
            cases split
            rwa [whole]
        | cons first front =>
            cases split
            exact closed front other back rfl

/-- The lines of a text divide into parts, which are its segments, each function as long as it can
be. So no line but blank ones behind a body is left out, and none comes twice or out of place. -/
theorem exists_division (lines : List (List Char)) :
    ∃ parts : List Part, parts.flatMap Part.lines = lines ∧
      segments lines = Part.segmentsFrom 0 parts ∧
      mainFlow (segments lines) = parts.filterMap Part.plain? ∧
      (∀ front definition back, parts = front ++ .function definition :: back →
        definition.Closed (back.flatMap Part.lines)) ∧
      lines.filter (!isAllBlank ·) = (parts.flatMap Part.kept).filter (!isAllBlank ·) := by
  rcases exists_parts 0 lines with ⟨parts, whole, same, closed⟩
  refine ⟨parts, whole, same, ?_, closed, ?_⟩
  · rw [segments, same, mainFlow_segmentsFrom]
  · rw [← whole, List.filter_flatMap, List.filter_flatMap]
    simp only [filter_kept]

end Flowchart.Procedure
