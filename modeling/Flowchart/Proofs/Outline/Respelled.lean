import Flowchart.Proofs.Block.ElseIf
import Flowchart.Proofs.Graph.Wording
import Flowchart.Proofs.Outline.Enclosing
import Mathlib.Data.List.Forall2

/-!
Other spellings of an else-if.

Another spelling leaves the kinds and the widths of all lines as they are. It may turn a branch line
into one that opens a level of its own, or the other way round. Levels are then the same just if
each such line stands at the margin or is as wide as the line that encloses it, and rows on the same
levels have the same edges.
-/

namespace Flowchart.Outline

open Text

inductive Respelled : List Char → List Char → Prop
  | same (line : List Char) : Respelled line line
  | keyword {lead keyword other rest : List Char} (blank : isAllBlank lead = true)
      (spelled : IsElseIfWord keyword) (spelledToo : IsElseIfWord other)
      (isElseIf : Block.Kind.ofLine (content (lead ++ (keyword ++ rest))) = .elseIf) :
      Respelled (lead ++ (keyword ++ rest)) (lead ++ (other ++ rest))

inductive Alike : Nat × List Char → Nat × List Char → Prop
  | same (view : Nat × List Char) : Alike view view
  | elseIf {width : Nat} {text other : List Char} (isElseIf : Block.Kind.ofLine text = .elseIf)
      (isElseIfToo : Block.Kind.ofLine other = .elseIf) : Alike (width, text) (width, other)

/-! ## Lines as they are seen -/

theorem Respelled.alike {line other : List Char} (respelled : Respelled line other) :
    Option.Rel Alike (seen? indentation line) (seen? indentation other) := by
  cases respelled with
  | same line =>
      cases seen? indentation line with
      | none => exact .none
      | some view => exact .some (.same view)
  | @keyword lead keyword other rest blank spelled spelledToo isElseIf =>
      have blank : ∀ c ∈ lead, isBlank c = true := List.all_eq_true.mp blank
      obtain ⟨tail, behind⟩ := IsElseIfWord.exists_content_append rest
      have text : content (lead ++ (keyword ++ rest)) = keyword ++ tail := by
        rw [content_append_of_isBlank blank, behind keyword spelled]
      have textToo : content (lead ++ (other ++ rest)) = other ++ tail := by
        rw [content_append_of_isBlank blank, behind other spelledToo]
      have trimmed := trimmed_content (lead ++ (keyword ++ rest))
      have trimmedToo := trimmed_content (lead ++ (other ++ rest))
      rw [text] at trimmed isElseIf
      rw [textToo] at trimmedToo
      have isElseIfToo := (spelled.ofLine_respelled spelledToo trimmed trimmedToo).mpr isElseIf
      obtain ⟨first, more, begins, _⟩ := spelled.exists_first
      obtain ⟨firstToo, moreToo, beginsToo, _⟩ := spelledToo.exists_first
      have some : (keyword ++ tail).isEmpty = false := by rw [begins]; rfl
      have someToo : (other ++ tail).isEmpty = false := by rw [beginsToo]; rfl
      rw [seen?, seen?, text, textToo, some, someToo, spelled.indentation_append,
        spelledToo.indentation_append]
      exact .some (.elseIf isElseIf isElseIfToo)

theorem forall₂_alike_seen {rows others : List (List Char)}
    (respelled : List.Forall₂ Respelled rows others) :
    List.Forall₂ Alike (seen indentation rows) (seen indentation others) := by
  apply List.rel_filterMap _ respelled
  intro line other
  exact Respelled.alike

section

variable {views others : List (Nat × List Char)} (alike : List.Forall₂ Alike views others)

include alike

theorem map_width_of_alike : others.map Prod.fst = views.map Prod.fst := by
  induction alike with
  | nil => rfl
  | cons first _ induction =>
      rw [List.map_cons, List.map_cons, induction]
      cases first <;> rfl

theorem widthAt_of_alike (index : Nat) : widthAt others index = widthAt views index := by
  rw [widthAt, widthAt, ← List.getElem?_map, ← List.getElem?_map, map_width_of_alike alike]

theorem map_kind_blocksOf_of_alike (ladder ladderToo : Ladder) :
    (blocksOf ladderToo others).map Block.kind = (blocksOf ladder views).map Block.kind := by
  induction alike generalizing ladder ladderToo with
  | nil => rfl
  | cons first _ induction =>
      rw [blocksOf, blocksOf, List.map_cons, List.map_cons, induction]
      cases first with
      | same view => rfl
      | elseIf isElseIf isElseIfToo => rw [block, block, isElseIf, isElseIfToo]

theorem map_erased_blocksOf_of_alike {ladder ladderToo : Ladder}
    (levels : (blocksOf ladderToo others).map Block.level =
      (blocksOf ladder views).map Block.level) :
    (blocksOf ladderToo others).map Block.erased = (blocksOf ladder views).map Block.erased := by
  induction alike generalizing ladder ladderToo with
  | nil => rfl
  | cons first _ induction =>
      rw [blocksOf, blocksOf, List.map_cons, List.map_cons] at levels ⊢
      obtain ⟨level, later⟩ := List.cons.inj levels
      rw [induction later]
      have level : ((ladderToo.place _ _).top.level : Int) = (ladder.place _ _).top.level := level
      cases first with
      | same view => rw [block, block, level]
      | elseIf isElseIf isElseIfToo =>
          rw [Block.erased, Block.erased, block, block, if_pos isElseIf, if_pos isElseIfToo, level]

end

/-! ## Levels -/

/-- Whether a line stands at the margin or is as wide as the line that encloses it. -/
def IsFlush (views : List (Nat × List Char)) (index : Nat) : Prop :=
  widthAt views index = 0 ∨
    ∃ outer, Encloses views outer index ∧ widthAt views outer = widthAt views index

theorem isFlush_iff_of_encloses {views : List (Nat × List Char)} {outer index : Nat}
    (encloses : Encloses views outer index) :
    IsFlush views index ↔ widthAt views outer = widthAt views index := by
  constructor
  · rintro (margin | ⟨other, otherEncloses, same⟩)
    · have within := encloses.noWider
      omega
    · rwa [encloses.unique otherEncloses] at same
  · intro same
    exact .inr ⟨outer, encloses, same⟩

theorem isFlush_iff_of_isOutermost {views : List (Nat × List Char)} {index : Nat}
    (outermost : IsOutermost views index) : IsFlush views index ↔ 0 = widthAt views index := by
  constructor
  · rintro (margin | ⟨outer, encloses, _⟩)
    · exact margin.symm
    · exact absurd encloses.noWider (Nat.not_le.mpr (outermost outer encloses.before))
  · intro margin
    exact .inl margin.symm

/-- A branch line stands on another level than a line that is none, unless it is as wide as what
encloses it. -/
theorem levelBelow_eq_iff {outerWidth width : Nat} {outerLevel : Int} {branch other : Bool} :
    levelBelow outerWidth outerLevel width other = levelBelow outerWidth outerLevel width branch ↔
      (other ≠ branch → outerWidth = width) := by
  rw [levelBelow, levelBelow]
  by_cases same : outerWidth = width
  · simp [same]
  · cases branch <;> cases other <;> simp [same]

theorem length_blocksOf (ladder : Ladder) (views : List (Nat × List Char)) :
    (blocksOf ladder views).length = views.length := by
  have same := congrArg List.length (map_content_blocksOf ladder views)
  rwa [List.length_map, List.length_map] at same

theorem map_level_eq (blocks : List Block) :
    blocks.map Block.level = (List.range blocks.length).map (levelAt blocks) := by
  apply List.ext_getElem
  · rw [List.length_map, List.length_map, List.length_range]
  · intro index inside _
    rw [List.length_map] at inside
    rw [List.getElem_map, List.getElem_map, List.getElem_range,
      levelAt_eq (List.getElem?_eq_getElem inside)]

section

variable {views others : List (Nat × List Char)} (alike : List.Forall₂ Alike views others)
  {index : Nat}

include alike

theorem encloses_iff_of_alike (outer : Nat) :
    Encloses others outer index ↔ Encloses views outer index := by
  constructor
  · rintro ⟨before, noWider, last⟩
    simp only [widthAt_of_alike alike] at noWider last
    exact ⟨before, noWider, last⟩
  · rintro ⟨before, noWider, last⟩
    simp only [← widthAt_of_alike alike] at noWider last
    exact ⟨before, noWider, last⟩

theorem isOutermost_iff_of_alike : IsOutermost others index ↔ IsOutermost views index := by
  simp only [IsOutermost, widthAt_of_alike alike]

/-- Where all lines before a line are on the same levels, it is on the same level just if it stays a
branch line, or stays none, or is flush. -/
theorem levelAt_eq_iff_of_alike (inside : index < views.length)
    (before : ∀ outer < index,
      levelAt (blocksOf [] others) outer = levelAt (blocksOf [] views) outer) :
    levelAt (blocksOf [] others) index = levelAt (blocksOf [] views) index ↔
      (branchAt others index ≠ branchAt views index → IsFlush views index) := by
  have insideToo : index < others.length := alike.length_eq ▸ inside
  rcases exists_encloses_or_isOutermost (Nat.le_of_lt inside) with ⟨outer, encloses⟩ | outermost
  · have enclosesToo := (encloses_iff_of_alike alike outer).mpr encloses
    rw [levelAt_of_encloses inside encloses, levelAt_of_encloses insideToo enclosesToo,
      widthAt_of_alike alike, widthAt_of_alike alike, before outer encloses.before,
      levelBelow_eq_iff, isFlush_iff_of_encloses encloses]
  · have outermostToo := (isOutermost_iff_of_alike alike).mpr outermost
    rw [levelAt_of_isOutermost inside outermost, levelAt_of_isOutermost insideToo outermostToo,
      widthAt_of_alike alike, levelBelow_eq_iff, isFlush_iff_of_isOutermost outermost]

theorem levels_eq_iff_of_alike :
    (blocksOf [] others).map Block.level = (blocksOf [] views).map Block.level ↔
      ∀ index < views.length, branchAt others index ≠ branchAt views index →
        IsFlush views index := by
  constructor
  · intro same index inside
    have everywhere (place : Nat) :
        levelAt (blocksOf [] others) place = levelAt (blocksOf [] views) place := by
      rw [levelAt, levelAt, ← List.getElem?_map, ← List.getElem?_map, same]
    exact (levelAt_eq_iff_of_alike alike inside fun outer _ => everywhere outer).mp
      (everywhere index)
  · intro flush
    have everywhere (index : Nat) (inside : index < views.length) :
        levelAt (blocksOf [] others) index = levelAt (blocksOf [] views) index := by
      induction index using Nat.strongRecOn with
      | ind index induction =>
          apply (levelAt_eq_iff_of_alike alike inside _).mpr (flush index inside)
          exact fun outer before => induction outer before (Nat.lt_trans before inside)
    rw [map_level_eq, map_level_eq, length_blocksOf, length_blocksOf, ← alike.length_eq]
    apply List.map_congr_left
    intro index member
    exact everywhere index (List.mem_range.mp member)

end

/-- Another spelling of an else-if changes no kind of a block. It changes no level just if every
line that becomes a branch line, or is one no longer, is flush. Then it changes no edge of the
completed row. -/
theorem outline_respelled {text other : List Char}
    (respelled : List.Forall₂ Respelled (lines text) (lines other)) :
    let views := seen indentation (lines text)
    let others := seen indentation (lines other)
    (outline other).map Block.kind = (outline text).map Block.kind ∧
      ((outline other).map Block.level = (outline text).map Block.level ↔
        ∀ index < views.length,
          branchAt others index ≠ branchAt views index → IsFlush views index) ∧
      ((outline other).map Block.level = (outline text).map Block.level → ∀ functionName,
        (Graph.ofBlocks (completeConditionals (outline other)) functionName).edges =
          (Graph.ofBlocks (completeConditionals (outline text)) functionName).edges) := by
  have alike := forall₂_alike_seen respelled
  intro views others
  rw [outline, outline, blocksFrom_eq, blocksFrom_eq]
  refine ⟨map_kind_blocksOf_of_alike alike [] [], levels_eq_iff_of_alike alike, ?_⟩
  intro levels functionName
  rw [← Graph.edges_erased, ← completeConditionals_erased,
    map_erased_blocksOf_of_alike alike levels, completeConditionals_erased, Graph.edges_erased]

theorem outline_respelled_atMargin :
    List.Forall₂ Respelled (lines "If a\nElse if b\nEnd if".toList)
        (lines "If a\nELIF b\nEnd if".toList) ∧
      (outline "If a\nELIF b\nEnd if".toList).map Block.level =
        (outline "If a\nElse if b\nEnd if".toList).map Block.level ∧
      (Graph.ofBlocks (completeConditionals (outline "If a\nELIF b\nEnd if".toList)) none).edges =
        (Graph.ofBlocks (completeConditionals (outline "If a\nElse if b\nEnd if".toList))
          none).edges := by
  have isElse : Spells "else" "Else".toList := ⟨by decide, by decide⟩
  have isIf : Spells "if" "if".toList := ⟨by decide, by decide⟩
  have isElif : Spells "elif" "ELIF".toList := ⟨by decide, by decide⟩
  have middle : Respelled "Else if b".toList "ELIF b".toList :=
    @Respelled.keyword [] ("Else".toList ++ (" ".toList ++ "if".toList)) "ELIF".toList
      " b".toList rfl (.two isElse rfl isIf) (.one isElif) (by decide)
  have respelled : List.Forall₂ Respelled (lines "If a\nElse if b\nEnd if".toList)
      (lines "If a\nELIF b\nEnd if".toList) :=
    .cons (.same "If a".toList) (.cons middle (.cons (.same "End if".toList) .nil))
  obtain ⟨_, levels, edges⟩ := outline_respelled respelled
  have same := levels.mpr fun index inside _ => by
    have margin :
        ∀ view ∈ seen indentation (lines "If a\nElse if b\nEnd if".toList), view.1 = 0 := by
      decide
    refine .inl ?_
    rw [widthAt, List.getElem?_eq_getElem inside]
    exact margin _ (List.getElem_mem inside)
  exact ⟨respelled, same, edges same none⟩

/-- Drawn together further in, they open a level, and the conditional has no branch. -/
theorem exists_respelled_otherwise : ¬∀ text other : List Char,
    List.Forall₂ Respelled (lines text) (lines other) →
      (outline other).map Block.kind = (outline text).map Block.kind ∧
        (outline other).map Block.level = (outline text).map Block.level ∧
        (Graph.ofBlocks (completeConditionals (outline other))).edges =
          (Graph.ofBlocks (completeConditionals (outline text))).edges := by
  intro always
  have isElse : Spells "else" "Else".toList := ⟨by decide, by decide⟩
  have isIf : Spells "if" "if".toList := ⟨by decide, by decide⟩
  have isElif : Spells "elif" "Elif".toList := ⟨by decide, by decide⟩
  have middle : Respelled "    Else if b".toList "    Elif b".toList :=
    @Respelled.keyword "    ".toList ("Else".toList ++ (" ".toList ++ "if".toList)) "Elif".toList
      " b".toList rfl (.two isElse rfl isIf) (.one isElif) (by decide)
  have same := always "If a\n    Else if b\nOutput z".toList "If a\n    Elif b\nOutput z".toList
    (.cons (.same "If a".toList) (.cons middle (.cons (.same "Output z".toList) .nil)))
  have levels : (outline "If a\n    Else if b\nOutput z".toList).map Block.level = [0, 0, 0] := by
    decide
  have levelsThen : (outline "If a\n    Elif b\nOutput z".toList).map Block.level = [0, 1, 0] := by
    decide
  rw [levels, levelsThen] at same
  exact absurd same.2.1 (by decide)

end Flowchart.Outline
