import Flowchart.Proofs.Block.Keyword
import Flowchart.Proofs.Text.Spelled

/-!
The spellings of an else-if.

An else-if is written in one word or in two, with any white space between them and letters in either
case. What follows the keyword decides whether the line is an else-if, whichever spelling stands
before it. Only the spelling in two words with white space between them begins with a word that
branch lines begin with.
-/

namespace Flowchart

open Text

/-! ## Spellings -/

inductive IsElseIfWord : List Char → Prop
  | two {first gap second : List Char} (isElse : Spells "else" first)
      (blank : isAllBlank gap = true)
      (isIf : Spells "if" second) : IsElseIfWord (first ++ (gap ++ second))
  | one {word : List Char} (isElif : Spells "elif" word) : IsElseIfWord word

namespace IsElseIfWord

variable {keyword : List Char}

theorem exists_first (spelled : IsElseIfWord keyword) :
    ∃ c rest, keyword = c :: rest ∧ IsBasicLetter c := by
  cases spelled with
  | two isElse blank isIf =>
      obtain ⟨c, rest, rfl, basic⟩ := isElse.exists_first (by decide)
      exact ⟨c, _, rfl, basic⟩
  | one isElif => exact isElif.exists_first (by decide)

theorem exists_last (spelled : IsElseIfWord keyword) :
    ∃ front c, keyword = front ++ [c] ∧ IsBasicLetter c := by
  cases spelled with
  | @two first gap second isElse blank isIf =>
      obtain ⟨front, c, rfl, basic⟩ := isIf.exists_last (by decide)
      exact ⟨first ++ (gap ++ front), c, by simp only [List.append_assoc], basic⟩
  | one isElif => exact isElif.exists_last (by decide)

/-! ### The line around a keyword -/

theorem trim_append (spelled : IsElseIfWord keyword) (rest : List Char) :
    trim (keyword ++ rest) = keyword ++ trimEnd rest := by
  obtain ⟨front, last, split, basic⟩ := spelled.exists_last
  obtain ⟨first, behind, begins, solid⟩ := spelled.exists_first
  have start : trimStart (keyword ++ rest) = keyword ++ rest := by
    rw [begins, List.cons_append, trimStart,
      List.dropWhile_cons_of_neg (by simp [solid.notBlank])]
  rw [trim, start, split, trimEnd_append_of_last basic.notBlank]

theorem isTerminated_append (spelled : IsElseIfWord keyword) (rest : List Char) :
    isTerminated (keyword ++ rest) = isTerminated rest := by
  obtain ⟨front, last, rfl, basic⟩ := spelled.exists_last
  rw [isTerminated, isTerminated, trimEnd_append_of_last basic.notBlank, Bool.eq_iff_iff,
    List.isSuffixOf_iff_suffix, List.isSuffixOf_iff_suffix]
  constructor
  · intro ends
    have within : trimEnd rest <:+ (front ++ [last]) ++ trimEnd rest := List.suffix_append _ _
    rcases Nat.lt_or_ge (trimEnd rest).length doubleColon.length with short | long
    · -- The colons would take in the last letter of the keyword.
      have behind : last :: trimEnd rest <:+ (front ++ [last]) ++ trimEnd rest := by
        rw [List.append_assoc]
        exact List.suffix_append _ _
      have colon := (List.suffix_of_suffix_length_le behind ends short).subset List.mem_cons_self
      exact absurd (by simpa [doubleColon] using colon) basic.notColon
    · exact List.suffix_of_suffix_length_le ends within long
  · intro ends
    exact ends.trans (List.suffix_append _ _)

open Outline in
theorem exists_content_append (rest : List Char) :
    ∃ tail, ∀ keyword, IsElseIfWord keyword → content (keyword ++ rest) = keyword ++ tail := by
  cases ends : isTerminated rest with
  | false =>
      refine ⟨trimEnd rest, fun keyword spelled => ?_⟩
      rw [content_of_not_isTerminated (spelled.isTerminated_append rest ▸ ends),
        spelled.trim_append]
  | true =>
      obtain ⟨front, split⟩ := List.isSuffixOf_iff_suffix.mp ends
      refine ⟨trimEnd front, fun keyword spelled => ?_⟩
      obtain ⟨before, last, isKeyword, basic⟩ := spelled.exists_last
      have whole : trim (keyword ++ rest) = (keyword ++ front) ++ doubleColon := by
        rw [spelled.trim_append, ← split, List.append_assoc]
      rw [content_of_trim whole, isKeyword, trimEnd_append_of_last basic.notBlank]

open Outline in
theorem indentation_append (spelled : IsElseIfWord keyword) (lead rest : List Char) :
    indentation (lead ++ (keyword ++ rest)) = indentation lead := by
  obtain ⟨c, behind, rfl, basic⟩ := spelled.exists_first
  have notIndent : isIndent c = false := by
    cases indents : isIndent c with
    | false => rfl
    | true =>
        have blank := isBlank_of_isIndent indents
        rw [basic.notBlank] at blank
        cases blank
  rw [indentation, indentation, List.takeWhile_append, List.cons_append,
    List.takeWhile_cons_of_neg (by simp [notIndent]), List.append_nil]
  split
  · rename_i whole
    rw [(List.takeWhile_prefix isIndent).eq_of_length whole]
  · rfl

end IsElseIfWord

/-! ## Kinds -/

namespace Text.Phrase

theorem fit?_edge {view : Char → Char} {before : List Char} (word : before.head?.any isWord = true)
    (tail : List Char) :
    (fit? view [.edge] ⟨before, tail⟩).isSome = !tail.head?.any isWord := by
  have atEdge : Place.atEdge ⟨before, tail⟩ = !tail.head?.any isWord := by
    rw [Place.atEdge, word]
    cases tail.head?.any isWord <;> rfl
  rw [fit?_cons, Piece.fit?, atEdge]
  cases tail.head?.any isWord <;> rfl

theorem fit?_text {view : Char → Char} {word front : List Char} {letters : String}
    (viewed : front.map view = letters.toList) (pieces : Phrase) (rest : List Char) :
    fit? view (.text letters :: pieces) ⟨word, front ++ rest⟩ =
      fit? view pieces ⟨front.reverse ++ word, rest⟩ := by
  rw [fit?_cons, Piece.fit?, ← viewed, take?_append, Option.bind_some]

theorem begins_else_if {gap : List Char} (blank : isAllBlank gap = true) (tail : List Char) :
    begins id [.text "else", .gap, .text "if", .edge]
        ("else".toList ++ (gap ++ ("if".toList ++ tail))) =
      !tail.head?.any isWord := by
  have each : ∀ c ∈ gap, isBlank c = true := List.all_eq_true.mp blank
  have skipped : fit? id [.gap, .text "if", .edge]
      ⟨"else".toList.reverse ++ [], gap ++ ("if".toList ++ tail)⟩ =
      fit? id [.text "if", .edge]
        ⟨gap.reverse ++ ("else".toList.reverse ++ []), "if".toList ++ tail⟩ := by
    rw [fit?_cons, Piece.fit?, Option.bind_some, Place.skip, List.takeWhile_append_of_pos each,
      List.dropWhile_append_of_pos each]
    have none : ("if".toList ++ tail).takeWhile isBlank = [] := rfl
    have all : ("if".toList ++ tail).dropWhile isBlank = "if".toList ++ tail := rfl
    rw [none, all, List.append_nil]
  rw [begins, Place.start, fit?_text (List.map_id _), skipped, fit?_text (List.map_id _)]
  exact fit?_edge rfl tail

end Text.Phrase

namespace Block.Kind

def elseIfPhrases : List Phrase :=
  [[.text "else", .gap, .text "if", .edge], [.text "elif", .edge]]

theorem keywords_eq :
    keywords = keywords.take 3 ++ (.elseIf, elseIfPhrases) :: keywords.drop 4 :=
  rfl

theorem initials_of_elseIfPhrases :
    ∀ phrase ∈ elseIfPhrases, phrase.firstLetters.take 2 = ['e', 'l'] := by
  decide

theorem initials_of_earlier : ∀ row ∈ keywords.take 3, ∀ phrase ∈ row.2,
    (phrase.firstLetters.take 2).length = 2 ∧ phrase.firstLetters.take 2 ≠ ['e', 'l'] := by
  decide

/-- A line is an else-if just if it begins with one of the keywords. No keyword that is tried
earlier has the same first two letters. -/
theorem ofLine_eq_elseIf_iff {line : List Char} :
    ofLine line = .elseIf ↔ Phrase.anyBegins id elseIfPhrases (lower (trim line)) = true := by
  constructor
  · intro isElseIf
    obtain ⟨phrases, row, phrase, member, begins⟩ := exists_keyword isElseIf (by decide)
    have known : phrases = elseIfPhrases := by
      simpa [keywords, elseIfPhrases] using row
    rw [Phrase.anyBegins, List.any_eq_true]
    exact ⟨phrase, known ▸ member, begins⟩
  · intro begins
    obtain ⟨own, inOwn, ownBegins⟩ := List.any_eq_true.mp begins
    have earlier : ∀ row ∈ keywords.take 3,
        ¬Phrase.anyBegins id row.2 (lower (trim line)) = true := by
      intro row inEarlier other
      obtain ⟨phrase, inRow, phraseBegins⟩ := List.any_eq_true.mp other
      obtain ⟨two, different⟩ := initials_of_earlier row inEarlier phrase inRow
      have first := (List.take_prefix 2 _).trans (Phrase.firstLetters_prefix ownBegins)
      have second := (List.take_prefix 2 _).trans (Phrase.firstLetters_prefix phraseBegins)
      rw [initials_of_elseIfPhrases own inOwn] at first
      have within := List.prefix_of_prefix_length_le second first (Nat.le_of_eq two)
      exact different (within.eq_of_length two)
    have found : keywords.find? (fun row => Phrase.anyBegins id row.2 (lower (trim line))) =
        some (.elseIf, elseIfPhrases) := by
      rw [keywords_eq, List.find?_append, List.find?_eq_none.mpr earlier, Option.none_or]
      exact List.find?_cons_of_pos begins
    simp only [ofLine, found]

end Block.Kind

namespace IsElseIfWord

variable {keyword other rest : List Char}

theorem isSteady_of_mem (spelled : IsElseIfWord keyword) : ∀ c ∈ keyword, IsSteady c := by
  have ofLetters {word : String} {text : List Char} (spells : Spells word text) :
      ∀ c ∈ text, IsSteady c := fun c member =>
    isSteady_of_ascii (spells.isBasicLetter c member).ascii
  cases spelled with
  | two isElse blank isIf =>
      intro c member
      rcases List.mem_append.mp member with inFirst | behind
      · exact ofLetters isElse c inFirst
      rcases List.mem_append.mp behind with inGap | inSecond
      · exact isSteady_of_isBlank (List.all_eq_true.mp blank c inGap)
      · exact ofLetters isIf c inSecond
  | one isElif => exact ofLetters isElif

theorem anyBegins_lower (spelled : IsElseIfWord keyword) (rest : List Char) :
    Phrase.anyBegins id Block.Kind.elseIfPhrases (lower (keyword ++ rest)) =
      !(lowerAfter [] rest).head?.any isWord := by
  rw [lower, lowerAfter_append spelled.isSteady_of_mem,
    isWord_head_lowerAfter_eq [] (keyword.reverse ++ [])]
  cases spelled with
  | @two first gap second isElse blank isIf =>
      have same : gap.map lowerChar = gap := by
        have each : ∀ c ∈ gap, lowerChar c = id c := fun c member =>
          lowerChar_of_isBlank (List.all_eq_true.mp blank c member)
        rw [List.map_congr_left each, List.map_id]
      rw [List.map_append, List.map_append, isElse.map_lowerChar, isIf.map_lowerChar, same,
        List.append_assoc, List.append_assoc, Block.Kind.elseIfPhrases, Phrase.anyBegins,
        List.any_cons, List.any_cons, Phrase.begins_else_if blank]
      generalize lowerAfter _ rest = tail
      exact Bool.or_false _
  | one isElif =>
      rw [isElif.map_lowerChar, Block.Kind.elseIfPhrases, Phrase.anyBegins, List.any_cons,
        List.any_cons, List.any_nil, Bool.or_false, Phrase.begins, Phrase.begins, Place.start]
      generalize lowerAfter _ rest = tail
      rw [Phrase.fit?_text (List.map_id _), Phrase.fit?_edge rfl]
      exact Bool.false_or _

theorem ofLine_append (spelled : IsElseIfWord keyword) (trimmed : Trimmed (keyword ++ rest)) :
    Block.Kind.ofLine (keyword ++ rest) = .elseIf ↔
      (lowerAfter [] rest).head?.any isWord = false := by
  rw [Block.Kind.ofLine_eq_elseIf_iff, trimmed.trim_eq, spelled.anyBegins_lower,
    Bool.not_eq_true']

theorem ofLine_respelled (spelled : IsElseIfWord keyword) (spelledToo : IsElseIfWord other)
    (trimmed : Trimmed (keyword ++ rest)) (trimmedToo : Trimmed (other ++ rest)) :
    Block.Kind.ofLine (other ++ rest) = .elseIf ↔
      Block.Kind.ofLine (keyword ++ rest) = .elseIf := by
  rw [spelled.ofLine_append trimmed, spelledToo.ofLine_append trimmedToo]

/-! ### Branch lines -/

theorem initials_append (spelled : IsElseIfWord keyword) (rest : List Char) :
    initials (keyword ++ rest) = ['e', 'l'] := by
  apply initials_of_prefix rfl
  cases spelled with
  | two isElse blank isIf =>
      rw [List.append_assoc, List.map_append, isElse.map_fold]
      exact ⟨'s' :: 'e' :: _, rfl⟩
  | one isElif =>
      rw [List.map_append, isElif.map_fold]
      exact ⟨'i' :: 'f' :: _, rfl⟩

theorem isBranchLine_eq (spelled : IsElseIfWord keyword) (rest : List Char) :
    isBranchLine (keyword ++ rest) =
      Phrase.begins fold [.text "else", .edge] (keyword ++ rest) := by
  have other (word : String) (two : (word.toList.take 2).length = 2)
      (different : word.toList.take 2 ≠ ['e', 'l']) :
      Phrase.begins fold [.text word, .edge] (keyword ++ rest) = false := by
    cases begins : Phrase.begins fold [.text word, .edge] (keyword ++ rest) with
    | false => rfl
    | true =>
        have same : initials (keyword ++ rest) = word.toList.take 2 :=
          @initials_of_begins [.text word, .edge] _ two begins
        rw [spelled.initials_append] at same
        exact absurd same.symm different
  rw [isBranchLine, Phrase.anyBegins, branchPhrases, List.any_cons, List.any_cons, List.any_cons,
    other "case" rfl (by decide), other "default" rfl (by decide), List.any_nil, Bool.or_false,
    Bool.or_false, Bool.or_false]

/-- The line of an else-if is a branch line just if there is white space in its keyword. -/
theorem isBranchLine_append (spelled : IsElseIfWord keyword) (rest : List Char) :
    isBranchLine (keyword ++ rest) = keyword.any isBlank := by
  rw [spelled.isBranchLine_eq rest]
  cases spelled with
  | @two first gap second isElse blank isIf =>
      obtain ⟨front, last, isFirst, basic⟩ := isElse.exists_last (by decide)
      obtain ⟨c, behind, isSecond, basicToo⟩ := isIf.exists_first (by decide)
      have word : (first.reverse ++ []).head?.any isWord = true := by
        rw [isFirst, List.reverse_append, List.append_nil]
        exact basic.word
      rw [Phrase.begins, Place.start, List.append_assoc, Phrase.fit?_text isElse.map_fold,
        Phrase.fit?_edge word, List.any_append, List.any_append, isElse.any_isBlank,
        isIf.any_isBlank, Bool.false_or, Bool.or_false]
      cases gap with
      | nil =>
          rw [isSecond]
          simp [basicToo.word]
      | cons d gap =>
          have isGap := List.all_eq_true.mp blank d List.mem_cons_self
          simp [isGap, isWord_of_isBlank isGap]
  | one isElif =>
      rw [isElif.any_isBlank]
      cases begins : Phrase.begins fold [.text "else", .edge] (keyword ++ rest) with
      | false => rfl
      | true =>
          have begun := Phrase.prefix_of_begins begins
          rw [List.map_append, isElif.map_fold] at begun
          obtain ⟨behind, same⟩ := begun
          cases same

end IsElseIfWord

/-! ## The keyword of an else-if -/

theorem Text.Phrase.exists_of_begins_else_if {small : List Char}
    (begins : begins id [.text "else", .gap, .text "if", .edge] small = true) :
    ∃ gap tail, isAllBlank gap = true ∧
      small = ("else".toList ++ (gap ++ "if".toList)) ++ tail := by
  obtain ⟨front, rest, rfl, isElse, _⟩ := exists_of_begins begins
  have behind := prefix_behind_gap begins
  rw [List.map_id] at isElse behind
  subst isElse
  rw [List.drop_left] at behind
  obtain ⟨tail, split⟩ := behind
  refine ⟨rest.takeWhile isBlank, tail, List.all_takeWhile, ?_⟩
  rw [List.append_assoc, List.append_assoc, split, List.takeWhile_append_dropWhile]

theorem exists_isElseIfWord {line : List Char} (trimmed : Trimmed line)
    (isElseIf : Block.Kind.ofLine line = .elseIf) :
    ∃ keyword rest, line = keyword ++ rest ∧ IsElseIfWord keyword := by
  rw [Block.Kind.ofLine_eq_elseIf_iff, trimmed.trim_eq, Phrase.anyBegins,
    Block.Kind.elseIfPhrases, List.any_cons, List.any_cons, List.any_nil, Bool.or_false,
    Bool.or_eq_true] at isElseIf
  have ordinary : ∀ small ∈ smallLetters, IsOrdinary small := by
    intro small member
    simp only [smallLetters, List.mem_cons, List.not_mem_nil, or_false] at member
    rcases member with rfl | rfl | rfl | rfl | rfl <;> exact ⟨by decide, by decide, by decide⟩
  have isElse : "else".toList ⊆ smallLetters := by decide
  have isIf : "if".toList ⊆ smallLetters := by decide
  have isElif : "elif".toList ⊆ smallLetters := by decide
  rcases isElseIf with two | one
  · obtain ⟨gap, tail, blank, split⟩ := Phrase.exists_of_begins_else_if two
    have rowOrdinary : ∀ small ∈ "else".toList ++ (gap ++ "if".toList), IsOrdinary small := by
      intro small member
      rcases List.mem_append.mp member with inElse | behind
      · exact ordinary small (isElse inElse)
      rcases List.mem_append.mp behind with inGap | inIf
      · exact isOrdinary_of_isBlank (List.all_eq_true.mp blank small inGap)
      · exact ordinary small (isIf inIf)
    have noLast : ("else".toList ++ (gap ++ "if".toList)).getLast? ≠ some 'i' := by
      rw [← List.append_assoc, List.getLast?_append]
      exact fun same => absurd (Option.some.inj same) (by decide : 'f' ≠ 'i')
    obtain ⟨keyword, rest, rfl, noneDotted, lowered⟩ :=
      exists_of_lowerAfter_row rowOrdinary noLast split
    obtain ⟨first, behind, rfl, firstLowered, behindLowered⟩ := List.map_eq_append_iff.mp lowered
    obtain ⟨middle, second, rfl, middleLowered, secondLowered⟩ :=
      List.map_eq_append_iff.mp behindLowered
    have isGap := eq_of_map_lowerChar_of_isAllBlank blank middleLowered
    subst isGap
    refine ⟨_, rest, rfl, .two (spells_of_map_lowerChar isElse ?_ firstLowered) blank
      (spells_of_map_lowerChar isIf ?_ secondLowered)⟩
    · exact fun c member => noneDotted c (List.mem_append_left _ member)
    · exact fun c member => noneDotted c (List.mem_append_right _ (List.mem_append_right _ member))
  · obtain ⟨small, tail, split, isWord, _⟩ := Phrase.exists_of_begins one
    rw [List.map_id] at isWord
    subst isWord
    obtain ⟨keyword, rest, rfl, noneDotted, lowered⟩ :=
      exists_of_lowerAfter_row (fun small member => ordinary small (isElif member)) (by decide)
        split
    exact ⟨keyword, rest, rfl, .one (spells_of_map_lowerChar isElif noneDotted lowered)⟩

end Flowchart
