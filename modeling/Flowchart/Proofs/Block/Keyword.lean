import Flowchart.Block.Keyword
import Flowchart.Proofs.Text.LetterCase
import Flowchart.Proofs.Text.Lines

/-!
Which shapes of lines exclude each other.

The kind of a line is read in lower case, but branch lines and end markers are read without regard
to case, so that a line of one kind may look like a branch line of another one. The lines that open
loops and switches never do: the first two letters tell them apart in both readings.
-/

namespace Flowchart

open Text

/-! ## First letters -/

namespace Text

def Phrase.firstLetters : Phrase → List Char
  | .text letters :: _ => letters.toList
  | _ => []

def initials (text : List Char) : List Char := (text.map fold).take 2

variable {phrase : Phrase} {text : List Char}

theorem Phrase.firstLetters_prefix {view : Char → Char} (begins : phrase.begins view text = true) :
    phrase.firstLetters <+: text.map view := by
  rw [Phrase.firstLetters.eq_def]
  split
  · exact prefix_of_begins begins
  · exact List.nil_prefix

theorem initials_of_prefix {letters : List Char} (two : letters.length = 2)
    (begins : letters <+: text.map fold) : initials text = letters := by
  rw [initials, ← two, ← List.prefix_iff_eq_take.mp begins]

theorem initials_of_begins (two : (phrase.firstLetters.take 2).length = 2)
    (begins : phrase.begins fold text = true) : initials text = phrase.firstLetters.take 2 :=
  initials_of_prefix two ((List.take_prefix 2 _).trans (Phrase.firstLetters_prefix begins))

theorem initials_of_begins_lower (two : (phrase.firstLetters.take 2).length = 2)
    (plain : PlainLetters (phrase.firstLetters.take 2))
    (begins : phrase.begins id (lower text) = true) :
    initials text = phrase.firstLetters.take 2 := by
  have letters := Phrase.firstLetters_prefix begins
  rw [List.map_id] at letters
  exact initials_of_prefix two
    (prefix_fold_of_prefix_lower plain ((List.take_prefix 2 _).trans letters))

end Text

/-! ## Branch lines -/

variable {line : List Char}

def branchInitials : List (List Char) := branchPhrases.map fun phrase => phrase.firstLetters.take 2

theorem initials_of_isBranchLine (branch : isBranchLine line = true) :
    initials line ∈ branchInitials := by
  rw [isBranchLine, Phrase.anyBegins, List.any_eq_true] at branch
  rcases branch with ⟨phrase, member, begins⟩
  have two : ∀ phrase ∈ branchPhrases, (phrase.firstLetters.take 2).length = 2 := by
    decide
  rw [initials_of_begins (two phrase member) begins]
  exact List.mem_map_of_mem member

theorem not_isBranchLine_of_not_closing (trimmed : Trimmed line)
    (open' : isClosingLine line = false) : isBranchLine line = false := by
  have within : branchPhrases ⊆ closingPhrases := by
    intro phrase member
    simp only [branchPhrases, closingPhrases, List.mem_cons, List.not_mem_nil, or_false]
      at member ⊢
    rcases member with first | second | third
    · exact .inl first
    · exact .inr (.inr (.inl second))
    · exact .inr (.inr (.inr third))
  cases branch : isBranchLine line with
  | false => rfl
  | true =>
      rw [isBranchLine, Phrase.anyBegins, List.any_eq_true] at branch
      rcases branch with ⟨phrase, member, begins⟩
      have closing : isClosingLine line = true := by
        rw [isClosingLine, Phrase.anyBegins, List.any_eq_true, trimmed.trim_eq]
        exact ⟨phrase, within member, begins⟩
      rw [open'] at closing
      cases closing

namespace Block.Kind

variable {kind : Block.Kind}

theorem exists_keyword (isKind : ofLine line = kind) (worded : kind ≠ .process) :
    ∃ phrases, (kind, phrases) ∈ keywords ∧
      ∃ phrase ∈ phrases, Phrase.begins id phrase (lower (trim line)) = true := by
  simp only [ofLine] at isKind
  split at isKind
  · rename_i own phrases found
    cases isKind
    have begins := List.find?_some found
    rw [Phrase.anyBegins, List.any_eq_true] at begins
    exact ⟨phrases, List.mem_of_find?_eq_some found, begins⟩
  · exact absurd isKind.symm worded

theorem initials_of_opens : ∀ row ∈ keywords, row.1 = .loop ∨ row.1 = .switch →
    ∀ phrase ∈ row.2, (phrase.firstLetters.take 2).length = 2 ∧
      PlainLetters (phrase.firstLetters.take 2) ∧
      phrase.firstLetters.take 2 ∉ branchInitials := by
  decide

theorem not_isBranchLine_of_opens (trimmed : Trimmed line)
    (opens : ofLine line = .loop ∨ ofLine line = .switch) : isBranchLine line = false := by
  have worded : ofLine line ≠ .process := by
    rcases opens with opens | opens <;> simp [opens]
  rcases exists_keyword rfl worded with ⟨phrases, row, phrase, member, begins⟩
  rcases initials_of_opens _ row opens phrase member with ⟨two, plain, other⟩
  rw [trimmed.trim_eq] at begins
  cases branch : isBranchLine line with
  | false => rfl
  | true =>
      have among := initials_of_isBranchLine branch
      rw [initials_of_begins_lower two plain begins] at among
      exact absurd among other

theorem isBranchLine_of_case (trimmed : Trimmed line) (isCase : ofLine line = .case) :
    isBranchLine line = true := by
  rcases exists_keyword isCase (by simp) with ⟨phrases, row, phrase, member, begins⟩
  have known : phrases = [[.text "case", .edge], [.text "default", .edge]] := by
    simpa [keywords] using row
  rw [known, List.mem_cons, List.mem_singleton] at member
  rw [trimmed.trim_eq] at begins
  rw [isBranchLine, Phrase.anyBegins, List.any_eq_true]
  rcases member with rfl | rfl
  · exact ⟨_, by simp [branchPhrases],
      Phrase.begins_fold_of_begins_lower (by decide) (by decide) begins⟩
  · exact ⟨_, by simp [branchPhrases],
      Phrase.begins_fold_of_begins_lower (by decide) (by decide) begins⟩

end Block.Kind

/-! ## End markers -/

def endedLetter (text : List Char) : Option Char :=
  (((text.drop 3).dropWhile isBlank).map fold).head?

theorem endedLetter_of_begins {letters : String} {pieces : Phrase}
    (begins : Phrase.begins fold (.text "end" :: .gap :: .text letters :: pieces) line = true)
    (some : letters.toList ≠ []) : endedLetter line = letters.toList.head? := by
  rcases Phrase.prefix_behind_gap begins with ⟨more, split⟩
  have long : "end".toList.length = 3 := rfl
  rw [endedLetter, ← long, ← split]
  cases row : letters.toList with
  | nil => exact absurd row some
  | cons letter rest => rfl

theorem endedLetter_of_isIfEndLine (ends : isIfEndLine line = true) :
    endedLetter line = some 'i' ∨ endedLetter line = some 'c' := by
  simp only [isIfEndLine, Phrase.anyBegins, ifEndPhrases, List.any_cons, List.any_nil,
    Bool.or_false, Bool.or_eq_true] at ends
  rcases ends with ends | ends
  · exact .inl (endedLetter_of_begins ends (by decide))
  · exact .inr (endedLetter_of_begins ends (by decide))

theorem endedLetter_of_isSwitchEndLine (ends : isSwitchEndLine line = true) :
    endedLetter line = some 's' := by
  simp only [isSwitchEndLine, Phrase.anyBegins, switchEndPhrases, List.any_cons, List.any_nil,
    Bool.or_false, Bool.or_eq_true] at ends
  rcases ends with ends | ends
  · exact endedLetter_of_begins ends (by decide)
  · exact endedLetter_of_begins ends (by decide)

namespace Block

variable {block : Block}

theorem not_isSwitchEnd_of_isIfEnd (ends : block.isIfEnd = true) : block.isSwitchEnd = false := by
  cases both : block.isSwitchEnd with
  | false => rfl
  | true =>
      simp only [isIfEnd, isSwitchEnd, Bool.and_eq_true] at ends both
      have letter := endedLetter_of_isSwitchEndLine both.2
      rcases endedLetter_of_isIfEndLine ends.2 with other | other
      · rw [letter] at other
        exact absurd other (by decide)
      · rw [letter] at other
        exact absurd other (by decide)

theorem not_isIfEnd_of_isSwitchEnd (ends : block.isSwitchEnd = true) : block.isIfEnd = false := by
  cases both : block.isIfEnd with
  | false => rfl
  | true =>
      rw [not_isSwitchEnd_of_isIfEnd both] at ends
      cases ends

end Block

end Flowchart
