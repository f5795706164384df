import Flowchart.Proofs.Call.Padding
import Flowchart.Text.Digit

/-!
Digits among the other characters: they are no white space, no letters and no line breaks.
-/

namespace Flowchart.Text

section

variable {c : Char}

theorem code_of_isDigit (digit : c.isDigit = true) : 48 ≤ c.toNat ∧ c.toNat ≤ 57 := by
  simp only [Char.isDigit, Bool.and_eq_true, decide_eq_true_eq] at digit
  exact digit

theorem isBlank_of_isDigit (digit : c.isDigit = true) : isBlank c = false := by
  have code := code_of_isDigit digit
  simp only [isBlank, Bool.or_eq_false_iff, Bool.and_eq_false_iff, decide_eq_false_iff_not,
    beq_eq_false_iff_ne]
  omega

theorem lowerChar_of_isDigit (digit : c.isDigit = true) : lowerChar c = c := by
  have code := code_of_isDigit digit
  rw [lowerChar, if_pos (by omega), Char.toLower, dif_neg]
  rintro ⟨capital, _⟩
  have above : 65 ≤ c.toNat := capital
  omega

theorem fold_of_isDigit (digit : c.isDigit = true) : fold c = c := by
  have code := code_of_isDigit digit
  rw [fold, lowerChar_of_isDigit digit]
  exact if_pos (by omega)

theorem not_isNameStart_of_isDigit (digit : c.isDigit = true) : isNameStart c = false :=
  forall_of_ascii (fun c => c.isDigit = true → isNameStart c = false) (by decide) c
    (by have code := code_of_isDigit digit; omega) digit

theorem isDecimalDigit_of_isDigit (digit : c.isDigit = true) : isDecimalDigit c = true := by
  have code := code_of_isDigit digit
  have first : (0x30 ≤ c.toNat && c.toNat < 0x30 + 10) = true := by
    simp only [Bool.and_eq_true, decide_eq_true_eq]
    omega
  rw [isDecimalDigit, digitValue?, Option.isSome_map, List.find?_isSome]
  exact ⟨0x30, List.mem_cons_self, first⟩

theorem exists_digitZero (digit : isDecimalDigit c = true) :
    ∃ start ∈ digitZeros, start ≤ c.toNat ∧ c.toNat < start + 10 := by
  rw [isDecimalDigit, digitValue?, Option.isSome_map, List.find?_isSome] at digit
  simpa using digit

theorem isDigit_of_isDecimalDigit (digit : isDecimalDigit c = true) (ascii : c.toNat < 128) :
    c.isDigit = true := by
  have others : ∀ start ∈ digitZeros, start = 0x30 ∨ 128 ≤ start := by decide
  rcases exists_digitZero digit with ⟨start, isZero, above, below⟩
  rcases others start isZero with rfl | wide
  · simp only [Char.isDigit, Bool.and_eq_true, decide_eq_true_eq]
    exact ⟨above, Nat.le_of_lt_succ below⟩
  · omega

theorem digitZeros_apart : ∀ gap ∈ blankGaps, ∀ start ∈ digitZeros,
    gap.2 < start ∨ start + 10 ≤ gap.1 := by
  decide

theorem isBlank_of_isDecimalDigit (digit : isDecimalDigit c = true) : isBlank c = false := by
  by_cases ascii : c.toNat < 128
  · exact isBlank_of_isDigit (isDigit_of_isDecimalDigit digit ascii)
  rw [← Bool.not_eq_true]
  intro blank
  rcases exists_blankGap blank ascii with ⟨gap, isGap, above, below⟩
  rcases exists_digitZero digit with ⟨start, isZero, fromStart, toLast⟩
  have apart := digitZeros_apart gap isGap start isZero
  omega

theorem isLineBreak_of_isDigit (digit : c.isDigit = true) : isLineBreak c = false := by
  have code := code_of_isDigit digit
  simp only [isLineBreak, Bool.or_eq_false_iff, Bool.and_eq_false_iff, decide_eq_false_iff_not,
    beq_eq_false_iff_ne]
  omega

theorem fold_ne_of_isDecimalDigit (digit : isDecimalDigit c = true) {letter : Char}
    (basic : isNameStart letter = true) (alone : standsAlone letter = true) : fold c ≠ letter := by
  rintro rfl
  have ascii := toNat_lt_of_standsAlone_fold basic alone
  have isDigit := isDigit_of_isDecimalDigit digit ascii
  rw [fold_of_isDigit isDigit, not_isNameStart_of_isDigit isDigit] at basic
  cases basic

theorem not_isDecimalDigit_of_isNameStart (starts : isNameStart c = true) :
    isDecimalDigit c = false := by
  rw [← Bool.not_eq_true]
  intro digit
  have isDigit := isDigit_of_isDecimalDigit digit (toNat_lt_of_isNameStart starts)
  rw [not_isNameStart_of_isDigit isDigit] at starts
  cases starts

end

end Flowchart.Text
