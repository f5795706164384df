import Flowchart.Proofs.Text.Terminated

/-!
Words of basic letters and white space, in lower case and before.

White space and the letters of a few words are written in lower case one by one, whatever stands
around them. Where a text in lower case has such a row of characters, the text has one that spells
it: no letter outside the first 128 characters becomes one of the letters, but for a dotted i, which
leaves its dot behind.
-/

namespace Flowchart.Text

/-! ## Basic letters and white space in lower case -/

theorem toNat_lt_of_toLower {c : Char} (basic : c.toLower.toNat < 128) : c.toNat < 128 := by
  unfold Char.toLower at basic
  split at basic
  · rename_i upper
    have last : 'Z'.val.toNat = 90 := rfl
    have within := UInt32.le_iff_toNat_le.mp upper.2
    have code : c.toNat = c.val.toNat := rfl
    omega
  · exact basic

def IsSteady (c : Char) : Prop := c.toNat ≠ 0x3A3 ∧ c.toNat ≠ 0x130

theorem lowerAfter_append {front : List Char} (steady : ∀ c ∈ front, IsSteady c)
    (before rest : List Char) :
    lowerAfter before (front ++ rest) =
      front.map lowerChar ++ lowerAfter (front.reverse ++ before) rest := by
  induction front generalizing before with
  | nil => rfl
  | cons c front induction =>
      obtain ⟨noSigma, noDot⟩ := steady c List.mem_cons_self
      have later := induction (fun other member => steady other (List.mem_cons_of_mem _ member))
        (c :: before)
      rw [List.cons_append, lowerAfter, if_neg noSigma, if_neg noDot, later, List.map_cons,
        List.reverse_cons, List.append_assoc, List.singleton_append, List.singleton_append,
        List.cons_append]

theorem isWord_head_lowerAfter_eq (before other rest : List Char) :
    (lowerAfter before rest).head?.any isWord = (lowerAfter other rest).head?.any isWord := by
  cases rest with
  | nil => rfl
  | cons c rest =>
      rw [lowerAfter, lowerAfter]
      by_cases sigma : c.toNat = 0x3A3
      · have word (final : Bool) :
            isWord (Char.ofNat (if final = true then 0x3C2 else 0x3C3)) = true := by
          cases final <;> decide +kernel
        rw [if_pos sigma, if_pos sigma]
        simp only [List.singleton_append, List.head?_cons, Option.any_some, word]
      · rw [if_neg sigma, if_neg sigma]
        split <;> rfl

theorem isSteady_of_ascii {c : Char} (ascii : c.toNat < 128) : IsSteady c := by
  constructor <;> omega

section

variable {c : Char} (blank : isBlank c = true)

include blank

theorem isSteady_of_isBlank : IsSteady c := by
  simp only [isBlank, Bool.or_eq_true, Bool.and_eq_true, decide_eq_true_eq, beq_iff_eq] at blank
  constructor <;> omega

theorem lowerChar_of_isBlank : lowerChar c = c := by
  by_cases ascii : c.toNat < 128
  · exact forall_of_ascii (fun c => isBlank c = true → lowerChar c = c) (by decide) c ascii blank
  obtain ⟨gap, isGap, above, below⟩ := exists_blankGap blank ascii
  rcases lowerChar_cases ascii with same | ⟨run, member, fromFirst, toLast, _⟩
  · exact same
  · have outside := (blankGaps_apart gap isGap).2.1 run member
    omega

end

/-! ## Words -/

def smallLetters : List Char := ['e', 'l', 's', 'i', 'f']

def elseIfLetters : List Char := smallLetters ++ ['E', 'L', 'S', 'I', 'F']

structure IsBasicLetter (c : Char) : Prop where
  ascii : c.toNat < 128
  lower : lowerChar c = c.toLower
  folded : fold c = c.toLower
  notBlank : isBlank c = false
  notColon : c ≠ ':'
  word : isWord c = true

theorem isBasicLetter_of_mem {c : Char} (member : c ∈ elseIfLetters) : IsBasicLetter c := by
  have all : (elseIfLetters.all fun c => decide (c.toNat < 128 ∧ lowerChar c = c.toLower ∧
      fold c = c.toLower ∧ isBlank c = false ∧ c ≠ ':' ∧ isWord c = true)) = true := by
    decide
  obtain ⟨ascii, lower, folded, notBlank, notColon, word⟩ :=
    of_decide_eq_true (List.all_eq_true.mp all c member)
  exact ⟨ascii, lower, folded, notBlank, notColon, word⟩

theorem mem_elseIfLetters {c : Char} (small : c.toLower ∈ smallLetters) : c ∈ elseIfLetters := by
  have ascii := toNat_lt_of_toLower (isBasicLetter_of_mem (List.mem_append_left _ small)).ascii
  exact forall_of_ascii (fun c => c.toLower ∈ smallLetters → c ∈ elseIfLetters)
    (by decide +kernel) c ascii small

def Spells (word : String) (text : List Char) : Prop :=
  word.toList ⊆ smallLetters ∧ text.map Char.toLower = word.toList

namespace Spells

variable {word : String} {text : List Char}

theorem isBasicLetter (spells : Spells word text) : ∀ c ∈ text, IsBasicLetter c := by
  intro c member
  apply isBasicLetter_of_mem
  apply mem_elseIfLetters
  apply spells.1
  rw [← spells.2]
  exact List.mem_map_of_mem member

theorem map_lowerChar (spells : Spells word text) : text.map lowerChar = word.toList := by
  rw [← spells.2]
  apply List.map_congr_left
  intro c member
  exact (spells.isBasicLetter c member).lower

theorem map_fold (spells : Spells word text) : text.map fold = word.toList := by
  rw [← spells.2]
  apply List.map_congr_left
  intro c member
  exact (spells.isBasicLetter c member).folded

theorem any_isBlank (spells : Spells word text) : text.any isBlank = false := by
  apply List.any_eq_false.mpr
  intro c member
  rw [(spells.isBasicLetter c member).notBlank]
  exact Bool.false_ne_true

theorem exists_first (spells : Spells word text) (some : word.toList ≠ []) :
    ∃ c rest, text = c :: rest ∧ IsBasicLetter c := by
  cases text with
  | nil => exact absurd spells.2.symm some
  | cons c rest => exact ⟨c, rest, rfl, spells.isBasicLetter c List.mem_cons_self⟩

theorem exists_last (spells : Spells word text) (some : word.toList ≠ []) :
    ∃ front c, text = front ++ [c] ∧ IsBasicLetter c := by
  rcases List.eq_nil_or_concat' text with rfl | ⟨front, c, rfl⟩
  · exact absurd spells.2.symm some
  · exact ⟨front, c, rfl, spells.isBasicLetter c (by simp)⟩

end Spells

theorem trimEnd_append_of_last {front : List Char} {c : Char} (solid : isBlank c = false)
    (rest : List Char) : trimEnd ((front ++ [c]) ++ rest) = (front ++ [c]) ++ trimEnd rest := by
  cases blank : isAllBlank rest with
  | false => exact trimEnd_append_of_not_isAllBlank blank (front ++ [c])
  | true =>
      have each : ∀ d ∈ rest.reverse, isBlank d = true := fun d member =>
        List.all_eq_true.mp blank d (List.mem_reverse.mp member)
      rw [trimEnd_eq_nil_iff.mpr blank, List.append_nil, trimEnd, List.reverse_append,
        List.dropWhile_append_of_pos each, List.reverse_append, List.reverse_singleton,
        List.singleton_append, List.dropWhile_cons_of_neg (by simp [solid]), List.reverse_cons,
        List.reverse_reverse]


/-! ## Rows in lower case -/

theorem capitalRuns_apart_of_smallLetters : ∀ run ∈ capitalRuns,
    run.first = 0x130 ∧ run.last = 0x130 ∨
      (smallLetters.all fun letter => decide (run.last + run.shift < (letter.toNat : Int) ∨
        (letter.toNat : Int) < run.first + run.shift)) = true := by
  decide +kernel

theorem capitalRuns_apart_of_blankGaps : ∀ run ∈ capitalRuns, ∀ gap ∈ (0, 0x20) :: blankGaps,
    run.last + run.shift < (gap.1 : Int) ∨ (gap.2 : Int) < run.first + run.shift := by
  decide +kernel

theorem toNat_ofNat_cases (code : Nat) :
    (Char.ofNat code).toNat = code ∨ (Char.ofNat code).toNat = 0 := by
  rw [Char.ofNat]
  split
  · exact .inl rfl
  · exact .inr rfl

theorem toLower_of_lowerChar_single {c : Char} (noDot : c.toNat ≠ 0x130)
    (single : lowerChar c ∈ smallLetters) : c.toLower = lowerChar c := by
  by_cases ascii : c.toNat < 128
  · rw [lowerChar, if_pos ascii]
  have known : (smallLetters.all fun letter => decide (0 < letter.toNat ∧ letter.toNat < 128)) =
      true := by decide
  have bound := of_decide_eq_true (List.all_eq_true.mp known _ single)
  rcases lowerChar_cases ascii with same | ⟨run, member, above, below, small⟩
  · rw [same] at bound
    omega
  · have code := toNat_ofNat_cases (c.toNat + run.shift).toNat
    rw [← small] at code
    rcases capitalRuns_apart_of_smallLetters run member with dotted | apart
    · omega
    · have outside := of_decide_eq_true (List.all_eq_true.mp apart _ single)
      omega

theorem eq_of_isBlank_lowerChar {c : Char} (blank : isBlank (lowerChar c) = true) :
    lowerChar c = c := by
  by_cases ascii : c.toNat < 128
  · exact forall_of_ascii (fun c => isBlank (lowerChar c) = true → lowerChar c = c) (by decide) c
      ascii blank
  rcases lowerChar_cases ascii with same | ⟨run, member, above, below, small⟩
  · exact same
  · have inGap : ∃ gap ∈ (0, 0x20) :: blankGaps,
        gap.1 ≤ (lowerChar c).toNat ∧ (lowerChar c).toNat ≤ gap.2 := by
      by_cases basic : (lowerChar c).toNat < 128
      · refine ⟨(0, 0x20), List.mem_cons_self, Nat.zero_le _, ?_⟩
        exact forall_of_ascii (fun c => isBlank c = true → c.toNat ≤ 0x20) (by decide) _ basic blank
      · obtain ⟨gap, isGap, within⟩ := exists_blankGap blank basic
        exact ⟨gap, List.mem_cons_of_mem _ isGap, within⟩
    obtain ⟨gap, isGap, first, last⟩ := inGap
    have outside := capitalRuns_apart_of_blankGaps run member gap isGap
    have filled : (lowerChar c).toNat ≠ 0 := by
      intro zero
      rw [← Char.ofNat_toNat (lowerChar c), zero] at blank
      cases blank
    have code := toNat_ofNat_cases (c.toNat + run.shift).toNat
    rw [← small] at code
    omega

def IsOrdinary (small : Char) : Prop :=
  small.toNat ≠ 0x307 ∧ small.toNat ≠ 0x3C2 ∧ small.toNat ≠ 0x3C3

theorem isOrdinary_of_isBlank {c : Char} (blank : isBlank c = true) : IsOrdinary c := by
  simp only [isBlank, Bool.or_eq_true, Bool.and_eq_true, decide_eq_true_eq, beq_iff_eq] at blank
  refine ⟨?_, ?_, ?_⟩ <;> omega

/-- The character that a text in lower case begins with. An i may come from a dotted one, but then
the dot follows. -/
theorem exists_of_lowerAfter_cons {before text tail : List Char} {small : Char}
    (ordinary : IsOrdinary small) (undotted : small = 'i' → tail.head? ≠ some (Char.ofNat 0x307))
    (lowered : lowerAfter before text = small :: tail) :
    ∃ c rest, text = c :: rest ∧ c.toNat ≠ 0x130 ∧ lowerChar c = small ∧
      tail = lowerAfter (c :: before) rest := by
  cases text with
  | nil => cases lowered
  | cons c rest =>
      rw [lowerAfter] at lowered
      split at lowered
      · cases lowered
        split at ordinary
        · exact absurd rfl ordinary.2.1
        · exact absurd rfl ordinary.2.2
      · split at lowered
        · cases lowered
          exact absurd rfl (undotted rfl)
        · rename_i notDotted
          cases lowered
          exact ⟨c, rest, rfl, notDotted, rfl, rfl⟩

theorem exists_of_lowerAfter_row {row : List Char} (ordinary : ∀ small ∈ row, IsOrdinary small)
    (noLast : row.getLast? ≠ some 'i') :
    ∀ {before text tail : List Char}, lowerAfter before text = row ++ tail →
      ∃ front rest, text = front ++ rest ∧ (∀ c ∈ front, c.toNat ≠ 0x130) ∧
        front.map lowerChar = row := by
  induction row with
  | nil =>
      intro before text tail _
      exact ⟨[], text, rfl, nofun, rfl⟩
  | cons small row induction =>
      intro before text tail lowered
      have undotted : small = 'i' → (row ++ tail).head? ≠ some (Char.ofNat 0x307) := by
        intro isDotted
        cases row with
        | nil => exact absurd (congrArg some isDotted) noLast
        | cons next row =>
            intro dot
            have same : next = Char.ofNat 0x307 := Option.some.inj dot
            exact (ordinary next (by simp)).1 (by rw [same]; rfl)
      obtain ⟨c, rest, rfl, notDotted, isSmall, behind⟩ :=
        exists_of_lowerAfter_cons (ordinary small List.mem_cons_self) undotted lowered
      have noLastToo : row.getLast? ≠ some 'i' := by
        cases row with
        | nil => exact nofun
        | cons next row => rwa [List.getLast?_cons_cons] at noLast
      obtain ⟨front, more, rfl, noneDotted, isRow⟩ := induction
        (fun other member => ordinary other (List.mem_cons_of_mem _ member)) noLastToo behind.symm
      refine ⟨c :: front, more, rfl, fun other member => ?_, by rw [List.map_cons, isSmall, isRow]⟩
      rcases List.mem_cons.mp member with rfl | later
      · exact notDotted
      · exact noneDotted other later

theorem spells_of_map_lowerChar {word : String} {front : List Char}
    (single : word.toList ⊆ smallLetters) (noneDotted : ∀ c ∈ front, c.toNat ≠ 0x130)
    (lowered : front.map lowerChar = word.toList) : Spells word front := by
  refine ⟨single, ?_⟩
  rw [← lowered]
  apply List.map_congr_left
  intro c member
  apply toLower_of_lowerChar_single (noneDotted c member)
  apply single
  rw [← lowered]
  exact List.mem_map_of_mem member

theorem eq_of_map_lowerChar_of_isAllBlank {front gap : List Char} (blank : isAllBlank gap = true)
    (lowered : front.map lowerChar = gap) : front = gap := by
  have same : ∀ c ∈ front, lowerChar c = id c := by
    intro c member
    apply eq_of_isBlank_lowerChar
    apply List.all_eq_true.mp blank
    rw [← lowered]
    exact List.mem_map_of_mem member
  rw [← lowered, List.map_congr_left same, List.map_id]

end Flowchart.Text
