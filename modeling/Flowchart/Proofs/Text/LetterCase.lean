import Mathlib
import Flowchart.Text.LetterCase
import Flowchart.Text.Phrase

/-!
Basic letters in lower case texts, and what they say about the letters that they come from.

A basic letter other than an i comes from one letter, which stands for the same one without regard
to case. Word characters stay word characters in lower case.
-/

namespace Flowchart.Text

/-! ## Single letters -/

theorem forall_of_ascii (property : Char → Prop)
    (all : ∀ code : Fin 128, property (Char.ofNat code))
    (c : Char) (ascii : c.toNat < 128) : property c := by
  have known := all ⟨c.toNat, ascii⟩
  rwa [Char.ofNat_toNat] at known

theorem fold_of_ascii {c : Char} (ascii : (lowerChar c).toNat < 128) : fold c = lowerChar c := by
  rw [fold, if_pos ascii]

theorem lowerChar_cases {c : Char} (wide : ¬c.toNat < 128) :
    lowerChar c = c ∨ ∃ run ∈ capitalRuns, run.first ≤ c.toNat ∧ c.toNat ≤ run.last ∧
      lowerChar c = Char.ofNat (c.toNat + run.shift).toNat := by
  rw [lowerChar, if_neg wide]
  split
  · rename_i run found
    have contains := List.find?_some found
    simp only [CaseRun.contains, Bool.and_eq_true, decide_eq_true_eq] at contains
    exact .inr ⟨run, List.mem_of_find?_eq_some found, contains.1.1, contains.1.2, rfl⟩
  · exact .inl rfl

namespace CaseRun

/-- All capitals of a run have word characters for small letters: these lie in one range, or there
is a single one. Or else no capital of the run is a word character. -/
def keepsWords (run : CaseRun) : Bool :=
  let start := (run.first + run.shift).toNat
  let stop := (run.last + run.shift).toNat
  (128 ≤ start && alphanumericCodes.any fun (first, last) =>
    first ≤ start && stop ≤ last && (last < 0xD800 || 0xDFFF < first && last < 0x110000)) ||
    (run.first == run.last && isWord (Char.ofNat start)) ||
    alphanumericCodes.all fun (first, last) => last < run.first || run.last < first

def widensWords (run : CaseRun) : Bool :=
  decide ((128 : Int) ≤ run.first + run.shift ∧ run.last + run.shift < (0xD800 : Int) ∨
    (0xDFFF : Int) < run.first + run.shift ∧ run.last + run.shift < (0x110000 : Int)) ||
    (run.first == run.last && isWord (Char.ofNat run.first))

def smallLetterCodes : CodeSet := [
  (0xD8, 0xF6), (0xF8, 0x2C1), (0x370, 0x374), (0x376, 0x377), (0x37A, 0x37D), (0x38E, 0x3A1),
  (0x3A3, 0x3F5), (0x3F7, 0x481), (0x48A, 0x52F), (0x560, 0x588), (0x10D0, 0x10FA),
  (0x10FC, 0x1248), (0x13F8, 0x13FD), (0x1D00, 0x1DBF), (0x1E00, 0x1F15), (0x1F20, 0x1F45),
  (0x1F50, 0x1F57), (0x1F5F, 0x1F7D), (0x1F80, 0x1FB4), (0x1FC2, 0x1FC4), (0x1FD0, 0x1FD3),
  (0x1FE0, 0x1FEC), (0x1FF2, 0x1FF4), (0x214E, 0x214E), (0x2150, 0x2189), (0x2C00, 0x2CE4),
  (0x2CEB, 0x2CEE), (0x2CF2, 0x2CF3), (0x2D00, 0x2D25), (0x2D27, 0x2D27), (0x2D2D, 0x2D2D),
  (0xA640, 0xA66E), (0xA67F, 0xA69D), (0xA722, 0xA788), (0xA78B, 0xA7CA), (0xA7D0, 0xA7D1),
  (0xA7D5, 0xA7D9), (0xA7F2, 0xA801), (0xAB30, 0xAB5A), (0xAB70, 0xABE2), (0xFB00, 0xFB06),
  (0xFF41, 0xFF5A), (0x10400, 0x1049D), (0x104D8, 0x104FB), (0x10597, 0x105A1),
  (0x105A3, 0x105B1), (0x105B3, 0x105B9), (0x105BB, 0x105BC), (0x10CC0, 0x10CF2),
  (0x118A0, 0x118F2), (0x16E40, 0x16E96), (0x1E900, 0x1E943)]

def leadsInto (codes : CodeSet) (run : CaseRun) : Bool :=
  let start := (run.first + run.shift).toNat
  let stop := (run.last + run.shift).toNat
  128 ≤ start && codes.any fun (first, last) =>
    first ≤ start && stop ≤ last && (last < 0xD800 || 0xDFFF < first && last < 0x110000)

theorem keepsWords_of_leadsInto {codes : CodeSet} {run : CaseRun}
    (within : codes ⊆ alphanumericCodes) (leads : run.leadsInto codes = true) :
    run.keepsWords = true := by
  rw [leadsInto, Bool.and_eq_true, List.any_eq_true] at leads
  rcases leads with ⟨large, range, member, inside⟩
  rw [keepsWords, Bool.or_eq_true, Bool.or_eq_true, Bool.and_eq_true, List.any_eq_true]
  exact .inl (.inl ⟨large, range, within member, inside⟩)

-- The few ranges that matter are tried first, since the table of all of them is long.
set_option maxRecDepth 4000 in
theorem keepsWords_of_mem : ∀ run ∈ capitalRuns, run.keepsWords = true := by
  have tried : ∀ run ∈ capitalRuns,
      run.leadsInto smallLetterCodes = true ∨ run.keepsWords = true := by decide +kernel
  have within : smallLetterCodes.Sublist alphanumericCodes := by decide +kernel
  intro run member
  exact (tried run member).elim (keepsWords_of_leadsInto within.subset) id

set_option maxRecDepth 4000 in
theorem widensWords_of_mem : ∀ run ∈ capitalRuns, run.widensWords = true := by
  decide

end CaseRun

theorem toNat_ofNat_of_valid {code : Nat}
    (valid : code < 0xD800 ∨ 0xDFFF < code ∧ code < 0x110000) : (Char.ofNat code).toNat = code := by
  have isValid : code.isValidChar := valid
  rw [Char.ofNat, dif_pos isValid]
  rfl

theorem isWord_of_wide {c : Char} (wide : ¬c.toNat < 128) :
    isWord c = alphanumericCodes.contains c := by
  have noUnderscore : c ≠ '_' := by
    rintro rfl
    exact wide (by decide)
  simp [isWord, isAlphanumeric, wide, noUnderscore]

theorem isWord_lowerChar {c : Char} (word : isWord c = true) : isWord (lowerChar c) = true := by
  by_cases ascii : c.toNat < 128
  · exact forall_of_ascii (fun c => isWord c = true → isWord (lowerChar c) = true) (by decide) c
      ascii word
  rcases lowerChar_cases ascii with same | ⟨run, member, above, below, small⟩
  · rw [same, word]
  · have keeps := CaseRun.keepsWords_of_mem run member
    simp only [CaseRun.keepsWords, Bool.or_eq_true, Bool.and_eq_true, List.any_eq_true,
      List.all_eq_true, decide_eq_true_eq, beq_iff_eq] at keeps
    rcases keeps with (⟨large, ⟨first, last⟩, inTable, ⟨fromFirst, toLast⟩, valid⟩ | single) | none
    · have code : (lowerChar c).toNat = (c.toNat + run.shift).toNat := by
        rw [small]
        exact toNat_ofNat_of_valid (by omega)
      rw [isWord_of_wide (by omega), CodeSet.contains, List.any_eq_true]
      refine ⟨(first, last), inTable, ?_⟩
      simp only [Bool.and_eq_true, decide_eq_true_eq]
      omega
    · have only : c.toNat = run.first := by omega
      rw [small, only]
      exact single.2
    · rw [isWord_of_wide ascii, CodeSet.contains, List.any_eq_true] at word
      rcases word with ⟨⟨first, last⟩, inTable, inside⟩
      have outside := none (first, last) inTable
      simp only [Bool.and_eq_true, decide_eq_true_eq] at inside outside
      omega

theorem isWord_of_lowerChar {c : Char} (basic : (lowerChar c).toNat < 128)
    (word : isWord (lowerChar c) = true) : isWord c = true := by
  by_cases ascii : c.toNat < 128
  · exact forall_of_ascii (fun c => isWord (lowerChar c) = true → isWord c = true) (by decide) c
      ascii word
  rcases lowerChar_cases ascii with same | ⟨run, member, above, below, small⟩
  · rw [same] at basic
    exact absurd basic ascii
  · have widens := CaseRun.widensWords_of_mem run member
    simp only [CaseRun.widensWords, Bool.or_eq_true, Bool.and_eq_true, decide_eq_true_eq,
      beq_iff_eq] at widens
    rcases widens with wide | single
    · have code : (lowerChar c).toNat = (c.toNat + run.shift).toNat := by
        rw [small]
        exact toNat_ofNat_of_valid (by omega)
      omega
    · have only : c.toNat = run.first := by omega
      have same : c = Char.ofNat run.first := by
        rw [← only, Char.ofNat_toNat]
      rw [same]
      exact single.2

theorem isWord_of_isNameStart {c : Char} (starts : isNameStart c = true) : isWord c = true := by
  rcases Bool.or_eq_true_iff.mp starts with letter | underscore
  · have known : c.isAlphanum = true := Bool.or_eq_true_iff.mpr (.inl letter)
    exact Bool.or_eq_true_iff.mpr (.inl (isAlphanumeric_of_isAlphanum known))
  · exact Bool.or_eq_true_iff.mpr (.inr underscore)

theorem toNat_lt_of_isNameStart {c : Char} (starts : isNameStart c = true) : c.toNat < 128 := by
  rcases Bool.or_eq_true_iff.mp starts with letter | underscore
  · unfold Char.isAlpha Char.isUpper Char.isLower at letter
    simp only [Bool.or_eq_true, Bool.and_eq_true, decide_eq_true_eq, ge_iff_le,
      UInt32.le_iff_toNat_le] at letter
    have lastUpper : 'Z'.val.toNat = 90 := rfl
    have lastLower : 'z'.val.toNat = 122 := rfl
    have code : c.toNat = c.val.toNat := rfl
    omega
  · rw [of_decide_eq_true underscore]
    decide

/-- Variants of basic letters are word characters, and small forms of nothing but themselves. -/
theorem letterVariants_of_basic : ∀ row ∈ letterVariants,
    isNameStart (Char.ofNat row.2) = true → isWord (Char.ofNat row.1) = true ∧
      ∀ run ∈ capitalRuns,
        (row.1 : Int) < run.first + run.shift ∨ run.last + run.shift < row.1 := by
  decide +kernel

theorem isWord_of_isNameStart_fold {c : Char} (starts : isNameStart (fold c) = true) :
    isWord c = true := by
  by_cases basic : (lowerChar c).toNat < 128
  · rw [fold_of_ascii basic] at starts
    exact isWord_of_lowerChar basic (isWord_of_isNameStart starts)
  have wide : ¬c.toNat < 128 := fun ascii =>
    basic (forall_of_ascii (fun c => (lowerChar c).toNat < 128) (by decide) c ascii)
  rw [fold, if_neg basic] at starts
  split at starts
  · rename_i first letter found
    have code : first = (lowerChar c).toNat := by simpa using List.find?_some found
    rcases letterVariants_of_basic _ (List.mem_of_find?_eq_some found) starts with ⟨word, apart⟩
    rw [code, Char.ofNat_toNat] at word
    rcases lowerChar_cases wide with same | ⟨run, member, above, below, small⟩
    · rwa [same] at word
    · have outside := apart run member
      have between : (lowerChar c).toNat = 0 ∨
          (lowerChar c).toNat = (c.toNat + run.shift).toNat := by
        rw [small, Char.ofNat]
        split
        · exact .inr rfl
        · exact .inl rfl
      omega
  · exact absurd (toNat_lt_of_isNameStart starts) basic

def standsAlone (letter : Char) : Bool :=
  (capitalRuns.all fun run =>
    run.last + run.shift < (letter.toNat : Int) || (letter.toNat : Int) < run.first + run.shift) &&
    letterVariants.all fun row => Char.ofNat row.2 != letter

theorem toNat_lt_of_standsAlone_fold {c : Char} (basic : isNameStart (fold c) = true)
    (alone : standsAlone (fold c) = true) : c.toNat < 128 := by
  have small := toNat_lt_of_isNameStart basic
  have filled : (fold c).toNat ≠ 0 := fun zero =>
    absurd basic (by rw [← Char.ofNat_toNat (fold c), zero]; decide)
  rw [standsAlone, Bool.and_eq_true, List.all_eq_true, List.all_eq_true] at alone
  by_contra wide
  have lowered : fold c = lowerChar c := by
    by_cases ascii : (lowerChar c).toNat < 128
    · exact fold_of_ascii ascii
    · cases found : letterVariants.find? (·.1 == (lowerChar c).toNat) with
      | none => rw [fold, if_neg ascii, found]
      | some row =>
          have letter : fold c = Char.ofNat row.2 := by rw [fold, if_neg ascii, found]
          have other := alone.2 row (List.mem_of_find?_eq_some found)
          simp [letter] at other
  rcases lowerChar_cases wide with same | ⟨run, member, above, below, shifted⟩
  · rw [lowered, same] at small
    exact wide small
  · have outside := alone.1 run member
    have code : (fold c).toNat = (c.toNat + run.shift).toNat := by
      rw [lowered, shifted] at filled ⊢
      rw [Char.ofNat] at filled ⊢
      split at filled
      · rename_i valid
        rw [dif_pos valid]
        rfl
      · exact absurd rfl filled
    simp only [Bool.or_eq_true, decide_eq_true_eq] at outside
    omega

/-! ## Texts in lower case -/

/-- A basic letter comes from one character, and alone unless it is an i. -/
theorem exists_of_lowerAfter {before text tail : List Char} {letter : Char}
    (basic : letter.toNat < 128) (small : lowerAfter before text = letter :: tail) :
    ∃ c rest, text = c :: rest ∧ lowerChar c = letter ∧
      (letter ≠ 'i' → tail = lowerAfter (c :: before) rest) := by
  cases text with
  | nil => cases small
  | cons c rest =>
      rw [lowerAfter] at small
      split at small
      · cases small
        split at basic
        · exact absurd basic (by decide)
        · exact absurd basic (by decide)
      split at small
      · rename_i dotted
        cases small
        have same : c = Char.ofNat 0x130 := by
          rw [← dotted, Char.ofNat_toNat]
        exact ⟨c, rest, rfl, by rw [same]; decide, fun other => absurd rfl other⟩
      · cases small
        exact ⟨c, rest, rfl, rfl, fun _ => rfl⟩

theorem isWord_head_lowerAfter {before text : List Char}
    (word : text.head?.any isWord = true) : (lowerAfter before text).head?.any isWord = true := by
  cases text with
  | nil => cases word
  | cons c rest =>
      rw [lowerAfter]
      split
      · simp only [List.singleton_append, List.head?_cons, Option.any_some]
        split
        · decide
        · decide
      split
      · simp only [List.cons_append, List.head?_cons, Option.any_some]
        decide
      · simp only [List.singleton_append, List.head?_cons, Option.any_some] at word ⊢
        exact isWord_lowerChar word

def PlainLetters (letters : List Char) : Prop :=
  ∀ letter ∈ letters, letter.toNat < 128 ∧ letter ≠ 'i'

instance (letters : List Char) : Decidable (PlainLetters letters) :=
  List.decidableBAll (fun letter : Char => letter.toNat < 128 ∧ letter ≠ 'i') letters

theorem exists_of_lowerAfter_append {letters : List Char} (plain : PlainLetters letters) :
    ∀ {before text tail : List Char}, lowerAfter before text = letters ++ tail →
      ∃ front rest, text = front ++ rest ∧ front.map lowerChar = letters ∧
        tail = lowerAfter (front.reverse ++ before) rest := by
  induction letters with
  | nil =>
      intro before text tail small
      exact ⟨[], text, rfl, rfl, small.symm⟩
  | cons letter letters induction =>
      intro before text tail small
      have own := plain letter List.mem_cons_self
      rcases exists_of_lowerAfter own.1 small with ⟨c, rest, rfl, isLetter, behind⟩
      rcases induction (fun other member => plain other (List.mem_cons_of_mem _ member))
        (behind own.2).symm with ⟨front, more, rfl, isFront, isTail⟩
      refine ⟨c :: front, more, rfl, by rw [List.map_cons, isLetter, isFront], ?_⟩
      rw [isTail, List.reverse_cons, List.append_assoc, List.singleton_append]

theorem map_fold_of_map_lowerChar {front letters : List Char} (plain : PlainLetters letters)
    (small : front.map lowerChar = letters) : front.map fold = letters := by
  rw [← small]
  refine List.map_congr_left fun c member => ?_
  refine fold_of_ascii (plain (lowerChar c) ?_).1
  rw [← small]
  exact List.mem_map_of_mem member

theorem prefix_fold_of_prefix_lower {letters text : List Char} (plain : PlainLetters letters)
    (begins : letters <+: lower text) : letters <+: text.map fold := by
  rcases begins with ⟨tail, split⟩
  rcases exists_of_lowerAfter_append plain split.symm with ⟨front, rest, rfl, small, _⟩
  rw [List.map_append, map_fold_of_map_lowerChar plain small]
  exact List.prefix_append _ _

/-! ## Phrases at the beginning of a text -/

theorem exists_of_take? {view : Char → Char} {letters : List Char} :
    ∀ {place behind : Place}, place.take? view letters = some behind →
      ∃ front, place.after = front ++ behind.after ∧ front.map view = letters ∧
        behind.before = front.reverse ++ place.before := by
  induction letters with
  | nil =>
      intro place behind taken
      cases taken
      exact ⟨[], rfl, rfl, rfl⟩
  | cons letter letters induction =>
      rintro ⟨before, after⟩ behind taken
      cases after with
      | nil => cases taken
      | cons c after =>
          rw [Place.take?] at taken
          split at taken
          · rename_i same
            rcases induction taken with ⟨front, split, viewed, passed⟩
            have split : after = front ++ behind.after := split
            have passed : behind.before = front.reverse ++ c :: before := passed
            refine ⟨c :: front, by rw [split, List.cons_append], ?_, ?_⟩
            · rw [List.map_cons, same, viewed]
            · rw [passed, List.reverse_cons, List.append_assoc, List.singleton_append]
          · cases taken

theorem take?_append {view : Char → Char} (front : List Char) :
    ∀ (before rest : List Char),
      Place.take? view (front.map view) ⟨before, front ++ rest⟩ =
        some ⟨front.reverse ++ before, rest⟩ := by
  induction front with
  | nil => exact fun _ _ => rfl
  | cons c front induction =>
      intro before rest
      rw [List.map_cons, List.cons_append, Place.take?, if_pos rfl, induction, List.reverse_cons,
        List.append_assoc, List.singleton_append]

namespace Phrase

variable {view : Char → Char} {text : List Char} {letters : String}

theorem fit?_cons (piece : Piece) (pieces : Phrase) (place : Place) :
    fit? view (piece :: pieces) place = (piece.fit? view place).bind (fit? view pieces) :=
  rfl

theorem exists_of_begins {pieces : Phrase}
    (begins : begins view (.text letters :: pieces) text = true) :
    ∃ front rest, text = front ++ rest ∧ front.map view = letters.toList ∧
      (fit? view pieces ⟨front.reverse, rest⟩).isSome = true := by
  rw [Phrase.begins, fit?_cons] at begins
  cases taken : Piece.fit? view (Place.start text) (.text letters) with
  | none =>
      rw [taken] at begins
      cases begins
  | some behind =>
      rw [taken, Option.bind_some] at begins
      rcases exists_of_take? taken with ⟨front, split, viewed, passed⟩
      have passed : behind.before = front.reverse := passed.trans (List.append_nil _)
      exact ⟨front, behind.after, split, viewed, by rwa [← passed]⟩

theorem prefix_of_begins {pieces : Phrase}
    (begins : begins view (.text letters :: pieces) text = true) :
    letters.toList <+: text.map view := by
  rcases exists_of_begins begins with ⟨front, rest, rfl, viewed, _⟩
  rw [List.map_append, viewed]
  exact List.prefix_append _ _

theorem prefix_behind_gap {second : String} {pieces : Phrase}
    (begins : begins view (.text letters :: .gap :: .text second :: pieces) text = true) :
    second.toList <+:
      ((text.drop letters.toList.length).dropWhile isBlank).map view := by
  rcases exists_of_begins begins with ⟨front, rest, rfl, viewed, fits⟩
  rw [← viewed, List.length_map, List.drop_left]
  rw [fit?_cons, Piece.fit?, Option.bind_some, fit?_cons] at fits
  cases taken : Piece.fit? view (Place.skip isBlank ⟨front.reverse, rest⟩) (.text second) with
  | none =>
      rw [taken] at fits
      cases fits
  | some behind =>
      rcases exists_of_take? taken with ⟨middle, split, viewed, _⟩
      have split : rest.dropWhile isBlank = middle ++ behind.after := split
      rw [split, List.map_append, viewed]
      exact List.prefix_append _ _

theorem begins_fold_of_begins_lower (plain : PlainLetters letters.toList)
    (word : letters.toList.getLast?.any isWord = true)
    (begins : begins id [.text letters, .edge] (lower text) = true) :
    Phrase.begins fold [.text letters, .edge] text = true := by
  rcases exists_of_begins begins with ⟨small, tail, split, viewed, fits⟩
  rw [List.map_id] at viewed
  subst viewed
  rcases exists_of_lowerAfter_append plain split with ⟨front, rest, rfl, lowered, behind⟩
  rw [List.append_nil] at behind
  have atEdge : Place.atEdge ⟨letters.toList.reverse, tail⟩ = true := by
    rw [fit?_cons, Piece.fit?] at fits
    by_cases edge : Place.atEdge ⟨letters.toList.reverse, tail⟩ = true
    · exact edge
    · rw [if_neg edge] at fits
      cases fits
  have lastWord : front.reverse.head?.any isWord = true := by
    rw [← lowered, ← List.head?_reverse, ← List.map_reverse, List.head?_map, Option.any_map]
      at word
    cases last : front.reverse.head? with
    | none =>
        rw [last] at word
        cases word
    | some c =>
        rw [last] at word
        have member : lowerChar c ∈ letters.toList := by
          rw [← lowered]
          refine List.mem_map_of_mem (List.mem_reverse.mp (List.mem_of_head? last))
        exact isWord_of_lowerChar (plain _ member).1 word
  have behindEdge : rest.head?.any isWord = false := by
    rw [Place.atEdge, List.head?_reverse, word, behind] at atEdge
    cases next : rest.head?.any isWord with
    | false => rfl
    | true =>
        rw [isWord_head_lowerAfter next] at atEdge
        cases atEdge
  have edge : Place.atEdge ⟨front.reverse, rest⟩ = true := by
    rw [Place.atEdge, lastWord, behindEdge]
    rfl
  have viewed := map_fold_of_map_lowerChar plain lowered
  have taken : Piece.fit? fold (Place.start (front ++ rest)) (.text letters) =
      some ⟨front.reverse, rest⟩ := by
    rw [Piece.fit?, ← viewed, Place.start, take?_append, List.append_nil]
  rw [Phrase.begins, fit?_cons, taken, Option.bind_some, fit?_cons, Piece.fit?, if_pos edge]
  rfl

end Phrase

end Flowchart.Text
