import Flowchart.Call.Site
import Flowchart.Proofs.Text.LetterCase
import Flowchart.Proofs.Text.Margin
import Mathlib.Data.List.Find
import Mathlib.Data.List.TakeWhile

/-!
Calls in a line with and without what stands around its text.

White space before a line, and white space and colons behind it, are no part of a name, of a call
keyword or of a pair of parentheses, so that a line has calls of a function just if its text has.
-/

namespace Flowchart

open Text

namespace Text

/-! ## Padding -/

structure IsPadding (c : Char) : Prop where
  notWord : isWord c = false
  notDot : c ≠ '.'
  notOpening : c ≠ '('
  notClosing : c ≠ ')'
  fold_eq : fold c = c

def blankGaps : List (Nat × Nat) :=
  [(0x80, 0xA9), (0x1680, 0x1680), (0x1FFD, 0x206F), (0x2E30, 0x3004)]

theorem blankGaps_apart : ∀ gap ∈ blankGaps,
    (∀ range ∈ alphanumericCodes, range.2 < gap.1 ∨ gap.2 < range.1) ∧
      (∀ run ∈ capitalRuns, run.last < gap.1 ∨ gap.2 < run.first) ∧
      ∀ row ∈ letterVariants, row.1 < gap.1 ∨ gap.2 < row.1 := by
  decide +kernel

section

variable {c : Char} (blank : isBlank c = true)

include blank

theorem exists_blankGap (wide : ¬c.toNat < 128) :
    ∃ gap ∈ blankGaps, gap.1 ≤ c.toNat ∧ c.toNat ≤ gap.2 := by
  simp only [isBlank, Bool.or_eq_true, Bool.and_eq_true, decide_eq_true_eq, beq_iff_eq] at blank
  simp only [blankGaps, List.mem_cons, List.not_mem_nil, or_false, exists_eq_or_imp,
    exists_eq_left]
  omega

theorem isWord_of_isBlank : isWord c = false := by
  by_cases ascii : c.toNat < 128
  · exact forall_of_ascii (fun c => isBlank c = true → isWord c = false) (by decide) c ascii blank
  rcases exists_blankGap blank ascii with ⟨gap, isGap, above, below⟩
  rw [isWord_of_wide ascii, CodeSet.contains, List.any_eq_false]
  intro range member inside
  have outside := (blankGaps_apart gap isGap).1 range member
  simp only [Bool.and_eq_true, decide_eq_true_eq] at inside
  omega

theorem fold_of_isBlank : fold c = c := by
  by_cases ascii : c.toNat < 128
  · exact forall_of_ascii (fun c => isBlank c = true → fold c = c) (by decide) c ascii blank
  rcases exists_blankGap blank ascii with ⟨gap, isGap, above, below⟩
  have small : lowerChar c = c := by
    rcases lowerChar_cases ascii with same | ⟨run, member, fromFirst, toLast, _⟩
    · exact same
    · have outside := (blankGaps_apart gap isGap).2.1 run member
      omega
  have noVariant : letterVariants.find? (·.1 == c.toNat) = none := by
    rw [List.find?_eq_none]
    intro row member same
    have outside := (blankGaps_apart gap isGap).2.2 row member
    rw [beq_iff_eq] at same
    omega
  rw [fold, small, if_neg ascii, noVariant]

theorem isPadding_of_isBlank : IsPadding c := by
  have other {sign : Char} (seen : isBlank sign = false) : c ≠ sign := by
    rintro rfl
    rw [seen] at blank
    cases blank
  exact ⟨isWord_of_isBlank blank, other rfl, other rfl, other rfl, fold_of_isBlank blank⟩

end

theorem isPadding_colon : IsPadding ':' :=
  ⟨by decide, by decide, by decide, by decide, by decide⟩

theorem isWord_fold {c : Char} (word : isWord c = true) : isWord (fold c) = true := by
  have variants : ∀ row ∈ letterVariants, isWord (Char.ofNat row.2) = true := by decide +kernel
  rw [fold]
  split
  · exact isWord_lowerChar word
  split
  · rename_i found
    exact variants _ (List.mem_of_find?_eq_some found)
  · exact isWord_lowerChar word

theorem any_head?_append {property : Char → Bool} {text more : List Char}
    (none : ∀ c ∈ more, property c = false) :
    (text ++ more).head?.any property = text.head?.any property := by
  cases text with
  | cons c text => rfl
  | nil =>
      cases more with
      | nil => rfl
      | cons c more => exact none c List.mem_cons_self

namespace Place

def pad (front back : List Char) (place : Place) : Place :=
  ⟨place.before ++ front, place.after ++ back⟩

variable {front back : List Char}

theorem atEdge_pad (frontPads : ∀ c ∈ front, IsPadding c) (backPads : ∀ c ∈ back, IsPadding c)
    (place : Place) : (place.pad front back).atEdge = place.atEdge := by
  rw [atEdge, atEdge, pad, any_head?_append fun c member => (frontPads c member).notWord,
    any_head?_append fun c member => (backPads c member).notWord]

theorem take?_pad (backPads : ∀ c ∈ back, IsPadding c) {letters : List Char} :
    ∀ {place : Place}, (∀ letter ∈ letters, isWord letter = true) →
      (place.pad front back).take? fold letters =
        (place.take? fold letters).map (pad front back) := by
  induction letters with
  | nil => exact fun _ => rfl
  | cons letter letters induction =>
      rintro ⟨before, after⟩ words
      cases after with
      | cons c after =>
          have later := @induction ⟨c :: before, after⟩ fun other member =>
            words other (List.mem_cons_of_mem _ member)
          rw [take?, pad, List.cons_append, take?]
          split
          · exact later
          · rfl
      | nil =>
          cases behind : back with
          | nil => rfl
          | cons c more =>
              have padding := backPads c (behind ▸ List.mem_cons_self)
              have other : fold c ≠ letter := by
                rintro rfl
                have word := words (fold c) List.mem_cons_self
                rw [padding.fold_eq, padding.notWord] at word
                cases word
              rw [pad, List.nil_append, take?, if_neg other]
              rfl

end Place

end Text

namespace Call

/-! ## Occurrences -/

section

variable {front back : List Char}

theorem nameEnd?_pad (frontPads : ∀ c ∈ front, IsPadding c) (backPads : ∀ c ∈ back, IsPadding c)
    {name : List Char} (words : ∀ c ∈ name, isWord c = true) (place : Place) :
    nameEnd? name (place.pad front back) = (nameEnd? name place).map (Place.pad front back) := by
  have folded : ∀ letter ∈ name.map fold, isWord letter = true := by
    intro letter member
    rcases List.mem_map.mp member with ⟨c, inName, rfl⟩
    exact isWord_fold (words c inName)
  have inside : ((place.pad front back).before.head?.any fun c => isWord c || c = '.') =
      place.before.head?.any fun c => isWord c || c = '.' :=
    any_head?_append fun c member => by
      simp [(frontPads c member).notWord, (frontPads c member).notDot]
  rw [nameEnd?, nameEnd?, inside, Place.take?_pad backPads folded]
  split
  · rfl
  · cases place.take? fold (name.map fold) with
    | none => rfl
    | some stop =>
        rw [Option.map_some, Option.filter_some, Option.filter_some,
          Place.atEdge_pad frontPads backPads]
        split <;> rfl

theorem nameEnd?_of_isPadding {name : List Char} (words : ∀ c ∈ name, isWord c = true)
    (some : name ≠ []) {c : Char} (padding : IsPadding c) (before after : List Char) :
    nameEnd? name ⟨before, c :: after⟩ = none := by
  cases name with
  | nil => exact absurd rfl some
  | cons first name =>
      have other : fold c ≠ fold first := by
        intro same
        have word := isWord_fold (words first List.mem_cons_self)
        rw [← same, padding.fold_eq, padding.notWord] at word
        cases word
      rw [nameEnd?, List.map_cons, Place.take?, if_neg other]
      split <;> rfl

theorem occurrences_of_isPadding {name : List Char} (words : ∀ c ∈ name, isWord c = true)
    (some : name ≠ []) (backPads : ∀ c ∈ back, IsPadding c) (skip : Nat) (before : List Char) :
    occurrences name skip before back = [] := by
  induction back generalizing skip before with
  | nil => rfl
  | cons c back induction =>
      have later := induction fun other member => backPads other (List.mem_cons_of_mem _ member)
      cases skip with
      | zero =>
          rw [occurrences, nameEnd?_of_isPadding words some (backPads c List.mem_cons_self)]
          exact later 0 _
      | succ skip => exact later skip _

theorem occurrences_append_of_isPadding {name : List Char} (words : ∀ c ∈ name, isWord c = true)
    (some : name ≠ []) (frontPads : ∀ c ∈ front, IsPadding c) (before text : List Char) :
    occurrences name 0 before (front ++ text) =
      occurrences name 0 (front.reverse ++ before) text := by
  induction front generalizing before with
  | nil => rfl
  | cons c front induction =>
      rw [List.cons_append, occurrences,
        nameEnd?_of_isPadding words some (frontPads c List.mem_cons_self), List.reverse_cons,
        List.append_assoc]
      exact induction (fun other member => frontPads other (List.mem_cons_of_mem _ member)) _

theorem occurrences_pad {name : List Char} (words : ∀ c ∈ name, isWord c = true)
    (some : name ≠ []) (frontPads : ∀ c ∈ front, IsPadding c) (backPads : ∀ c ∈ back, IsPadding c)
    (text : List Char) (skip : Nat) (before : List Char) :
    occurrences name skip (before ++ front) (text ++ back) =
      (occurrences name skip before text).map
        (Prod.map (Place.pad front back) (Place.pad front back)) := by
  induction text generalizing skip before with
  | nil => exact occurrences_of_isPadding words some backPads skip _
  | cons c text induction =>
      cases skip with
      | succ skip => exact induction skip (c :: before)
      | zero =>
          have ends := nameEnd?_pad frontPads backPads words ⟨before, c :: text⟩
          rw [Place.pad, List.cons_append] at ends
          rw [List.cons_append, occurrences, occurrences, ends]
          cases nameEnd? name ⟨before, c :: text⟩ with
          | none => exact induction 0 (c :: before)
          | some stop =>
              rw [Option.map_some, List.map_cons, ← induction (name.length - 1) (c :: before)]
              rfl

end

/-! ## Sites -/

def opened? (text : List Char) : Option (List Char) := Phrase.after? id [.gap, .text "("] text

theorem opened?_eq_some_iff {text inside : List Char} :
    opened? text = some inside ↔ text.dropWhile isBlank = '(' :: inside := by
  rw [opened?, Phrase.after?, Phrase.fit?_cons, Piece.fit?, Option.bind_some, Phrase.fit?_cons,
    Piece.fit?]
  have parenthesis : "(".toList = ['('] := rfl
  rw [parenthesis, Place.skip, Place.start]
  dsimp only
  cases text.dropWhile isBlank with
  | nil => simp [Place.take?]
  | cons c rest =>
      by_cases same : c = '('
      · simp [Place.take?, same, Phrase.fit?]
      · simp [Place.take?, same]

section

variable {front back : List Char}

theorem opened?_append (backPads : ∀ c ∈ back, IsPadding c) (text : List Char) :
    opened? (text ++ back) = (opened? text).map (· ++ back) := by
  refine Option.ext fun inside => ?_
  rw [Option.map_eq_some_iff, opened?_eq_some_iff]
  simp only [opened?_eq_some_iff]
  rw [List.dropWhile_append]
  cases left : text.dropWhile isBlank with
  | nil =>
      constructor
      · intro opens
        rw [List.isEmpty_nil, if_pos rfl] at opens
        have member : '(' ∈ back :=
          (List.dropWhile_sublist isBlank).subset (opens ▸ List.mem_cons_self)
        exact absurd rfl (backPads '(' member).notOpening
      · rintro ⟨_, impossible, _⟩
        cases impossible
  | cons c rest =>
      rw [List.isEmpty_cons, if_neg (by simp), List.cons_append]
      constructor
      · rintro opens
        cases opens
        exact ⟨rest, rfl, rfl⟩
      · rintro ⟨inside, opens, rfl⟩
        cases opens
        rfl

theorem closingOffset?_of_isPadding (backPads : ∀ c ∈ back, IsPadding c) (depth : Int) :
    closingOffset? depth back = none := by
  induction back generalizing depth with
  | nil => rfl
  | cons c back induction =>
      have later := induction (fun other member => backPads other (List.mem_cons_of_mem _ member))
      rw [closingOffset?, if_neg (backPads c List.mem_cons_self).notClosing, later]
      rfl

theorem closingOffset?_append (backPads : ∀ c ∈ back, IsPadding c) (text : List Char)
    (depth : Int) : closingOffset? depth (text ++ back) = closingOffset? depth text := by
  induction text generalizing depth with
  | nil => exact closingOffset?_of_isPadding backPads depth
  | cons c text induction =>
      rw [List.cons_append, closingOffset?, closingOffset?, induction, induction]

def endsKeyword (rest : List Char) (keyword : String) : Bool :=
  (rest.take keyword.length).map fold = keyword.toList.reverse &&
    !(rest.drop keyword.length).head?.any isWord

theorem endsKeyword_append (frontPads : ∀ c ∈ front, IsPadding c) {keyword : String}
    (isKeyword : keyword ∈ callKeywords) (rest : List Char) :
    endsKeyword (rest ++ front) keyword = endsKeyword rest keyword := by
  have words : ∀ keyword ∈ callKeywords, ∀ c ∈ keyword.toList, isWord c = true := by
    simp only [← List.all_eq_true]
    decide
  rcases Nat.lt_or_ge rest.length keyword.length with short | long
  · -- The keyword does not fit, so that a letter of it would stand in the white space.
    have without : endsKeyword rest keyword = false := by
      rw [endsKeyword, Bool.and_eq_false_iff, decide_eq_false_iff_not]
      refine .inl fun same => ?_
      have lengths := congrArg List.length same
      simp only [List.length_map, List.length_take, List.length_reverse,
        String.length_toList] at lengths
      omega
    have within : endsKeyword (rest ++ front) keyword = false := by
      rw [endsKeyword, Bool.and_eq_false_iff, decide_eq_false_iff_not]
      refine .inl fun same => ?_
      have lengths := congrArg List.length same
      rw [List.take_append, List.map_append] at same
      simp only [List.length_map, List.length_take, List.length_append, List.length_reverse,
        String.length_toList] at lengths
      cases behind : front.take (keyword.length - rest.length) with
      | nil =>
          have none := congrArg List.length behind
          simp only [List.length_take, List.length_nil] at none
          omega
      | cons c more =>
          have padding : IsPadding c :=
            frontPads c (List.take_subset _ _ (behind ▸ List.mem_cons_self))
          have letter : c ∈ keyword.toList := by
            rw [← List.mem_reverse, ← same, behind, List.map_cons, padding.fold_eq]
            exact List.mem_append_right _ List.mem_cons_self
          have word := words keyword isKeyword c letter
          rw [padding.notWord] at word
          cases word
    rw [without, within]
  · rw [endsKeyword, endsKeyword, List.take_append_of_le_length long,
      List.drop_append_of_le_length long,
      any_head?_append fun c member => (frontPads c member).notWord]

theorem keywordBefore?_eq (before : List Char) :
    keywordBefore? before =
      if (before.takeWhile isBlank).length = 0 then none
      else (callKeywords.find? (endsKeyword (before.dropWhile isBlank))).map
        fun keyword => (before.takeWhile isBlank).length + keyword.length := rfl

theorem keywordBefore?_append (frontBlank : ∀ c ∈ front, isBlank c = true) (before : List Char) :
    keywordBefore? (before ++ front) = keywordBefore? before := by
  have frontPads : ∀ c ∈ front, IsPadding c := fun c member =>
    isPadding_of_isBlank (frontBlank c member)
  rw [keywordBefore?_eq, keywordBefore?_eq, List.takeWhile_append, List.dropWhile_append]
  cases left : before.dropWhile isBlank with
  | nil =>
      have nothing : front.dropWhile isBlank = [] := List.dropWhile_eq_nil_iff.mpr frontBlank
      have noKeyword : callKeywords.find? (endsKeyword []) = none := by decide
      rw [List.isEmpty_nil, if_pos rfl, nothing, noKeyword, Option.map_none, Option.map_none,
        ite_self, ite_self]
  | cons c rest =>
      have whole := congrArg List.length (before.takeWhile_append_dropWhile (p := isBlank))
      rw [left, List.length_append, List.length_cons] at whole
      have same : callKeywords.find? (endsKeyword (c :: rest ++ front)) =
          callKeywords.find? (endsKeyword (c :: rest)) :=
        List.find?_congr fun _ isKeyword => endsKeyword_append frontPads isKeyword _
      rw [if_neg (by omega : ¬(before.takeWhile isBlank).length = before.length),
        List.isEmpty_cons, if_neg Bool.false_ne_true, same]

theorem isSome_siteAt? (name : List Char) (start stop : Place) :
    (siteAt? name start stop).isSome = match opened? stop.after with
      | some inside => (closingOffset? 1 inside).isSome
      | none => (keywordBefore? start.before).isSome := by
  rw [siteAt?, opened?]
  cases Phrase.after? id [.gap, .text "("] stop.after with
  | none => simp
  | some inside => simp

theorem isSome_siteAt?_pad (frontBlank : ∀ c ∈ front, isBlank c = true)
    (backPads : ∀ c ∈ back, IsPadding c) (name : List Char) (start stop : Place) :
    (siteAt? name (start.pad front back) (stop.pad front back)).isSome =
      (siteAt? name start stop).isSome := by
  rw [isSome_siteAt?, isSome_siteAt?, Place.pad, Place.pad]
  dsimp only
  rw [opened?_append backPads, keywordBefore?_append frontBlank]
  cases opened? stop.after with
  | none => rfl
  | some inside =>
      rw [Option.map_some]
      dsimp only
      rw [closingOffset?_append backPads]

/-- A line has calls of a function just if its text has, between white space and what ends it. -/
theorem findCalls_pad {name : List Char} (words : ∀ c ∈ name, isWord c = true)
    (frontBlank : ∀ c ∈ front, isBlank c = true) (backPads : ∀ c ∈ back, IsPadding c)
    (text : List Char) :
    findCalls (front ++ (text ++ back)) name = [] ↔ findCalls text name = [] := by
  by_cases empty : name = []
  · simp [findCalls, empty]
  have frontPads : ∀ c ∈ front, IsPadding c := fun c member =>
    isPadding_of_isBlank (frontBlank c member)
  have reversed : ∀ c ∈ front.reverse, IsPadding c := fun c member =>
    frontPads c (List.mem_reverse.mp member)
  have padded := occurrences_pad words empty reversed backPads text 0 []
  rw [List.nil_append] at padded
  rw [findCalls, findCalls, if_neg (by simpa using empty), if_neg (by simpa using empty),
    occurrences_append_of_isPadding words empty frontPads, List.append_nil, padded,
    List.filterMap_map, List.filterMap_eq_nil_iff, List.filterMap_eq_nil_iff]
  refine forall₂_congr fun places _ => ?_
  have same := isSome_siteAt?_pad (fun c member => frontBlank c (List.mem_reverse.mp member))
    backPads name places.1 places.2
  rw [← Option.not_isSome_iff_eq_none, ← Option.not_isSome_iff_eq_none]
  exact not_congr (Bool.eq_iff_iff.mp same)

theorem findCalls_content {name : List Char} (words : ∀ c ∈ name, isWord c = true)
    (line : List Char) : findCalls (Outline.content line) name = [] ↔ findCalls line name = [] := by
  rcases Outline.exists_content line with ⟨front, back, split, frontBlank, backPads⟩
  have pads : ∀ c ∈ back, IsPadding c := by
    intro c member
    rcases backPads c member with blank | colon
    · exact isPadding_of_isBlank blank
    · exact colon ▸ isPadding_colon
  have whole := findCalls_pad words frontBlank pads (Outline.content line)
  rw [← split] at whole
  exact whole.symm

end

end Call

end Flowchart
