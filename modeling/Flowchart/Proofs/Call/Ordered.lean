import Flowchart.Proofs.Call.Found

/-!
The order of the calls in a line.

Calls are found in the order in which they begin. A call with a keyword begins at the keyword, but
no other occurrence of the name between the keyword and the name of the call is a call itself.
-/

namespace Flowchart

open Text

namespace Call

/-! ## Occurrences one after another -/

theorem exists_of_nameEnd? {name : List Char} {start stop : Place}
    (ends : nameEnd? name start = some stop) :
    start.before.head?.any isWord = false ∧ stop.atEdge = true ∧
      ∃ letters, letters.map fold = name.map fold ∧ start.after = letters ++ stop.after ∧
        stop.before = letters.reverse ++ start.before := by
  rw [nameEnd?] at ends
  split at ends
  · cases ends
  · rename_i alone
    rcases Option.filter_eq_some_iff.mp ends with ⟨taken, edge⟩
    rcases exists_of_take? taken with ⟨letters, split, viewed, passed⟩
    refine ⟨?_, edge, letters, viewed, split, passed⟩
    rw [Bool.not_eq_true, Option.any_eq_false] at alone
    rw [Option.any_eq_false]
    intro c first
    exact (Bool.or_eq_false_iff.mp (alone c first)).1

theorem nameEnd?_of_mem_occurrences {name : List Char} {skip : Nat} {before after : List Char}
    {places : Place × Place} (member : places ∈ occurrences name skip before after) :
    nameEnd? name places.1 = some places.2 := by
  induction after generalizing skip before with
  | nil => cases member
  | cons c after induction =>
      cases skip with
      | succ skip => exact induction member
      | zero =>
          rw [occurrences] at member
          split at member
          · rename_i ends
            rcases List.mem_cons.mp member with rfl | later
            · exact ends
            · exact induction later
          · exact induction member

def ComesBefore (first second : Place × Place) : Prop :=
  ∃ between, second.1.before = between.reverse ++ first.2.before ∧
    first.2.after = between ++ second.1.after

theorem occurrences_pairwise {name : List Char} (skip : Nat) (before after : List Char) :
    (occurrences name skip before after).Pairwise ComesBefore := by
  induction after generalizing skip before with
  | nil => exact List.Pairwise.nil
  | cons c after induction =>
      cases skip with
      | succ skip => exact induction skip _
      | zero =>
          rw [occurrences]
          split
          · rename_i stop ends
            refine List.pairwise_cons.mpr ⟨fun second later => ?_, induction _ _⟩
            rcases exists_of_nameEnd? ends with ⟨_, _, letters, viewed, split, passed⟩
            rcases exists_of_mem_occurrences later with ⟨skipped, passes, rest, enough⟩
            have same : name.length = letters.length := by
              have lengths := congrArg List.length viewed
              rw [List.length_map, List.length_map] at lengths
              exact lengths.symm
            have whole : letters ++ stop.after = (c :: skipped) ++ second.1.after := by
              rw [← split, rest, List.cons_append]
            rcases List.append_eq_append_iff.mp whole with
              ⟨between, isSkipped, isRest⟩ | ⟨more, isLetters, isRest⟩
            · refine ⟨between, ?_, isRest⟩
              rw [passes, passed, ← List.append_assoc, ← List.reverse_append, ← isSkipped,
                List.reverse_cons, List.append_assoc, List.singleton_append]
            · have lengths := congrArg List.length isLetters
              rw [List.length_append, List.length_cons] at lengths
              have none : more = [] := List.eq_nil_of_length_eq_zero (by omega)
              subst none
              rw [List.append_nil] at isLetters
              rw [List.nil_append] at isRest
              refine ⟨[], ?_, isRest.symm⟩
              rw [passes, passed, isLetters, List.reverse_cons, List.append_assoc,
                List.singleton_append, List.reverse_nil, List.nil_append]
          · exact induction _ _

/-! ## Where a call begins -/

theorem start_siteAt? {name : List Char} {start stop : Place} {site : CallSite}
    (isSite : siteAt? name start stop = some site) :
    site.start = start.offset - (keywordBefore? start.before).getD 0 ∧ stop.offset ≤ site.stop ∧
      ((keywordBefore? start.before).isSome = true ∨
        ∃ inside, opened? stop.after = some inside) := by
  rw [siteAt?] at isSite
  split at isSite
  · rename_i inside opens
    rcases Option.map_eq_some_iff.mp isSite with ⟨length, _, rfl⟩
    exact ⟨rfl, by simp only; omega, .inr ⟨inside, opens⟩⟩
  · rcases Option.map_eq_some_iff.mp isSite with ⟨length, found, rfl⟩
    exact ⟨rfl, Nat.le_refl _, .inl (by rw [found]; rfl)⟩

theorem isNameStart_of_mem_keyword {keyword : String} (isKeyword : keyword ∈ callKeywords)
    {c : Char} (letter : c ∈ keyword.toList) : isNameStart c = true := by
  have letters : ∀ keyword ∈ callKeywords, keyword.toList.all isNameStart = true := by decide
  exact List.all_eq_true.mp (letters keyword isKeyword) c letter

section

variable {letters before between after : List Char} (some : letters ≠ [])
  (edge : Place.atEdge ⟨letters.reverse ++ before, between ++ after⟩ = true)
  {next : List Char} (again : next.map fold = letters.map fold) {rest : List Char}
  (isNext : after = next ++ rest)
include some again isNext

theorem exists_first_letter : ∃ c more d others, letters = c :: more ∧ after = d :: others ∧
    fold d = fold c := by
  cases letters with
  | nil => exact absurd rfl some
  | cons c more =>
      cases next with
      | nil => cases again
      | cons d others => exact ⟨c, more, d, others ++ rest, rfl, isNext, (List.cons.inj again).1⟩

include edge

theorem exists_not_isBlank : ¬∀ c ∈ letters ++ between, isBlank c = true := by
  intro blank
  have last : (letters.reverse ++ before).head?.any isWord = false := by
    rw [List.head?_append_of_ne_nil _ (by simpa using some), List.head?_reverse,
      List.getLast?_eq_some_getLast some]
    exact isWord_of_isBlank (blank _ (List.mem_append_left _ (List.getLast_mem some)))
  have behind : (between ++ after).head?.any isWord = false := by
    cases between with
    | cons c between => exact isWord_of_isBlank (blank c (by simp))
    | nil =>
        rcases exists_first_letter some again isNext with ⟨c, more, d, others, rfl, rfl, same⟩
        have isBlank := blank c (by simp)
        rw [fold_of_isBlank isBlank] at same
        show isWord d = false
        rw [← Bool.not_eq_true]
        intro word
        have wordThen := isWord_fold word
        rw [same, isWord_of_isBlank isBlank] at wordThen
        cases wordThen
  rw [Place.atEdge, last, behind] at edge
  cases edge

omit edge in
theorem opened?_eq_none (starts : letters.head?.any (fun c => isNameStart (fold c)) = true)
    (blank : ∀ c ∈ between, isBlank c = true) : opened? (between ++ after) = none := by
  rcases exists_first_letter some again isNext with ⟨c, more, d, others, rfl, rfl, same⟩
  have starts : isNameStart (fold c) = true := starts
  rw [← same] at starts
  have seen : isBlank d = false := by
    rw [← Bool.not_eq_true]
    intro isBlank
    have word := isWord_of_isNameStart_fold starts
    rw [isWord_of_isBlank isBlank] at word
    cases word
  rw [← Option.not_isSome_iff_eq_none, Option.isSome_iff_exists]
  rintro ⟨inside, opens⟩
  rw [opened?_eq_some_iff, List.dropWhile_append_of_pos blank,
    List.dropWhile_cons_of_neg (by simp [seen])] at opens
  cases (List.cons.inj opens).1
  cases starts

end

theorem length_eq_of_endsKeyword {covered before : List Char} {keyword : String}
    (isKeyword : keyword ∈ callKeywords) (ends : endsKeyword (covered ++ before) keyword = true)
    (short : covered.length ≤ keyword.length) (alone : before.head?.any isWord = false) :
    covered.length = keyword.length ∧ ∀ c ∈ covered, isNameStart (fold c) = true := by
  rw [endsKeyword, Bool.and_eq_true, decide_eq_true_eq, List.take_append,
    List.take_of_length_le short, List.map_append] at ends
  have starts {c : Char} (member : fold c ∈ covered.map fold ++
      (before.take (keyword.length - covered.length)).map fold) : isNameStart (fold c) = true :=
    isNameStart_of_mem_keyword isKeyword (List.mem_reverse.mp (ends.1 ▸ member))
  refine ⟨?_, fun c member => starts (List.mem_append_left _ (List.mem_map_of_mem member))⟩
  by_contra shorter
  have lengths := congrArg List.length ends.1
  simp only [List.length_append, List.length_map, List.length_take, List.length_reverse,
    String.length_toList] at lengths
  cases before with
  | nil => simp at lengths; omega
  | cons c before =>
      rcases Nat.exists_eq_add_of_lt (Nat.lt_of_le_of_ne short shorter) with ⟨count, isLength⟩
      have member : c ∈ (c :: before).take (keyword.length - covered.length) := by
        have one : keyword.length - covered.length = count + 1 := by omega
        rw [one, List.take_succ_cons]
        exact List.mem_cons_self
      have word := isWord_of_isNameStart_fold
        (starts (List.mem_append_right _ (List.mem_map_of_mem member)))
      have noWord : isWord c = false := alone
      rw [noWord] at word
      cases word

/-- A name on its own that begins with a keyword does not end inside it, so that only white space
is left behind it. -/
theorem isBlank_behind_keyword {letters before between after covered blanks : List Char}
    (filled : covered ≠ [])
    (edge : Place.atEdge ⟨letters.reverse ++ before, between ++ after⟩ = true)
    (some : letters ≠ []) (areLetters : ∀ c ∈ covered, isNameStart (fold c) = true)
    (areBlank : ∀ c ∈ blanks, isBlank c = true) (split : letters ++ between = covered ++ blanks) :
    letters.head?.any (fun c => isNameStart (fold c)) = true ∧ ∀ c ∈ between, isBlank c = true := by
  have head : letters.head?.any (fun c => isNameStart (fold c)) = true := by
    have same : (letters ++ between).head? = (covered ++ blanks).head? := by rw [split]
    rw [List.head?_append_of_ne_nil _ some, List.head?_append_of_ne_nil _ filled,
      List.head?_eq_some_head filled] at same
    rw [same]
    exact areLetters _ (List.head_mem filled)
  rcases List.append_eq_append_iff.mp split with ⟨more, isCovered, isBetween⟩ | ⟨more, _, isBlanks⟩
  · cases more with
    | nil => exact ⟨head, fun c member => areBlank c (by rwa [isBetween] at member)⟩
    | cons c more =>
        have last : (letters.reverse ++ before).head?.any isWord = true := by
          rw [List.head?_append_of_ne_nil _ (by simpa using some), List.head?_reverse,
            List.getLast?_eq_some_getLast some]
          refine isWord_of_isNameStart_fold (areLetters _ ?_)
          rw [isCovered]
          exact List.mem_append_left _ (List.getLast_mem some)
        have next : (between ++ after).head?.any isWord = true := by
          rw [isBetween]
          exact isWord_of_isNameStart_fold (areLetters c (by rw [isCovered]; simp))
        rw [Place.atEdge, last, next] at edge
        cases edge
  · refine ⟨head, fun c member => areBlank c ?_⟩
    rw [isBlanks]
    exact List.mem_append_right _ member

/-- A keyword that reaches over a name on its own reaches no further. The name begins with the
keyword, and only white space is left behind it. -/
theorem name_of_keywordBefore? {letters before between after next rest : List Char} {length : Nat}
    (some : letters ≠ [])
    (edge : Place.atEdge ⟨letters.reverse ++ before, between ++ after⟩ = true)
    (again : next.map fold = letters.map fold) (isNext : after = next ++ rest)
    (alone : before.head?.any isWord = false)
    (found : keywordBefore? ((letters ++ between).reverse ++ before) = .some length)
    (reaches : (letters ++ between).length ≤ length) :
    length = (letters ++ between).length ∧
      letters.head?.any (fun c => isNameStart (fold c)) = true ∧
      ∀ c ∈ between, isBlank c = true := by
  rcases exists_of_keywordBefore? found with
    ⟨blanks, blank, behind, keyword, parts, areBlank, isKeyword, ends, rfl⟩
  rw [← List.singleton_append, ← List.append_assoc blanks] at parts
  rcases List.append_eq_append_iff.mp parts with ⟨more, isBlanks, _⟩ | ⟨covered, isName, isRest⟩
  · refine absurd (fun c member => areBlank c ?_) (exists_not_isBlank some edge again isNext)
    rw [isBlanks]
    exact List.mem_append_left _ (List.mem_reverse.mpr member)
  · subst isRest
    have lengths := congrArg List.length isName
    simp only [List.length_append, List.length_reverse, List.length_singleton] at lengths reaches
    rcases length_eq_of_endsKeyword isKeyword ends (by omega) alone with ⟨whole, areLetters⟩
    have someCovered : covered.reverse ≠ [] := by
      have long : ∀ keyword ∈ callKeywords, keyword.length ≠ 0 := by decide
      rintro none
      rw [List.reverse_eq_nil_iff.mp none] at whole
      exact long keyword isKeyword whole.symm
    have line : letters ++ between = covered.reverse ++ (blanks ++ [blank]).reverse := by
      rw [← List.reverse_append, ← isName, List.reverse_reverse]
    refine ⟨?_, isBlank_behind_keyword someCovered edge some
      (fun c member => areLetters c (List.mem_reverse.mp member))
      (fun c member => areBlank c (List.mem_reverse.mp member)) line⟩
    rw [List.length_append]
    omega

theorem sub_keywordBefore?_lt {before : List Char} {length : Nat}
    (found : keywordBefore? before = some length) : before.length - length < before.length := by
  rcases exists_of_keywordBefore? found with ⟨_, _, _, _, rfl, _, _, _, rfl⟩
  simp only [List.length_append, List.length_cons]
  omega

/-- Calls begin in the order of their names. -/
theorem start_lt_start {name : List Char} (some : name ≠ []) {first second : Place × Place}
    (firstEnds : nameEnd? name first.1 = .some first.2)
    (secondEnds : nameEnd? name second.1 = .some second.2) (comes : ComesBefore first second)
    {site other : CallSite} (isSite : siteAt? name first.1 first.2 = .some site)
    (isOther : siteAt? name second.1 second.2 = .some other) : site.start < other.start := by
  obtain ⟨⟨before, text⟩, ⟨passed, behind⟩⟩ := first
  obtain ⟨⟨beforeNext, after⟩, stop⟩ := second
  rcases exists_of_nameEnd? firstEnds with ⟨alone, edge, letters, viewed, split, isPassed⟩
  rcases exists_of_nameEnd? secondEnds with ⟨_, _, next, viewedNext, isNext, _⟩
  rcases comes with ⟨between, isBefore, isBehind⟩
  rcases start_siteAt? isSite with ⟨starts, _, called⟩
  rcases start_siteAt? isOther with ⟨startsNext, _, _⟩
  dsimp only at alone split isPassed isNext isBefore isBehind starts called startsNext
  subst split isPassed isBehind
  have filled : letters ≠ [] := by
    rintro rfl
    exact some (List.map_eq_nil_iff.mp viewed.symm)
  have again : next.map fold = letters.map fold := viewedNext.trans viewed.symm
  have isBefore : beforeNext = (letters ++ between).reverse ++ before := by
    rw [isBefore, List.reverse_append, List.append_assoc]
  subst isBefore
  have atLeast : 0 < letters.length := List.length_pos_iff.mpr filled
  simp only [Place.offset, List.length_append, List.length_reverse] at starts startsNext
  by_contra reaches
  cases found : keywordBefore? ((letters ++ between).reverse ++ before) with
  | none =>
      rw [found, Option.getD_none] at startsNext
      omega
  | some length =>
      rw [found, Option.getD_some] at startsNext
      rcases name_of_keywordBefore? filled edge again isNext alone found
        (by rw [List.length_append]; omega) with ⟨whole, head, blankBetween⟩
      rw [List.length_append] at whole
      -- The keyword is the name of the first call, which has none before it and opens nothing.
      rcases called with keyword | ⟨inside, opens⟩
      · rcases Option.isSome_iff_exists.mp keyword with ⟨own, isOwn⟩
        have earlier := sub_keywordBefore?_lt isOwn
        rw [isOwn, Option.getD_some] at starts
        omega
      · rw [opened?_eq_none filled again isNext head blankBetween] at opens
        cases opens

end Call

/-! ## The calls of a line -/

structure AreCalls (text : List Char) (sites : List CallSite) : Prop where
  ordered : sites.Pairwise fun site other => site.start < other.start
  filled : ∀ site ∈ sites, site.start < site.stop
  inside : ∀ site ∈ sites, site.start < text.length

theorem areCalls_findCalls (line name : List Char) : AreCalls line (findCalls line name) := by
  by_cases none : name = []
  · rw [findCalls, if_pos (by simp [none])]
    exact ⟨List.Pairwise.nil, List.forall_mem_nil _, List.forall_mem_nil _⟩
  have found {site : CallSite} (member : site ∈ findCalls line name) :
      site.start < site.stop ∧ site.start < line.length := by
    rw [findCalls, if_neg (by simpa using none)] at member
    rcases List.mem_filterMap.mp member with ⟨⟨start, stop⟩, occurs, isSite⟩
    rcases Call.start_siteAt? isSite with ⟨starts, stops, _⟩
    rcases Call.exists_of_mem_occurrences occurs with ⟨passed, isBefore, isLine, _⟩
    rcases Call.exists_of_nameEnd? (Call.nameEnd?_of_mem_occurrences occurs) with
      ⟨_, _, letters, viewed, isAfter, isPassed⟩
    have long : 0 < letters.length := by
      rw [← List.length_map (f := fold), viewed, List.length_map]
      exact List.length_pos_iff.mpr none
    dsimp only at isAfter isPassed
    rw [List.append_nil] at isBefore
    simp only [Place.offset, isPassed, isBefore, List.length_append, List.length_reverse]
      at starts stops
    rw [isLine, isAfter]
    simp only [List.length_append]
    omega
  refine ⟨?_, fun site member => (found member).1, fun site member => (found member).2⟩
  rw [findCalls, if_neg (by simpa using none)]
  refine List.pairwise_filterMap.mpr ((Call.occurrences_pairwise 0 [] line).imp_of_mem ?_)
  intro first second occurs occursNext comes site isSite other isOther
  exact Call.start_lt_start none (Call.nameEnd?_of_mem_occurrences occurs)
    (Call.nameEnd?_of_mem_occurrences occursNext) comes isSite isOther

end Flowchart
