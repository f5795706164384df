import Flowchart.Proofs.Call.Arguments
import Flowchart.Proofs.Call.Padding

/-!
Calls that are found with all of their arguments.

A call reaches up to the parenthesis that closes the one behind its name. Quotes do not count for
that, though they do where the arguments are split. So a call is found as a whole just if the
parentheses in all of its arguments are balanced, those in quotes included.
-/

namespace Flowchart

open Text

namespace Call

/-! ## Closing parentheses -/

theorem closesAll_cons {opening closing first : Char} {pending : Nat} {text : List Char} :
    ClosesAll opening closing pending (first :: text) ↔
      [first].count closing ≤ [first].count opening + pending ∧
        ClosesAll opening closing (pending + [first].count opening - [first].count closing)
          text := by
  have counts (c : Char) (rest : List Char) :
      (first :: rest).count c = [first].count c + rest.count c := by
    rw [← List.singleton_append, List.count_append]
  constructor
  · rintro ⟨opened, closed⟩
    have atFirst := opened [first] ⟨text, rfl⟩
    refine ⟨atFirst, fun before front => ?_, ?_⟩
    · have later := opened (first :: before) (List.cons_prefix_cons.mpr ⟨rfl, front⟩)
      rw [counts closing before, counts opening before] at later
      omega
    · rw [counts closing text, counts opening text] at closed
      omega
  · rintro ⟨atFirst, opened, closed⟩
    refine ⟨fun before front => ?_, ?_⟩
    · rcases List.prefix_cons_iff.mp front with rfl | ⟨rest, rfl, within⟩
      · simp
      · have later := opened rest within
        rw [counts closing rest, counts opening rest]
        omega
    · rw [counts closing text, counts opening text]
      omega

/-- The parenthesis behind a text closes the innermost of the open ones just if the text closes all
others and what it opens. -/
theorem closingOffset?_eq_some_iff (pending : Nat) (text : List Char) :
    closingOffset? ((pending + 1 : Nat) : Int) (text ++ [')']) = some text.length ↔
      ClosesAll '(' ')' pending text := by
  induction text generalizing pending with
  | nil =>
      have empty : ClosesAll '(' ')' pending [] ↔ pending = 0 := by
        refine ⟨fun all => ?_, fun none => ⟨fun before front => ?_, ?_⟩⟩
        · simpa using all.closed.symm
        · simp [List.prefix_nil.mp front]
        · simp [none]
      rw [empty, List.nil_append, closingOffset?, if_pos rfl]
      split
      · simp
        omega
      · simp [closingOffset?]
        omega
  | cons c text induction =>
      rw [closesAll_cons, List.cons_append, closingOffset?, List.length_cons]
      by_cases closing : c = ')'
      · subst closing
        rw [if_pos rfl]
        cases pending with
        | zero => simp
        | succ pending =>
            rw [if_neg (by omega)]
            have fewer : ((pending + 1 + 1 : Nat) : Int) - 1 = (pending + 1 : Nat) := by omega
            rw [fewer]
            simp [← induction]
      · rw [if_neg closing]
        by_cases opening : c = '('
        · subst opening
          have more : ((pending + 1 : Nat) : Int) + 1 = (pending + 1 + 1 : Nat) := by omega
          rw [if_pos rfl, more]
          simp [← induction]
        · rw [if_neg opening]
          simp [← induction, closing, opening]

/-! ## Calls at the beginning of a line -/

section

variable {name : List Char}

theorem nameEnd?_of_append (words : ∀ c ∈ name, isWord c = true) (some : name ≠ [])
    (rest : List Char) :
    nameEnd? name ⟨[], name ++ '(' :: rest⟩ = .some ⟨name.reverse, '(' :: rest⟩ := by
  have last : name.reverse.head?.any isWord = true := by
    rw [List.head?_reverse, List.getLast?_eq_some_getLast some]
    exact words _ (List.getLast_mem some)
  have edge : Place.atEdge ⟨name.reverse, '(' :: rest⟩ = true := by
    rw [Place.atEdge, last]
    rfl
  rw [nameEnd?, take?_append, List.append_nil, Option.filter_some, edge]
  rfl

theorem siteAt?_of_append (name inside : List Char) :
    siteAt? name ⟨[], name ++ '(' :: inside⟩ ⟨name.reverse, '(' :: inside⟩ =
      (closingOffset? 1 inside).map fun length =>
        ⟨0, name.length + 1 + length + 1, String.ofList name,
          (splitArguments (inside.take length)).map String.ofList⟩ := by
  have opened : Phrase.after? id [.gap, .text "("] ('(' :: inside) = some inside :=
    opened?_eq_some_iff.mpr (List.dropWhile_cons_of_neg (by decide))
  simp only [siteAt?, opened, Place.offset, List.length_reverse, List.length_nil, Nat.zero_sub,
    List.length_cons, Nat.add_sub_cancel_left]

theorem occurrences_of_append (words : ∀ c ∈ name, isWord c = true) (some : name ≠ [])
    (inside : List Char) :
    ∃ c after, name ++ '(' :: inside = c :: after ∧
      occurrences name 0 [] (name ++ '(' :: inside) =
        (⟨[], name ++ '(' :: inside⟩, ⟨name.reverse, '(' :: inside⟩) ::
          occurrences name (name.length - 1) [c] after := by
  have ends := nameEnd?_of_append words some inside
  rcases List.exists_cons_of_ne_nil (show name ++ '(' :: inside ≠ [] by simp) with
    ⟨c, after, isLine⟩
  refine ⟨c, after, isLine, ?_⟩
  rw [isLine] at ends ⊢
  rw [occurrences, ends]

theorem exists_of_mem_occurrences {skip : Nat} {before after : List Char} {start stop : Place}
    (member : (start, stop) ∈ occurrences name skip before after) :
    ∃ passed, start.before = passed.reverse ++ before ∧ after = passed ++ start.after ∧
      skip ≤ passed.length := by
  induction after generalizing skip before with
  | nil => cases member
  | cons c after induction =>
      have behind {skip : Nat}
          (member : (start, stop) ∈ occurrences name skip (c :: before) after) :
          ∃ passed, start.before = passed.reverse ++ before ∧
            c :: after = passed ++ start.after ∧ skip + 1 ≤ passed.length := by
        rcases induction member with ⟨passed, passes, rfl, enough⟩
        exact ⟨c :: passed, by rw [passes]; simp, rfl, Nat.succ_le_succ enough⟩
      have anyhow {skip : Nat}
          (member : (start, stop) ∈ occurrences name skip (c :: before) after) :
          ∃ passed, start.before = passed.reverse ++ before ∧
            c :: after = passed ++ start.after ∧ 0 ≤ passed.length := by
        rcases behind member with ⟨passed, passes, split, _⟩
        exact ⟨passed, passes, split, Nat.zero_le _⟩
      cases skip with
      | succ skip => exact behind member
      | zero =>
          rw [occurrences] at member
          split at member
          · rcases List.mem_cons.mp member with first | later
            · cases first
              exact ⟨[], rfl, rfl, Nat.zero_le _⟩
            · exact anyhow later
          · exact anyhow member

theorem exists_of_keywordBefore? {before : List Char} {length : Nat}
    (found : keywordBefore? before = some length) :
    ∃ blanks blank rest keyword, before = blanks ++ blank :: rest ∧
      (∀ c ∈ blanks ++ [blank], isBlank c = true) ∧ keyword ∈ callKeywords ∧
        endsKeyword rest keyword = true ∧ length = blanks.length + 1 + keyword.length := by
  rw [keywordBefore?_eq] at found
  split at found
  · cases found
  · rename_i spaced
    rcases Option.map_eq_some_iff.mp found with ⟨keyword, isFirst, rfl⟩
    rcases List.eq_nil_or_concat (before.takeWhile isBlank) with none | ⟨blanks, blank, some⟩
    · simp [none] at spaced
    · have parts := (List.takeWhile_append_dropWhile (p := isBlank) (l := before)).symm
      refine ⟨blanks, blank, before.dropWhile isBlank, keyword, ?_, ?_,
        List.mem_of_find?_eq_some isFirst, List.find?_some isFirst, by simp [some]⟩
      · rw [some] at parts
        simpa using parts
      · rw [← List.concat_eq_append, ← some]
        exact fun c member => List.mem_takeWhile_imp member

theorem notMem_of_endsKeyword {rest : List Char} {keyword : String}
    (isKeyword : keyword ∈ callKeywords) (ends : endsKeyword rest keyword = true)
    (short : rest.length ≤ keyword.length) : '(' ∉ rest := by
  intro member
  rw [endsKeyword, Bool.and_eq_true, decide_eq_true_eq, List.take_of_length_le short] at ends
  have letter : fold '(' ∈ keyword.toList :=
    List.mem_reverse.mp (ends.1 ▸ List.mem_map_of_mem member)
  have none : ∀ keyword ∈ callKeywords, fold '(' ∉ keyword.toList := by decide
  exact none keyword isKeyword letter

/-- A call begins at the beginning of a line only if its name stands there, where the line begins
with a name and a parenthesis. -/
theorem start_ne_zero {name inside : List Char} {start stop : Place} {site : CallSite}
    (words : ∀ c ∈ name, isWord c = true)
    (line : name ++ '(' :: inside = start.before.reverse ++ start.after)
    (behind : start.before ≠ []) (isSite : siteAt? name start stop = some site) :
    site.start ≠ 0 := by
  intro zero
  have reach : start.before.length ≤ (keywordBefore? start.before).getD 0 := by
    refine Nat.le_of_sub_eq_zero ?_
    rw [siteAt?] at isSite
    split at isSite
    · rcases Option.map_eq_some_iff.mp isSite with ⟨_, _, rfl⟩
      exact zero
    · rcases Option.map_eq_some_iff.mp isSite with ⟨_, _, rfl⟩
      exact zero
  cases found : keywordBefore? start.before with
  | none =>
      rw [found] at reach
      exact behind (List.eq_nil_of_length_eq_zero (Nat.le_zero.mp reach))
  | some length =>
      rcases exists_of_keywordBefore? found with
        ⟨blanks, blank, rest, keyword, parts, areBlank, isKeyword, ends, rfl⟩
      rw [found, parts] at reach
      have short : rest.length ≤ keyword.length := by
        simp only [List.length_append, List.length_cons, Option.getD_some] at reach
        omega
      have noParenthesis := notMem_of_endsKeyword isKeyword ends short
      have padding := isPadding_of_isBlank (areBlank blank (by simp))
      -- The white space behind the keyword stands neither in the name nor at the parenthesis.
      have same : name ++ '(' :: inside =
          rest.reverse ++ blank :: (blanks.reverse ++ start.after) := by
        rw [line, parts]
        simp
      rcases List.append_eq_append_iff.mp same with ⟨more, isRest, rests⟩ | ⟨more, isName, rests⟩
      · cases more with
        | nil => exact padding.notOpening (List.cons.inj rests).1.symm
        | cons c more =>
            refine noParenthesis (List.mem_reverse.mp ?_)
            rw [isRest, (List.cons.inj rests).1]
            simp
      · cases more with
        | nil => exact padding.notOpening (List.cons.inj rests).1
        | cons c more =>
            have word := words blank (by rw [isName, (List.cons.inj rests).1]; simp)
            rw [padding.notWord] at word
            cases word

end

end Call

/-- A call of arguments joined with commas is found as a whole, with its arguments, just if the
parentheses in the arguments are balanced, those in quotes included. -/
theorem exists_whole_call_iff {name : List Char} {arguments : List (List Char)}
    (some : name ≠ []) (words : ∀ c ∈ name, isWord c = true)
    (areArguments : ∀ argument ∈ arguments, Call.IsArgument argument) :
    let joined := List.intercalate [',', ' '] arguments
    let line := name ++ '(' :: (joined ++ [')'])
    (∃ site ∈ findCalls line name, site.start = 0 ∧ site.stop = line.length ∧
        site.arguments = arguments.map String.ofList) ↔ Call.ClosesAll '(' ')' 0 joined := by
  intro joined line
  have split : Call.splitArguments joined = arguments :=
    Call.splitArguments_intercalate (fun argument member => (areArguments argument member).closed)
      (fun argument member => (areArguments argument member).filled)
      fun argument member => (areArguments argument member).trimmed
  have whole : line.length = name.length + 1 + joined.length + 1 := by
    simp only [line, List.length_append, List.length_cons, List.length_nil]
    omega
  have closes : Call.closingOffset? 1 (joined ++ [')']) = .some joined.length ↔
      Call.ClosesAll '(' ')' 0 joined := Call.closingOffset?_eq_some_iff 0 joined
  have atFirst := Call.siteAt?_of_append name (joined ++ [')'])
  rcases Call.occurrences_of_append words some (joined ++ [')']) with ⟨c, after, isLine, occurs⟩
  rw [findCalls, if_neg (by simpa using some), occurs, ← closes]
  constructor
  · rintro ⟨site, member, starts, stops, _⟩
    rcases List.mem_filterMap.mp member with ⟨places, among, isSite⟩
    rcases List.mem_cons.mp among with rfl | later
    · rcases Option.map_eq_some_iff.mp (atFirst.symm.trans isSite) with ⟨length, offset, rfl⟩
      have same : length = joined.length := by
        rw [whole] at stops
        exact Nat.add_left_cancel (Nat.add_right_cancel stops)
      rw [offset, same]
    · rcases Call.exists_of_mem_occurrences later with ⟨passed, before, rest⟩
      have parts : line = places.1.before.reverse ++ places.1.after := by
        simp [line, isLine, before, rest]
      exact absurd starts (Call.start_ne_zero words parts (by simp [before]) isSite)
  · intro closing
    have isSite := atFirst
    rw [closing, Option.map_some, List.take_left, split] at isSite
    exact ⟨_, List.mem_filterMap.mpr ⟨_, List.mem_cons_self, isSite⟩, rfl, whole.symm, rfl⟩

def quotedArguments : List (List Char) :=
  ["f(a, {b})".toList, "'it, (' + x".toList, "\")]\"".toList]

theorem isArgument_of_mem_quotedArguments :
    ∀ argument ∈ quotedArguments, Call.IsArgument argument := by
  intro argument member
  simp only [quotedArguments, List.mem_cons, List.not_mem_nil, or_false] at member
  rcases member with rfl | rfl | rfl
  · have unquoted : Call.Unquoted "f(a, {b})".toList "f(a, {b})".toList :=
      .of_noQuote (by simp [Call.Nesting.isQuote])
    exact ⟨by decide, ⟨by decide, by decide⟩, _, unquoted, by decide⟩
  · have behind : Call.Unquoted " + x".toList " + x".toList :=
      .of_noQuote (by simp [Call.Nesting.isQuote])
    exact ⟨by decide, ⟨by decide, by decide⟩, _,
      @Call.Unquoted.quote '\'' "it, (".toList _ _ rfl (by decide) behind,
      by decide⟩
  · exact ⟨by decide, ⟨by decide, by decide⟩, _,
      @Call.Unquoted.quote '"' ")]".toList _ _ rfl (by decide) .nil, by decide⟩

theorem exists_whole_call_quotedArguments :
    "total".toList ≠ [] ∧ (∀ c ∈ "total".toList, isWord c = true) ∧
      (∀ argument ∈ quotedArguments, Call.IsArgument argument) ∧
      ∃ site ∈ findCalls "total(f(a, {b}), 'it, (' + x, \")]\")".toList "total".toList,
        site.start = 0 ∧ site.stop = 35 ∧
          site.arguments = quotedArguments.map String.ofList := by
  have words : ∀ c ∈ "total".toList, isWord c = true := List.all_eq_true.mp rfl
  have closes : Call.ClosesAll '(' ')' 0 (List.intercalate [',', ' '] quotedArguments) := by
    decide +kernel
  exact ⟨by decide, words, isArgument_of_mem_quotedArguments,
    (exists_whole_call_iff (by decide) words isArgument_of_mem_quotedArguments).mpr closes⟩

/-- A parenthesis in quotes may cut a call short. -/
theorem exists_call_cut_short :
    ¬∀ (name : List Char) (arguments : List (List Char)), name ≠ [] →
      (∀ c ∈ name, isWord c = true) → (∀ argument ∈ arguments, Call.IsArgument argument) →
        let line := name ++ '(' :: (List.intercalate [',', ' '] arguments ++ [')'])
        ∃ site ∈ findCalls line name, site.start = 0 ∧ site.stop = line.length ∧
          site.arguments = arguments.map String.ofList := by
  intro always
  have isArgument : Call.IsArgument "')'".toList :=
    ⟨by decide, ⟨by decide, by decide⟩, _,
      @Call.Unquoted.quote '\'' [')'] _ _ rfl (by decide +kernel) .nil, by decide⟩
  have cut : findCalls "f(')')".toList "f".toList = [⟨0, 4, "f", ["'"]⟩] := by
    decide +kernel
  rcases always "f".toList ["')'".toList] (by decide) (List.all_eq_true.mp rfl)
    (by simpa using isArgument) with ⟨site, member, _, stops, _⟩
  have only : site ∈ [(⟨0, 4, "f", ["'"]⟩ : CallSite)] := cut ▸ member
  rw [List.mem_singleton.mp only] at stops
  exact absurd stops (by decide)

end Flowchart
