import Flowchart.Outline

/-!
Lines that are cut from a text and joined again, and the ends of trimmed texts.
-/

namespace Flowchart.Text

/-! ## Cutting and joining -/

theorem linesAfter_nil (line : List Char) :
    linesAfter line [] = if line.isEmpty then [] else [line.reverse] :=
  rfl

theorem linesAfter_cons {before rest : List Char} {c : Char}
    (noReturn : ∀ more, c = '\r' → rest = '\n' :: more → False) :
    linesAfter before (c :: rest) =
      if isLineBreak c then before.reverse :: linesAfter [] rest
      else linesAfter (c :: before) rest := by
  rw [linesAfter]
  exact noReturn

theorem linesAfter_append (before line rest : List Char)
    (unbroken : ∀ c ∈ line, isLineBreak c = false) :
    linesAfter before (line ++ rest) = linesAfter (line.reverse ++ before) rest := by
  induction line generalizing before with
  | nil => rfl
  | cons c line induction =>
      have noBreak := unbroken c List.mem_cons_self
      have later := induction (c :: before) fun other member =>
        unbroken other (List.mem_cons_of_mem _ member)
      have noReturn : ∀ more, c = '\r' → line ++ rest = '\n' :: more → False := by
        rintro more rfl _
        exact absurd noBreak (by decide)
      rw [List.cons_append, linesAfter_cons noReturn, if_neg (by simp [noBreak]), later,
        List.reverse_cons, List.append_assoc, List.singleton_append]

theorem linesAfter_newline (before rest : List Char) :
    linesAfter before ('\n' :: rest) = before.reverse :: linesAfter [] rest := by
  have noReturn : ∀ more, '\n' = '\r' → rest = '\n' :: more → False :=
    fun _ isReturn => absurd isReturn (by decide)
  rw [linesAfter_cons noReturn, if_pos (by decide)]

theorem not_isLineBreak_of_mem_linesAfter (before text : List Char)
    (unbroken : ∀ c ∈ before, isLineBreak c = false) :
    ∀ line ∈ linesAfter before text, ∀ c ∈ line, isLineBreak c = false := by
  induction before, text using linesAfter.induct with
  | case1 before empty =>
      simp [linesAfter_nil, empty]
  | case2 before some =>
      simp only [linesAfter_nil, if_neg some, List.mem_singleton]
      rintro line rfl c member
      exact unbroken c (List.mem_reverse.mp member)
  | case3 before rest induction =>
      intro line member
      rcases List.mem_cons.mp member with rfl | later
      · exact fun c member => unbroken c (List.mem_reverse.mp member)
      · exact induction (fun _ impossible => by cases impossible) line later
  | case4 before c rest noReturn isBreak induction =>
      rw [linesAfter_cons noReturn, if_pos isBreak]
      simp only [List.mem_cons]
      rintro line (rfl | later) c member
      · exact unbroken c (List.mem_reverse.mp member)
      · exact induction (fun _ impossible => by cases impossible) line later c member
  | case5 before c rest noReturn noBreak induction =>
      rw [linesAfter_cons noReturn, if_neg noBreak]
      refine induction fun other member => ?_
      rcases List.mem_cons.mp member with rfl | earlier
      · simpa using noBreak
      · exact unbroken other earlier

theorem not_isLineBreak_of_mem_lines {text line : List Char} (member : line ∈ lines text) :
    ∀ c ∈ line, isLineBreak c = false :=
  not_isLineBreak_of_mem_linesAfter [] text (fun _ impossible => by cases impossible) line member

theorem infix_of_mem_linesAfter (before text : List Char) :
    ∀ line ∈ linesAfter before text, line <:+: before.reverse ++ text := by
  induction before, text using linesAfter.induct with
  | case1 before empty => simp [linesAfter_nil, empty]
  | case2 before some =>
      simp only [linesAfter_nil, if_neg some, List.mem_singleton]
      rintro line rfl
      exact (List.prefix_append _ []).isInfix
  | case3 before rest induction =>
      intro line member
      rcases List.mem_cons.mp member with rfl | later
      · exact (List.prefix_append _ _).isInfix
      · have behind : rest <:+ before.reverse ++ '\r' :: '\n' :: rest :=
          ⟨before.reverse ++ ['\r', '\n'], by simp⟩
        exact (induction line later).trans behind.isInfix
  | case4 before c rest noReturn isBreak induction =>
      rw [linesAfter_cons noReturn, if_pos isBreak]
      intro line member
      rcases List.mem_cons.mp member with rfl | later
      · exact (List.prefix_append _ _).isInfix
      · have behind : rest <:+ before.reverse ++ c :: rest := ⟨before.reverse ++ [c], by simp⟩
        exact (induction line later).trans behind.isInfix
  | case5 before c rest noReturn noBreak induction =>
      rw [linesAfter_cons noReturn, if_neg noBreak]
      simpa using induction

theorem infix_of_mem_lines {text line : List Char} (member : line ∈ lines text) : line <:+: text :=
  infix_of_mem_linesAfter [] text line member

theorem lines_joinLines {rows : List (List Char)}
    (unbroken : ∀ line ∈ rows, ∀ c ∈ line, isLineBreak c = false)
    (filled : ∀ line ∈ rows, line ≠ []) : lines (joinLines rows) = rows := by
  induction rows with
  | nil => rfl
  | cons line rows induction =>
      rw [List.forall_mem_cons] at unbroken filled
      cases rows with
      | nil =>
          have own := linesAfter_append [] line [] unbroken.1
          rw [List.append_nil, List.append_nil, linesAfter_nil,
            if_neg (by simpa using filled.1), List.reverse_reverse] at own
          rw [joinLines, List.intercalate_singleton]
          exact own
      | cons next rows =>
          have joined : joinLines (line :: next :: rows) =
              line ++ '\n' :: joinLines (next :: rows) := by
            simp [joinLines, List.intercalate_cons_cons]
          rw [joined, lines, linesAfter_append [] line _ unbroken.1, linesAfter_newline,
            List.append_nil, List.reverse_reverse]
          exact congrArg (line :: ·) (induction unbroken.2 filled.2)

/-- Joining lines and cutting them again keeps all of them that a property holds of which the empty
line does not have. -/
theorem filter_lines_joinLines (keep : List Char → Bool) (dropsEmpty : keep [] = false)
    (rows : List (List Char)) (unbroken : ∀ line ∈ rows, ∀ c ∈ line, isLineBreak c = false) :
    (lines (joinLines rows)).filter keep = rows.filter keep := by
  induction rows with
  | nil => rfl
  | cons line rows induction =>
      have own := unbroken line List.mem_cons_self
      cases rows with
      | nil =>
          have cut := linesAfter_append [] line [] own
          rw [List.append_nil, List.append_nil] at cut
          rw [joinLines, List.intercalate_singleton, lines, cut, linesAfter_nil,
            List.reverse_reverse]
          by_cases empty : line = []
          · simp [empty, dropsEmpty]
          · simp [empty]
      | cons next rows =>
          have later := induction fun other member =>
            unbroken other (List.mem_cons_of_mem _ member)
          have cut := linesAfter_append [] line ('\n' :: joinLines (next :: rows)) own
          rw [linesAfter_newline, List.append_nil, List.reverse_reverse] at cut
          have joined : joinLines (line :: next :: rows) =
              line ++ '\n' :: joinLines (next :: rows) := by
            simp [joinLines, List.intercalate_cons_cons]
          rw [joined, lines, cut, List.filter_cons, List.filter_cons, ← lines, later]

/-! ## Trimmed texts -/

structure Trimmed (text : List Char) : Prop where
  first : text.head?.any isBlank = false
  last : text.getLast?.any isBlank = false

theorem Trimmed.trimStart_eq {text : List Char} (trimmed : Trimmed text) :
    trimStart text = text := by
  cases text with
  | nil => rfl
  | cons c rest =>
      have first := trimmed.first
      simp only [List.head?_cons, Option.any_some] at first
      rw [trimStart, List.dropWhile_cons_of_neg (by simp [first])]

theorem Trimmed.trim_eq {text : List Char} (trimmed : Trimmed text) : trim text = text := by
  have noEnd : trimEnd text = text := by
    rw [trimEnd]
    cases reversed : text.reverse with
    | nil => rw [← List.reverse_reverse text, reversed]; rfl
    | cons c rest =>
        have last := trimmed.last
        rw [List.getLast?_eq_head?_reverse, reversed] at last
        simp only [List.head?_cons, Option.any_some] at last
        rw [List.dropWhile_cons_of_neg (by simp [last]), ← reversed, List.reverse_reverse]
  rw [trim, trimmed.trimStart_eq, noEnd]

theorem head?_dropWhile_isBlank (text : List Char) :
    (text.dropWhile isBlank).head?.any isBlank = false := by
  cases left : text.dropWhile isBlank with
  | nil => rfl
  | cons c rest =>
      have nonblank := List.head?_dropWhile_not isBlank text
      rw [left] at nonblank
      simpa using nonblank

theorem trimmed_trimEnd {text : List Char} (first : text.head?.any isBlank = false) :
    Trimmed (trimEnd text) where
  first := by
    have kept : trimEnd text <+: text := by
      rw [trimEnd, ← List.reverse_suffix, List.reverse_reverse]
      exact List.dropWhile_suffix _
    cases equal : trimEnd text with
    | nil => rfl
    | cons c rest =>
        rw [equal] at kept
        rcases kept with ⟨more, rfl⟩
        simpa using first
  last := by
    rw [trimEnd, List.getLast?_reverse]
    exact head?_dropWhile_isBlank _

theorem trimmed_trim (text : List Char) : Trimmed (trim text) :=
  trimmed_trimEnd (head?_dropWhile_isBlank text)

end Flowchart.Text

namespace Flowchart.Outline

open Text

theorem trimmed_content (line : List Char) : Trimmed (content line) := by
  have trimmed := trimmed_trim line
  rw [content]
  split
  · rename_i rest reversed
    refine trimmed_trimEnd ?_
    have split : trim line = rest.reverse ++ [':', ':'] := by
      rw [← List.reverse_reverse (trim line), reversed]
      simp
    have first := trimmed.first
    rw [split] at first
    cases front : rest.reverse with
    | nil => rfl
    | cons c more =>
        rw [front] at first
        simpa using first
  · exact trimmed

theorem blocksFrom_filter (ladder : Ladder) (rows : List (List Char)) :
    blocksFrom ladder (rows.filter fun line => !(content line).isEmpty) =
      blocksFrom ladder rows := by
  induction rows generalizing ladder with
  | nil => rfl
  | cons line rows induction =>
      by_cases empty : (content line).isEmpty = true
      · rw [List.filter_cons_of_neg (by simp [empty]), induction]
        simp only [blocksFrom, empty, if_true]
      · rw [List.filter_cons_of_pos (by simp [empty])]
        simp only [blocksFrom, if_neg empty, induction]

end Flowchart.Outline
