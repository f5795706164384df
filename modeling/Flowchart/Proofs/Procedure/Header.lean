import Flowchart.Procedure.Capture
import Flowchart.Proofs.Text.Phrase
import Flowchart.Proofs.Text.Terminated

/-!
Header lines and end lines with white space before them and with a double colon behind them.

Their phrases begin with white space, as much as there is, and hold no colon. So neither is a part
of what they find.
-/

namespace Flowchart.Procedure

open Text

/-! ## Leading white space -/

def keywordPieces : List Phrase :=
  ["function", "procedure", "def"].map fun keyword => [.text keyword, .space]

def endPieces : List Phrase :=
  ["function", "procedure", "def"].map fun keyword =>
    [.text "end", .gap, .text keyword, .edge]

theorem openings_eq : Header.openings = keywordPieces.map (.gap :: ·) := rfl

theorem endPhrases_eq : endPhrases = endPieces.map (.gap :: ·) := rfl

theorem isWordly_keywordPieces : ∀ pieces ∈ keywordPieces, pieces.all Piece.isWordly = true := by
  simp only [← List.all_eq_true]
  decide

theorem isWordly_endPieces : ∀ pieces ∈ endPieces, pieces.all Piece.isWordly = true := by
  simp only [← List.all_eq_true]
  decide

theorem isEndLine_pad {front back : List Char} (frontBlank : ∀ c ∈ front, isBlank c = true)
    (backPads : ∀ c ∈ back, IsPadding c) (backSeen : ∀ c ∈ back, isBlank c = false)
    (line : List Char) : isEndLine (front ++ (line ++ back)) = isEndLine line := by
  rw [isEndLine, isEndLine, endPhrases_eq]
  exact Phrase.anyBegins_gap_pad frontBlank backPads backSeen isWordly_endPieces line

theorem Header.firstAfter?_pad {front back : List Char} (frontBlank : ∀ c ∈ front, isBlank c = true)
    (backPads : ∀ c ∈ back, IsPadding c) (backSeen : ∀ c ∈ back, isBlank c = false)
    (line : List Char) :
    Phrase.firstAfter? fold openings (front ++ (line ++ back)) =
      (Phrase.firstAfter? fold openings line).map (· ++ back) := by
  rw [openings_eq]
  exact Phrase.firstAfter?_gap_pad frontBlank backPads backSeen isWordly_keywordPieces line

theorem Header.read?_append_of_isBlank {front : List Char} (blank : ∀ c ∈ front, isBlank c = true)
    (line : List Char) : read? (front ++ line) = read? line := by
  have found := firstAfter?_pad blank (List.forall_mem_nil _) (List.forall_mem_nil _) line
  rw [List.append_nil] at found
  simp only [read?, found, List.append_nil, Option.map_id']

theorem isEndLine_append_of_isBlank {front : List Char} (blank : ∀ c ∈ front, isBlank c = true)
    (line : List Char) : isEndLine (front ++ line) = isEndLine line := by
  have same := isEndLine_pad blank (List.forall_mem_nil _) (List.forall_mem_nil _) line
  rwa [List.append_nil] at same

theorem Header.read?_of_isAllBlank {line : List Char} (blank : isAllBlank line = true) :
    read? line = none := by
  have same := read?_append_of_isBlank (List.all_eq_true.mp blank) []
  rw [List.append_nil] at same
  rw [same]
  decide

/-! ## Double colons -/

namespace Header

theorem leadingName?_append_doubleColon (text : List Char) :
    Call.leadingName? fold (text ++ doubleColon) = Call.leadingName? fold text := by
  have words : ∀ c ∈ doubleColon, isWord c = false := fun c member =>
    (isPadding_of_mem_doubleColon c member).notWord
  have starts : ∀ c ∈ doubleColon, isNameStart (fold c) = false := by
    intro c member
    simp only [doubleColon, List.mem_cons, List.not_mem_nil, or_false, or_self] at member
    subst member
    decide
  rw [Call.leadingName?, Call.leadingName?, any_head?_append starts, takeWhile_append_of_none words]

theorem isEnding_append_doubleColon {ending : List Char} (open' : isTerminated ending = false) :
    isEnding (ending ++ doubleColon) = isEnding ending := by
  have noColons : trim ending ≠ [':', ':'] := by
    intro ends
    have terminated := isTerminated_of_trim [] ends
    rw [open'] at terminated
    cases terminated
  have nothing_iff : trimStart ending ++ doubleColon = [':', ':'] ↔ trim ending = [] := by
    rw [trim_eq_nil_iff, ← trimStart_eq_nil_iff]
    exact List.append_left_eq_self
  have colons : doubleColon ≠ [] := List.cons_ne_nil _ _
  rw [isEnding, isEnding, trim_append_doubleColon, decide_eq_false noColons, Bool.or_false,
    decide_eq_false (List.append_ne_nil_of_right_ne_nil (trimStart ending) colons), Bool.false_or]
  exact decide_eq_decide.mpr nothing_iff

def ofInside (name inside : List Char) : Option Header :=
  match inside.dropWhile (· ≠ ')') with
  | ')' :: ending =>
      if isEnding ending then
        some ⟨String.ofList name, splitParameters (inside.takeWhile (· ≠ ')'))⟩
      else none
  | _ => none

theorem read?_eq (line : List Char) :
    read? line = (Phrase.firstAfter? fold openings line).bind fun rest =>
      (Call.leadingName? fold rest).bind fun name =>
        (Call.opened? (rest.drop name.length)).bind (ofInside name) := rfl

theorem ofInside_append_doubleColon {inside : List Char} (open' : isTerminated inside = false)
    (name : List Char) : ofInside name (inside ++ doubleColon) = ofInside name inside := by
  have suffix : inside.dropWhile (· ≠ ')') <:+ inside := List.dropWhile_suffix _
  rw [ofInside, ofInside, List.dropWhile_append]
  cases closes : inside.dropWhile (· ≠ ')') with
  | nil => rfl
  | cons c ending =>
      have first : c = ')' := by
        have head := List.head?_dropWhile_not (· ≠ ')') inside
        rw [closes] at head
        simpa using head
      subst first
      have inEnding : isTerminated ending = false := by
        apply Bool.eq_false_iff.mpr
        intro ends
        have within := (List.suffix_cons ')' ending).trans (closes ▸ suffix)
        rw [isTerminated_of_suffix within ends] at open'
        cases open'
      have parameters : (inside ++ doubleColon).takeWhile (· ≠ ')') =
          inside.takeWhile (· ≠ ')') := by
        have parts := congrArg List.length
          (List.takeWhile_append_dropWhile (p := (· ≠ ')')) (l := inside))
        rw [closes, List.length_append, List.length_cons] at parts
        rw [List.takeWhile_append, if_neg (by omega)]
      rw [List.isEmpty_cons, if_neg Bool.false_ne_true, List.cons_append, parameters]
      simp only [isEnding_append_doubleColon inEnding]

theorem read?_append_doubleColon {line : List Char} (open' : isTerminated line = false) :
    read? (line ++ doubleColon) = read? line := by
  have found := firstAfter?_pad (List.forall_mem_nil _) isPadding_of_mem_doubleColon
    not_isBlank_of_mem_doubleColon line
  rw [List.nil_append] at found
  rw [read?_eq, read?_eq, found, Option.bind_map]
  apply Option.bind_congr
  intro rest first
  rw [Function.comp_apply, leadingName?_append_doubleColon]
  apply Option.bind_congr
  intro name named
  have length : name.length ≤ rest.length := by
    rw [Call.leadingName?] at named
    split at named
    · cases named
      exact (List.takeWhile_sublist isWord).length_le
    · cases named
  rw [List.drop_append_of_le_length length, Call.opened?_append isPadding_of_mem_doubleColon,
    Option.bind_map]
  apply Option.bind_congr
  intro inside opened
  rw [Function.comp_apply]
  apply ofInside_append_doubleColon
  apply Bool.eq_false_iff.mpr
  intro ends
  have within : inside <:+ line := by
    have afterName : '(' :: inside <:+ rest.drop name.length :=
      Call.opened?_eq_some_iff.mp opened ▸ List.dropWhile_suffix isBlank
    calc inside <:+ '(' :: inside := List.suffix_cons '(' inside
      _ <:+ rest.drop name.length := afterName
      _ <:+ rest := List.drop_suffix _ rest
      _ <:+ line := Phrase.firstAfter?_suffix first
  rw [isTerminated_of_suffix within ends] at open'
  cases open'

end Header

end Flowchart.Procedure
