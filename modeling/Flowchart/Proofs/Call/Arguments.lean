import Flowchart.Call.Arguments
import Flowchart.Proofs.Text.Lines
import Mathlib.Data.List.Induction
import Mathlib.Data.List.Infix

/-!
Arguments that are joined with commas and split again.

An argument is closed if a scan of it comes back to the outermost nesting without meeting a comma
that separates. Joined with commas, closed arguments are split just so. An argument is closed if it
closes its quotes, if its brackets outside of them are balanced, and if all its commas lie in quotes
or brackets.
-/

namespace Flowchart.Call

open Text

/-! ## Scans -/

namespace Nesting

def scan (nesting : Nesting) : List Char → Option Nesting
  | [] => some nesting
  | c :: rest => if nesting.separates c then none else (nesting.after c).scan rest

theorem scan_append (nesting : Nesting) (front back : List Char) :
    nesting.scan (front ++ back) = (nesting.scan front).bind (·.scan back) := by
  induction front generalizing nesting with
  | nil => rfl
  | cons c front induction =>
      rw [List.cons_append, scan, scan]
      split
      · rfl
      · exact induction _

end Nesting

/-- A text that is one argument: a scan of it comes back to the outermost nesting. -/
def Closed (text : List Char) : Prop := Nesting.outermost.scan text = some .outermost

instance (text : List Char) : Decidable (Closed text) := inferInstanceAs (Decidable (_ = _))

theorem piecesAfter_append {nesting later : Nesting} {text : List Char}
    (scans : nesting.scan text = some later) (piece rest : List Char) :
    piecesAfter piece nesting (text ++ rest) = piecesAfter (text.reverse ++ piece) later rest := by
  induction text generalizing nesting piece with
  | nil =>
      cases scans
      rfl
  | cons c text induction =>
      rw [Nesting.scan] at scans
      split at scans
      · cases scans
      · rename_i within
        rw [List.cons_append, piecesAfter, if_neg within, induction scans, List.reverse_cons,
          List.append_assoc]
        rfl

theorem piecesAfter_separator (piece rest : List Char) :
    piecesAfter piece .outermost (',' :: ' ' :: rest) =
      piece.reverse :: piecesAfter [' '] .outermost rest := by
  rw [piecesAfter, if_pos (by decide), piecesAfter, if_neg (by decide)]
  rfl

def Unseparated (text : List Char) : Prop := (Nesting.outermost.scan text).isSome = true

inductive ClosedButLast : List (List Char) → Prop
  | nil : ClosedButLast []
  | last {argument : List Char} (unseparated : Unseparated argument) : ClosedButLast [argument]
  | cons {first : List Char} {more : List (List Char)} (closed : Closed first)
      (later : ClosedButLast more) : ClosedButLast (first :: more)

theorem Closed.unseparated {text : List Char} (closed : Closed text) : Unseparated text :=
  Option.isSome_of_mem closed

theorem ClosedButLast.of_forall {arguments : List (List Char)}
    (closed : ∀ argument ∈ arguments, Closed argument) : ClosedButLast arguments := by
  induction arguments with
  | nil => exact .nil
  | cons first more induction =>
      exact .cons (closed first List.mem_cons_self)
        (induction fun argument member => closed argument (List.mem_cons_of_mem _ member))

theorem piecesAfter_of_unseparated {text : List Char} (unseparated : Unseparated text)
    (piece : List Char) : piecesAfter piece .outermost text = [piece.reverse ++ text] := by
  rcases Option.isSome_iff_exists.mp unseparated with ⟨later, scans⟩
  have whole := piecesAfter_append scans piece []
  rw [List.append_nil] at whole
  rw [whole, piecesAfter, List.reverse_append, List.reverse_reverse]

theorem piecesAfter_intercalate {first : List Char} {more : List (List Char)}
    (closed : ClosedButLast (first :: more)) (piece : List Char) :
    piecesAfter piece .outermost (List.intercalate [',', ' '] (first :: more)) =
      (piece.reverse ++ first) :: more.map (' ' :: ·) := by
  induction more generalizing first piece with
  | nil =>
      have unseparated : Unseparated first := by
        cases closed with
        | last unseparated => exact unseparated
        | cons closed _ => exact closed.unseparated
      rw [List.intercalate_singleton, piecesAfter_of_unseparated unseparated]
      rfl
  | cons second more induction =>
      cases closed with
      | cons scans closed =>
          rw [List.intercalate_cons_cons, List.append_assoc, piecesAfter_append scans,
            List.cons_append, List.cons_append, List.nil_append, piecesAfter_separator,
            induction closed, List.reverse_append, List.reverse_reverse]
          rfl

/-- Splitting undoes joining, also if the last argument leaves something open. -/
theorem splitArguments_intercalate_of_closedButLast {arguments : List (List Char)}
    (closed : ClosedButLast arguments) (filled : ∀ argument ∈ arguments, argument ≠ [])
    (trimmed : ∀ argument ∈ arguments, Trimmed argument) :
    splitArguments (List.intercalate [',', ' '] arguments) = arguments := by
  cases arguments with
  | nil => rfl
  | cons first more =>
      have spaced : (more.map (' ' :: ·)).map trim = more := by
        rw [List.map_map]
        refine (List.map_congr_left fun argument member => ?_).trans (List.map_id more)
        have blank : trim (' ' :: argument) = trim argument := by
          rw [trim, trimStart, List.dropWhile_cons_of_pos (by decide)]
          rfl
        exact blank.trans (trimmed argument (List.mem_cons_of_mem _ member)).trim_eq
      rw [splitArguments, piecesAfter_intercalate closed, List.reverse_nil, List.nil_append,
        List.map_cons, spaced, (trimmed first List.mem_cons_self).trim_eq, List.filter_eq_self]
      intro argument member
      simpa using filled argument member

theorem splitArguments_intercalate {arguments : List (List Char)}
    (closed : ∀ argument ∈ arguments, Closed argument)
    (filled : ∀ argument ∈ arguments, argument ≠ [])
    (trimmed : ∀ argument ∈ arguments, Trimmed argument) :
    splitArguments (List.intercalate [',', ' '] arguments) = arguments :=
  splitArguments_intercalate_of_closedButLast (.of_forall closed) filled trimmed

/-! ## Arguments as they are written -/

inductive Unquoted : List Char → List Char → Prop
  | nil : Unquoted [] []
  | plain {c : Char} {text outside : List Char} (noQuote : Nesting.isQuote c = false)
      (rest : Unquoted text outside) : Unquoted (c :: text) (c :: outside)
  | quote {mark : Char} {inside text outside : List Char} (isQuote : Nesting.isQuote mark = true)
      (within : mark ∉ inside) (rest : Unquoted text outside) :
      Unquoted (mark :: inside ++ mark :: text) outside

def bracketPairs : List (Char × Char) := [('(', ')'), ('[', ']'), ('{', '}')]

/-- Behind so many open brackets, a text closes these and all that it opens itself, and never one
that is not open. -/
structure ClosesAll (opening closing : Char) (pending : Nat) (text : List Char) : Prop where
  opened : ∀ before, before <+: text → before.count closing ≤ before.count opening + pending
  closed : text.count closing = text.count opening + pending

instance (opening closing : Char) (pending : Nat) (text : List Char) :
    Decidable (ClosesAll opening closing pending text) :=
  decidable_of_iff
    ((∀ before ∈ text.inits, before.count closing ≤ before.count opening + pending) ∧
      text.count closing = text.count opening + pending)
    ⟨fun ⟨opened, closed⟩ =>
        ⟨fun before front => opened before ((List.mem_inits _ _).mpr front), closed⟩,
      fun all =>
        ⟨fun before front => all.opened before ((List.mem_inits _ _).mp front), all.closed⟩⟩

structure Bracketed (text : List Char) : Prop where
  balanced : ∀ pair ∈ bracketPairs, ClosesAll pair.1 pair.2 0 text
  commas : ∀ before, before ++ [','] <+: text →
    ∃ pair ∈ bracketPairs, before.count pair.2 < before.count pair.1

instance (text : List Char) : Decidable (Bracketed text) :=
  decidable_of_iff
    ((∀ pair ∈ bracketPairs, ClosesAll pair.1 pair.2 0 text) ∧
      ∀ before ∈ text.inits, before ++ [','] <+: text →
        ∃ pair ∈ bracketPairs, before.count pair.2 < before.count pair.1)
    ⟨fun ⟨balanced, commas⟩ => ⟨balanced, fun before front => commas before
        ((List.mem_inits _ _).mpr ((List.prefix_append before [',']).trans front)) front⟩,
      fun bracketed => ⟨bracketed.balanced, fun before _ => bracketed.commas before⟩⟩

/-- The text of an argument. It closes its quotes, and what stands outside of them is bracketed. -/
structure IsArgument (text : List Char) : Prop where
  filled : text ≠ []
  trimmed : Trimmed text
  nested : ∃ outside, Unquoted text outside ∧ Bracketed outside

theorem Unquoted.of_noQuote {text : List Char}
    (noQuote : ∀ c ∈ text, Nesting.isQuote c = false) : Unquoted text text := by
  induction text with
  | nil => exact .nil
  | cons c text induction =>
      exact .plain (noQuote c List.mem_cons_self)
        (induction fun other member => noQuote other (List.mem_cons_of_mem _ member))

theorem Unquoted.noQuote {text outside : List Char} (unquoted : Unquoted text outside) :
    ∀ c ∈ outside, Nesting.isQuote c = false := by
  induction unquoted with
  | nil => exact nofun
  | plain noQuote _ induction =>
      intro c member
      rcases List.mem_cons.mp member with rfl | later
      · exact noQuote
      · exact induction c later
  | quote _ _ _ induction => exact induction

namespace Nesting

theorem scan_quoted {mark : Char} {inside : List Char} (within : mark ∉ inside) (depth : Nat)
    (rest : List Char) :
    scan ⟨depth, some mark⟩ (inside ++ mark :: rest) = scan ⟨depth, none⟩ rest := by
  induction inside with
  | nil => simp [scan, separates, outermost, after]
  | cons c inside induction =>
      have other : c ≠ mark := fun same => within (same ▸ List.mem_cons_self)
      have later := induction fun member => within (List.mem_cons_of_mem _ member)
      rw [List.cons_append, scan, if_neg (by simp [separates, outermost]), after]
      simp only [if_neg other]
      exact later

theorem scan_of_unquoted {text outside : List Char} (unquoted : Unquoted text outside)
    (depth : Nat) : scan ⟨depth, none⟩ text = scan ⟨depth, none⟩ outside := by
  induction unquoted generalizing depth with
  | nil => rfl
  | @plain c text outside noQuote _ induction =>
      have stays : ∃ deeper, after ⟨depth, none⟩ c = ⟨deeper, none⟩ := by
        simp only [after, noQuote, Bool.false_eq_true, if_false]
        split
        · exact ⟨_, rfl⟩
        · split <;> exact ⟨_, rfl⟩
      rcases stays with ⟨deeper, stays⟩
      rw [scan, scan, stays, induction]
  | @quote mark inside text outside isQuote within _ induction =>
      have noComma : mark ≠ ',' := by
        rintro rfl
        cases isQuote
      rw [List.cons_append, scan, if_neg (by simp [separates, noComma]), after]
      simp only [isQuote, if_true]
      rw [scan_quoted within, induction]

end Nesting

def openBrackets (text : List Char) : Nat :=
  (text.count '(' + text.count '[' + text.count '{') -
    (text.count ')' + text.count ']' + text.count '}')

def Opens (text : List Char) : Prop :=
  text.count ')' ≤ text.count '(' ∧ text.count ']' ≤ text.count '[' ∧
    text.count '}' ≤ text.count '{'

theorem Nesting.after_openBrackets {before : List Char} {c : Char} (noQuote : isQuote c = false)
    (opens : Opens before) (still : Opens (before ++ [c])) :
    after ⟨openBrackets before, none⟩ c = ⟨openBrackets (before ++ [c]), none⟩ := by
  rcases opens with ⟨round, square, curly⟩
  rcases still with ⟨stillRound, stillSquare, stillCurly⟩
  simp only [List.count_append, List.count_singleton] at stillRound stillSquare stillCurly
  simp only [after, noQuote, openBrackets, List.count_append, List.count_singleton]
  by_cases opening : isOpening c = true
  · simp only [isOpening, Bool.or_eq_true, decide_eq_true_eq] at opening
    rcases opening with (rfl | rfl) | rfl <;> simp [isOpening] at * <;> omega
  by_cases closing : isClosing c = true
  · simp only [isClosing, Bool.or_eq_true, decide_eq_true_eq] at closing
    rcases closing with (rfl | rfl) | rfl <;> simp [isOpening, isClosing] at * <;> omega
  · simp only [isOpening, isClosing, Bool.or_eq_true, decide_eq_true_eq, not_or] at opening closing
    simp [isOpening, isClosing, opening, closing]

theorem scan_eq_openBrackets {outside : List Char}
    (noQuote : ∀ c ∈ outside, Nesting.isQuote c = false)
    (opens : ∀ before, before <+: outside → Opens before)
    (commas : ∀ before, before ++ [','] <+: outside → openBrackets before ≠ 0)
    (before : List Char) (front : before <+: outside) :
    Nesting.outermost.scan before = some ⟨openBrackets before, none⟩ := by
  induction before using List.reverseRecOn with
  | nil => rfl
  | append_singleton before c induction =>
      have shorter : before <+: outside := (List.prefix_append before [c]).trans front
      have member : c ∈ outside :=
        front.subset (List.mem_append_right _ (List.mem_singleton_self c))
      have within : Nesting.separates ⟨openBrackets before, none⟩ c = false := by
        rw [Nesting.separates, Bool.and_eq_false_iff, decide_eq_false_iff_not,
          decide_eq_false_iff_not]
        by_cases comma : c = ','
        · rw [comma] at front
          exact .inr fun same => commas before front (congrArg Nesting.depth same)
        · exact .inl comma
      rw [Nesting.scan_append, induction shorter, Option.bind_some, Nesting.scan, within,
        Nesting.after_openBrackets (noQuote c member) (opens before shorter) (opens _ front)]
      rfl

theorem IsArgument.closed {text : List Char} (isArgument : IsArgument text) : Closed text := by
  rcases isArgument.nested with ⟨outside, unquoted, bracketed⟩
  have round := bracketed.balanced ('(', ')') (by decide)
  have square := bracketed.balanced ('[', ']') (by decide)
  have curly := bracketed.balanced ('{', '}') (by decide)
  have opens (before : List Char) (front : before <+: outside) : Opens before :=
    ⟨round.opened before front, square.opened before front, curly.opened before front⟩
  have commas (before : List Char) (front : before ++ [','] <+: outside) :
      openBrackets before ≠ 0 := by
    rcases opens before ((List.prefix_append before [',']).trans front) with
      ⟨roundOpens, squareOpens, curlyOpens⟩
    rcases bracketed.commas before front with ⟨pair, member, more⟩
    simp only [bracketPairs, List.mem_cons, List.not_mem_nil, or_false] at member
    rcases member with rfl | rfl | rfl <;> simp only [openBrackets] at * <;> omega
  have level : openBrackets outside = 0 := by
    have round := round.closed
    have square := square.closed
    have curly := curly.closed
    simp only [openBrackets] at *
    omega
  have counted := scan_eq_openBrackets unquoted.noQuote opens commas outside List.prefix_rfl
  rw [level] at counted
  exact (Nesting.scan_of_unquoted unquoted 0).trans counted

end Flowchart.Call
