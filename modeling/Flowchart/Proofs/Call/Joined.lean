import Flowchart.Proofs.Call.Arguments
import Flowchart.Proofs.Text.Margin

/-!
The arguments of any text, joined with commas and split again.

Whatever brackets and quotes a text leaves open, only its last argument can leave them open, for
otherwise the comma behind it would not separate. White space around an argument stands outside of
its quotes, or else behind a quote that is never closed, so that an argument stays closed without
it. Joined and split again, the arguments are therefore the same.
-/

namespace Flowchart.Call

open Text

namespace Nesting

theorem isQuote_of_after {nesting : Nesting} {c : Char}
    (known : ∀ mark ∈ nesting.quote, isQuote mark = true) :
    ∀ mark ∈ (nesting.after c).quote, isQuote mark = true := by
  intro mark member
  unfold after at member
  split at member
  · split at member
    · cases member
    · exact known mark member
  · rename_i noQuote
    split at member
    · rename_i opens
      cases member
      exact opens
    · rw [noQuote] at known
      split at member
      · exact known mark (noQuote ▸ member)
      · split at member
        · exact known mark (noQuote ▸ member)
        · exact known mark (noQuote ▸ member)

theorem isQuote_of_outermost : ∀ mark ∈ outermost.quote, isQuote mark = true := by
  intro mark member
  cases member

theorem isQuote_of_scan {text : List Char} {nesting later : Nesting}
    (known : ∀ mark ∈ nesting.quote, isQuote mark = true) (scans : nesting.scan text = some later) :
    ∀ mark ∈ later.quote, isQuote mark = true := by
  induction text generalizing nesting with
  | nil =>
      cases scans
      exact known
  | cons c text induction =>
      rw [scan] at scans
      split at scans
      · cases scans
      · exact induction (isQuote_of_after known) scans

theorem after_of_isBlank {nesting : Nesting} {c : Char} (blank : isBlank c = true)
    (known : ∀ mark ∈ nesting.quote, isQuote mark = true) : nesting.after c = nesting := by
  have noQuote : isQuote c = false := by
    by_contra isQuote
    simp only [Nesting.isQuote, Bool.not_eq_false, Bool.or_eq_true, decide_eq_true_eq] at isQuote
    rcases isQuote with rfl | rfl <;> cases blank
  have noOpening : isOpening c = false := by
    by_contra opening
    simp only [isOpening, Bool.not_eq_false, Bool.or_eq_true, decide_eq_true_eq] at opening
    rcases opening with (rfl | rfl) | rfl <;> cases blank
  have noClosing : isClosing c = false := by
    by_contra closing
    simp only [isClosing, Bool.not_eq_false, Bool.or_eq_true, decide_eq_true_eq] at closing
    rcases closing with (rfl | rfl) | rfl <;> cases blank
  unfold after
  split
  · rename_i mark opened
    have other : c ≠ mark := by
      rintro rfl
      rw [known c opened] at noQuote
      cases noQuote
    rw [if_neg other]
  · simp [noQuote, noOpening, noClosing]

theorem separates_of_isBlank {nesting : Nesting} {c : Char} (blank : isBlank c = true) :
    nesting.separates c = false := by
  have noComma : c ≠ ',' := by
    rintro rfl
    cases blank
  simp [separates, noComma]

theorem scan_of_blank {nesting : Nesting} {blanks : List Char}
    (blank : ∀ c ∈ blanks, isBlank c = true)
    (known : ∀ mark ∈ nesting.quote, isQuote mark = true) :
    nesting.scan blanks = some nesting := by
  induction blanks with
  | nil => rfl
  | cons c blanks induction =>
      have own := blank c List.mem_cons_self
      rw [scan, separates_of_isBlank own, after_of_isBlank own known]
      exact induction fun other member => blank other (List.mem_cons_of_mem _ member)

theorem scan_append_blank {text blanks : List Char} (blank : ∀ c ∈ blanks, isBlank c = true) :
    outermost.scan (text ++ blanks) = outermost.scan text := by
  rw [scan_append]
  cases scans : outermost.scan text with
  | none => rfl
  | some later => exact scan_of_blank blank (isQuote_of_scan isQuote_of_outermost scans)

theorem scan_trim (text : List Char) : outermost.scan (trim text) = outermost.scan text := by
  rcases exists_trim text with ⟨front, back, split, blankFront, blankBack⟩
  calc outermost.scan (trim text)
      = outermost.scan (trim text ++ back) := (scan_append_blank blankBack).symm
    _ = (outermost.scan front).bind (·.scan (trim text ++ back)) := by
        rw [scan_of_blank blankFront isQuote_of_outermost, Option.bind_some]
    _ = outermost.scan text := by rw [← scan_append, ← split]

end Nesting

/-! ## The arguments of any text -/

/-- A separating comma stands where everything is closed, so that only the last piece leaves
something open. -/
theorem closedButLast_piecesAfter {piece : List Char} {nesting : Nesting}
    (scans : Nesting.outermost.scan piece.reverse = some nesting) (text : List Char) :
    ClosedButLast (piecesAfter piece nesting text) := by
  induction text generalizing piece nesting with
  | nil => exact .last (Option.isSome_of_mem scans)
  | cons c text induction =>
      rw [piecesAfter]
      split
      · rename_i separates
        simp only [Nesting.separates, Bool.and_eq_true, decide_eq_true_eq] at separates
        rcases separates with ⟨_, rfl⟩
        exact .cons scans (induction rfl)
      · rename_i within
        refine induction ?_
        rw [List.reverse_cons, Nesting.scan_append, scans, Option.bind_some, Nesting.scan,
          if_neg within]
        rfl

theorem ClosedButLast.map_trim {pieces : List (List Char)} (closed : ClosedButLast pieces) :
    ClosedButLast (pieces.map trim) := by
  induction closed with
  | nil => exact .nil
  | last unseparated => exact .last (by rwa [Unseparated, Nesting.scan_trim])
  | cons closed _ induction => exact .cons (by rwa [Closed, Nesting.scan_trim]) induction

theorem ClosedButLast.filter {pieces : List (List Char)} (closed : ClosedButLast pieces)
    (keep : List Char → Bool) : ClosedButLast (pieces.filter keep) := by
  induction closed with
  | nil => exact .nil
  | last unseparated =>
      rw [List.filter_cons]
      split
      · exact .last unseparated
      · exact .nil
  | cons closed _ induction =>
      rw [List.filter_cons]
      split
      · exact .cons closed induction
      · exact induction

theorem closedButLast_splitArguments (text : List Char) : ClosedButLast (splitArguments text) :=
  ((closedButLast_piecesAfter rfl text).map_trim).filter _

theorem of_mem_splitArguments {text piece : List Char} (member : piece ∈ splitArguments text) :
    piece ≠ [] ∧ Trimmed piece := by
  rcases List.mem_filter.mp member with ⟨among, some⟩
  rcases List.mem_map.mp among with ⟨untrimmed, _, rfl⟩
  exact ⟨by simpa using some, trimmed_trim untrimmed⟩

/-- Splitting undoes the joining of closed arguments. And whatever the text, its arguments have no
outer white space, and joined and split again they are the same. -/
theorem splitArguments_undoes_joining :
    (∀ arguments : List (List Char),
      (∀ argument ∈ arguments, Closed argument ∧ argument ≠ [] ∧ Trimmed argument) →
        splitArguments (List.intercalate [',', ' '] arguments) = arguments) ∧
    ∀ text : List Char,
      splitArguments (List.intercalate [',', ' '] (splitArguments text)) = splitArguments text ∧
        ∀ piece ∈ splitArguments text, piece ≠ [] ∧ Trimmed piece := by
  constructor
  · intro arguments each
    exact splitArguments_intercalate (fun argument member => (each argument member).1)
      (fun argument member => (each argument member).2.1)
      fun argument member => (each argument member).2.2
  · intro text
    refine ⟨?_, fun piece => of_mem_splitArguments⟩
    exact splitArguments_intercalate_of_closedButLast (closedButLast_splitArguments text)
      (fun _ member => (of_mem_splitArguments member).1)
      fun _ member => (of_mem_splitArguments member).2

def oddArguments : List (List Char) :=
  ["f(a, \x7bb]".toList ++ [')'], "c) + ')'".toList, "\"d, (\"".toList]

theorem splitArguments_undoes_joining_oddArguments :
    (∀ argument ∈ oddArguments, Closed argument ∧ argument ≠ [] ∧ Trimmed argument) ∧
      splitArguments (List.intercalate [',', ' '] oddArguments) = oddArguments := by
  have each : ∀ argument ∈ oddArguments, Closed argument ∧ argument ≠ [] ∧ Trimmed argument := by
    intro argument member
    simp only [oddArguments, List.mem_cons, List.not_mem_nil, or_false] at member
    rcases member with rfl | rfl | rfl <;> exact ⟨by decide, by decide, by decide, by decide⟩
  exact ⟨each, splitArguments_undoes_joining.1 oddArguments each⟩

end Flowchart.Call
