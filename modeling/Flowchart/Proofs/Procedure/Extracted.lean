import Flowchart.Procedure
import Flowchart.Proofs.Text.LetterCase
import Mathlib.Data.List.Forall2
import Mathlib.Data.List.TakeWhile

/-!
The functions of a text, each from the lines that define it.

A function is read off a header line, whose name is not empty, and the lines of its body stand in
the text. What is known of its recursion is what the analysis of its body says.
-/

namespace Flowchart

open Text

theorem forall₂_of_mapM {ε α β : Type} {step : α → Except ε β} {values : List α}
    {results : List β} (passed : values.mapM step = .ok results) :
    List.Forall₂ (fun value result => step value = .ok result) values results := by
  induction values generalizing results with
  | nil =>
      cases passed
      exact .nil
  | cons value values induction =>
      rw [List.mapM_cons] at passed
      cases first : step value with
      | error error =>
          rw [first] at passed
          cases passed
      | ok result =>
          rw [first] at passed
          cases later : values.mapM step with
          | error error =>
              rw [later] at passed
              cases passed
          | ok others =>
              rw [later] at passed
              cases passed
              exact .cons first (induction later)

theorem exists_of_forall₂ {α β : Type} {relation : α → β → Prop} {values : List α}
    {results : List β} (pairs : List.Forall₂ relation values results) {value : α}
    (member : value ∈ values) : ∃ result ∈ results, relation value result := by
  induction pairs with
  | nil => cases member
  | @cons first result _ _ related _ induction =>
      rcases List.mem_cons.mp member with rfl | later
      · exact ⟨result, List.mem_cons_self, related⟩
      · rcases induction later with ⟨other, among, relates⟩
        exact ⟨other, List.mem_cons_of_mem _ among, relates⟩

namespace Procedure

/-! ## Headers -/

theorem isWord_of_mem_leadingName? {view : Char → Char} {text name : List Char}
    (named : Call.leadingName? view text = some name) : ∀ c ∈ name, isWord c = true := by
  unfold Call.leadingName? at named
  split at named
  · cases named
    exact fun c member => List.mem_takeWhile_imp member
  · cases named

theorem leadingName?_ne_nil {view : Char → Char} {text name : List Char}
    (wordStart : ∀ c, isNameStart (view c) = true → isWord c = true)
    (named : Call.leadingName? view text = some name) : name ≠ [] := by
  unfold Call.leadingName? at named
  split at named
  · rename_i starts
    cases named
    cases text with
    | nil => cases starts
    | cons c rest =>
        have word : isWord c = true := wordStart c starts
        simp [word]
  · cases named

theorem Header.exists_named {line : List Char} {header : Header}
    (isHeader : Header.read? line = some header) :
    ∃ rest, Call.leadingName? fold rest = some header.name.toList := by
  simp only [Header.read?, Option.bind_eq_bind, Option.bind_eq_some_iff] at isHeader
  rcases isHeader with ⟨rest, _, name, named, inside, _, ends⟩
  split at ends
  · split at ends
    · cases ends
      exact ⟨rest, by simpa using named⟩
    · cases ends
  · cases ends

theorem Header.name_ne_empty {line : List Char} {header : Header}
    (isHeader : Header.read? line = some header) : header.name ≠ "" := by
  rcases Header.exists_named isHeader with ⟨rest, named⟩
  intro empty
  rw [empty] at named
  exact leadingName?_ne_nil (fun _ => isWord_of_isNameStart_fold) named rfl

theorem Header.isWord_of_mem_name {line : List Char} {header : Header}
    (isHeader : Header.read? line = some header) : ∀ c ∈ header.name.toList, isWord c = true := by
  rcases Header.exists_named isHeader with ⟨rest, named⟩
  exact isWord_of_mem_leadingName? named

/-! ## Definitions -/

theorem mem_of_mem_takeBody {headerWidth : Nat} {base : Option Nat} {lines : List (List Char)}
    {line : List Char} (member : line ∈ (takeBody headerWidth base lines).1) : line ∈ lines :=
  takeBody_append headerWidth base lines ▸ List.mem_append_left _ member

theorem mem_of_mem_dropEnd {headerWidth : Nat} {lines : List (List Char)} {line : List Char}
    (member : line ∈ dropEnd headerWidth lines) : line ∈ lines := by
  cases lines with
  | nil => cases member
  | cons first rest =>
      rw [dropEnd] at member
      split at member
      · exact List.mem_cons_of_mem _ member
      · exact member

theorem mem_of_mem_trimBody {body : List (List Char)} {line : List Char}
    (member : line ∈ trimBody body) : line ∈ body :=
  List.mem_reverse.mp ((List.dropWhile_sublist _).subset (List.mem_reverse.mp member))

theorem of_mem_captured {lines : List (List Char)} {index : Nat} {function : Captured}
    (member : function ∈ captured (segmentsFrom index lines)) :
    (∃ line ∈ lines, Header.read? line = some function.header) ∧
      ∀ line ∈ function.body, line ∈ lines := by
  induction index, lines using segmentsFrom.induct with
  | case1 index => simp [segmentsFrom, captured] at member
  | case2 index line rest isPlain induction =>
      have inRest : function ∈ captured (segmentsFrom (index + 1) rest) := by
        simpa [segmentsFrom, isPlain, captured, Segment.procedure?] using member
      rcases induction inRest with ⟨⟨header, among, read⟩, body⟩
      exact ⟨⟨header, List.mem_cons_of_mem _ among, read⟩,
        fun line inBody => List.mem_cons_of_mem _ (body line inBody)⟩
  | case3 index line rest header isHeader width after induction =>
      have later (line' : List Char) (inAfter : line' ∈ after) : line' ∈ line :: rest := by
        refine List.mem_cons_of_mem _ ?_
        have kept := mem_of_mem_dropEnd inAfter
        exact takeBody_append width none rest ▸ List.mem_append_right _ kept
      have either : function = ⟨header, index, trimBody (takeBody width none rest).1⟩ ∨
          function ∈ captured
            (segmentsFrom (index + 1 + (rest.length - after.length)) after) := by
        rw [segmentsFrom, isHeader] at member
        simpa [captured, Segment.procedure?] using member
      rcases either with rfl | inAfter
      · refine ⟨⟨line, List.mem_cons_self, isHeader⟩, fun line' inBody => ?_⟩
        exact List.mem_cons_of_mem _ (mem_of_mem_takeBody (mem_of_mem_trimBody inBody))
      · rcases induction inAfter with ⟨⟨header', among, read⟩, body⟩
        exact ⟨⟨header', later _ among, read⟩, fun line' inBody => later _ (body line' inBody)⟩

/-! ## Functions -/

/-- A function holds what its definition says and what the analysis of its body finds. -/
theorem of_ofCaptured {scorer : Recursion.Scorer} {graph : CallGraph} {function : Captured}
    {procedure : Procedure} (made : ofCaptured scorer graph function = .ok procedure) :
    ∃ recursion,
      Recursion.analyze scorer function.header.name function.header.parameters
        (lines (dedent (joinLines function.body))) (graph.mutualPartners function.header.name) =
          .ok recursion ∧
      procedure.name = function.header.name ∧
      procedure.body = bodyBlocks function.header.parameters function.body ∧
      procedure.recursion = some recursion := by
  rcases function with ⟨⟨name, parameters⟩, line, body⟩
  unfold ofCaptured at made
  cases analyzed : Recursion.analyze scorer name parameters (lines (dedent (joinLines body)))
      (graph.mutualPartners name) with
  | error error =>
      simp only [analyzed] at made
      cases made
  | ok recursion =>
      simp only [analyzed] at made
      cases made
      exact ⟨recursion, rfl, rfl, rfl, rfl⟩

theorem forall₂_of_extract {scorer : Recursion.Scorer} {text : List Char}
    {extraction : Extraction} (extracted : extract scorer text = .ok extraction) :
    List.Forall₂ (fun function procedure =>
        ofCaptured scorer (callGraph (captured (segments (lines text)))) function = .ok procedure)
      (captured (segments (lines text))) extraction.procedures := by
  unfold extract at extracted
  cases passed : (captured (segments (lines text))).mapM
      (ofCaptured scorer (callGraph (captured (segments (lines text))))) with
  | error error =>
      simp only [passed] at extracted
      cases extracted
  | ok procedures =>
      simp only [passed] at extracted
      cases extracted
      exact forall₂_of_mapM passed

theorem exists_captured_of_mem {scorer : Recursion.Scorer} {text : List Char}
    {extraction : Extraction} (extracted : extract scorer text = .ok extraction)
    {procedure : Procedure} (member : procedure ∈ extraction.procedures) :
    ∃ function ∈ captured (segments (lines text)),
      ofCaptured scorer (callGraph (captured (segments (lines text)))) function =
        .ok procedure :=
  exists_of_forall₂ (forall₂_of_extract extracted).flip member

end Procedure

end Flowchart
