import Flowchart.Proofs.Procedure.Spaced

/-!
The functions and the main flow that are extracted from two texts whose lines read the same, up to
blank lines.

The main flows have the same outline. The functions have the same names, parameters and recursions,
up to the places of lines. Their bodies are made of lines that read the same, but a margin is cut
from them that may differ.
-/

namespace Flowchart

open Text

namespace Outline

theorem exists_mem_seen_iff (property : List Char → Prop) (ofEmpty : ¬property [])
    (measure : List Char → Nat) (rows : List (List Char)) :
    (∃ line ∈ seen measure rows, property line.2) ↔ ∃ line ∈ rows, property (content line) := by
  constructor
  · rintro ⟨view, member, holds⟩
    obtain ⟨line, inRows, viewed⟩ := List.mem_filterMap.mp member
    rw [seen?] at viewed
    split at viewed
    · cases viewed
    · cases viewed
      exact ⟨line, inRows, holds⟩
  · rintro ⟨line, inRows, holds⟩
    have some : (content line).isEmpty = false := by
      apply Bool.eq_false_iff.mpr
      intro empty
      rw [List.isEmpty_iff.mp empty] at holds
      exact ofEmpty holds
    refine ⟨(measure line, content line), List.mem_filterMap.mpr ⟨line, inRows, ?_⟩, holds⟩
    rw [seen?, some]
    rfl

end Outline

def Procedure.unplaced (procedure : Procedure) : Procedure :=
  { procedure with
    recursion := procedure.recursion.map Recursion.unplaced
    sourceLine := 0 }

namespace Procedure

open Outline

variable {related : List Char → List Char → Prop}

/-! ## Calls -/

theorem foldl_eq_of_forall₂ {α β γ : Type} {pairing : α → β → Prop} {step : γ → α → γ}
    {stepToo : γ → β → γ} {values : List α} {others : List β}
    (pairs : List.Forall₂ pairing values others)
    (each : ∀ gathered value other,
      pairing value other → stepToo gathered other = step gathered value)
    (gathered : γ) : others.foldl stepToo gathered = values.foldl step gathered := by
  induction pairs generalizing gathered with
  | nil => rfl
  | cons same pairs induction =>
      rw [List.foldl_cons, List.foldl_cons, each _ _ _ same, induction]

def Unbroken (rows : List (List Char)) : Prop :=
  ∀ line ∈ rows, ∀ c ∈ line, isLineBreak c = false

theorem callsFunction_eq_of_seen {body bodyToo : List (List Char)} {name : List Char}
    (words : ∀ c ∈ name, isWord c = true) (unbroken : Unbroken body)
    (unbrokenToo : Unbroken bodyToo)
    (same : seen leadingWidth bodyToo = seen leadingWidth body) :
    callsFunction (joinLines bodyToo) name = callsFunction (joinLines body) name := by
  have ofEmpty : ¬findCalls [] name ≠ [] := by simp [findCalls, Call.occurrences]
  have inText {rows : List (List Char)} (unbroken : Unbroken rows) :
      callsFunction (joinLines rows) name = true ↔
        ∃ line ∈ seen leadingWidth rows, findCalls line.2 name ≠ [] := by
    rw [callsFunction_iff unbroken,
      exists_mem_seen_iff (fun text => findCalls text name ≠ []) ofEmpty]
    apply exists_congr
    intro line
    rw [ne_eq, ne_eq, Call.findCalls_content words]
  rw [Bool.eq_iff_iff, inText unbroken, inText unbrokenToo, same]

theorem forall₂_of_mem {α β : Type} {pairing pairingThen : α → β → Prop} {values : List α}
    {others : List β} (pairs : List.Forall₂ pairing values others)
    (each : ∀ value ∈ values, ∀ other ∈ others, pairing value other → pairingThen value other) :
    List.Forall₂ pairingThen values others := by
  induction pairs with
  | nil => exact .nil
  | @cons value other values others same pairs induction =>
      apply List.Forall₂.cons (each value List.mem_cons_self other List.mem_cons_self same)
      apply induction
      intro value member other memberToo
      exact each value (List.mem_cons_of_mem _ member) other (List.mem_cons_of_mem _ memberToo)

theorem forall₂_zip {α β γ δ : Type} {pairing : α → β → Prop} {first : α → γ → Prop}
    {second : β → δ → Prop} {joint : α → γ × δ → Prop} {values : List α} {others : List β}
    {results : List γ} {resultsToo : List δ} (pairs : List.Forall₂ pairing values others)
    (firsts : List.Forall₂ first values results) (seconds : List.Forall₂ second others resultsToo)
    (each : ∀ {value other result resultToo}, pairing value other → first value result →
      second other resultToo → joint value (result, resultToo)) :
    List.Forall₂ joint values (results.zip resultsToo) := by
  induction pairs generalizing results resultsToo with
  | nil =>
      cases firsts
      exact .nil
  | cons pair pairs induction =>
      cases firsts with
      | cons one firsts =>
          cases seconds with
          | cons two seconds => exact .cons (each pair one two) (induction firsts seconds)

structure Twins (related : List Char → List Char → Prop) (function other : Captured) : Prop
    extends Counterpart related function other where
  named : ∃ line, Header.read? line = some function.header
  unbroken : Unbroken function.body
  unbrokenToo : Unbroken other.body

theorem unbroken_lines (text : List Char) : Unbroken (lines text) :=
  fun _ member => not_isLineBreak_of_mem_lines member

section

variable (reads : ∀ {line other}, related line other → SameReading line other)
include reads

theorem forall₂_twins {text textToo : List Char}
    (spaced : Spaced related (lines text) (lines textToo)) :
    List.Forall₂ (Twins related) (captured (segments (lines text)))
      (captured (segments (lines textToo))) := by
  apply forall₂_of_mem (spaced.segmentsFrom reads 0 0).2
  intro function member other memberToo pair
  obtain ⟨⟨line, _, named⟩, body⟩ := of_mem_captured member
  obtain ⟨_, bodyToo⟩ := of_mem_captured memberToo
  exact ⟨pair, ⟨line, named⟩, fun line inBody => unbroken_lines text line (body line inBody),
    fun line inBody => unbroken_lines textToo line (bodyToo line inBody)⟩

variable {function other : Captured}

theorem Spaced.seen_leadingWidth {rows others : List (List Char)}
    (spaced : Spaced related rows others) :
    seen leadingWidth others = seen leadingWidth rows := by
  apply spaced.seen_eq
  intro line other same
  rw [seen?, seen?, (reads same).content, (reads same).width]

theorem Spaced.seen_indentation {rows others : List (List Char)}
    (spaced : Spaced related rows others) :
    seen indentation others = seen indentation rows := by
  apply spaced.seen_eq
  intro line other same
  rw [seen?, seen?, (reads same).content, (reads same).indentation]

theorem callGraph_eq {functions others : List Captured}
    (twins : List.Forall₂ (Twins related) functions others) :
    callGraph others = callGraph functions := by
  have names : others.map (·.header.name) = functions.map (·.header.name) :=
    map_eq_of_forall₂ (twins.imp fun function other pair => congrArg Header.name pair.header)
  have words : ∀ name ∈ functions.map (·.header.name), ∀ c ∈ name.toList, isWord c = true := by
    intro name member
    obtain ⟨function, inFunctions, rfl⟩ := List.mem_map.mp member
    obtain ⟨other, _, pair⟩ := exists_of_forall₂ twins inFunctions
    obtain ⟨line, named⟩ := pair.named
    exact Header.isWord_of_mem_name named
  rw [callGraph, callGraph]
  apply foldl_eq_of_forall₂ twins
  intro graph function other pair
  dsimp only
  rw [names, pair.header]
  congr 2
  apply List.filter_congr
  intro name member
  rw [callsFunction_eq_of_seen (words name member) pair.unbroken pair.unbrokenToo
    (pair.body.seen_leadingWidth reads)]

/-! ## Functions -/

omit reads in
structure Remade (body bodyToo : List (List Char)) (procedure other : Procedure) : Prop where
  body_eq : procedure.body = bodyBlocks procedure.parameters body
  unplaced_eq : other.unplaced =
    { procedure.unplaced with body := bodyBlocks procedure.parameters bodyToo }

omit reads in
theorem isRecursive_unplaced (procedure : Procedure) :
    procedure.unplaced.isRecursive = procedure.isRecursive := by
  rw [isRecursive, isRecursive, unplaced, Option.any_map]
  rfl

section

variable {body bodyToo : List (List Char)} {procedure remade : Procedure}

omit reads in
theorem Remade.name_eq (both : Remade body bodyToo procedure remade) :
    remade.name = procedure.name :=
  (congrArg Procedure.name both.unplaced_eq :)

omit reads in
theorem Remade.parameters_eq (both : Remade body bodyToo procedure remade) :
    remade.parameters = procedure.parameters :=
  (congrArg Procedure.parameters both.unplaced_eq :)

omit reads in
theorem Remade.isRecursive_eq (both : Remade body bodyToo procedure remade) :
    remade.isRecursive = procedure.isRecursive := by
  rw [← isRecursive_unplaced remade, ← isRecursive_unplaced procedure, both.unplaced_eq]
  rfl

end

theorem Twins.matches_ofCaptured (twins : Twins related function other) (scorer : Recursion.Scorer)
    (graph : CallGraph) :
    Matches (Remade function.body other.body) (ofCaptured scorer graph function)
      (ofCaptured scorer graph other) := by
  obtain ⟨⟨header, spaced⟩, _, unbroken, unbrokenToo⟩ := twins
  obtain ⟨⟨name, parameters⟩, line, rows⟩ := function
  obtain ⟨headerToo, lineToo, rowsToo⟩ := other
  dsimp only at header spaced unbroken unbrokenToo
  subst header
  have sameSeen : further (columns (margin rowsToo))
        (seen leadingWidth (lines (dedent (joinLines rowsToo)))) =
      further (columns (margin rows)) (seen leadingWidth (lines (dedent (joinLines rows)))) := by
    rw [seen_lines_dedent _ unbroken, seen_lines_dedent _ unbrokenToo,
      further_seen_dedentLines isMeasure_leadingWidth,
      further_seen_dedentLines isMeasure_leadingWidth, spaced.seen_leadingWidth reads]
  have analyzed := Matches.of_map_eq
    (Recursion.analyze_unplaced scorer name parameters (graph.mutualPartners name) sameSeen)
  simp only [ofCaptured]
  apply analyzed.bind
  intro recursion recursionToo same
  apply Matches.ok
  refine ⟨rfl, ?_⟩
  simp only [unplaced, Option.map_some, same]

/-! ## Texts -/

omit reads in
theorem mem_of_mem_mainFlow {index : Nat} {lines : List (List Char)} {line : List Char}
    (member : line ∈ mainFlow (segmentsFrom index lines)) : line ∈ lines := by
  induction index, lines using segmentsFrom.induct with
  | case1 index => simp [segmentsFrom, mainFlow] at member
  | case2 index first rest isPlain induction =>
      have either : line = first ∨ line ∈ mainFlow (segmentsFrom (index + 1) rest) := by
        simpa [segmentsFrom, isPlain, mainFlow, Segment.plain?] using member
      rcases either with rfl | later
      · exact List.mem_cons_self
      · exact List.mem_cons_of_mem _ (induction later)
  | case3 index first rest header isHeader width after induction =>
      have later :
          line ∈ mainFlow (segmentsFrom (index + 1 + (rest.length - after.length)) after) := by
        rw [segmentsFrom, isHeader] at member
        simpa [mainFlow, Segment.plain?] using member
      have kept := mem_of_mem_dropEnd (induction later)
      exact List.mem_cons_of_mem _ (takeBody_append width none rest ▸ List.mem_append_right _ kept)

omit reads in
theorem unbroken_mainFlow (text : List Char) : Unbroken (mainFlow (segments (lines text))) :=
  fun line member => unbroken_lines text line (mem_of_mem_mainFlow member)

structure Extraction.Remade (related : List Char → List Char → Prop)
    (extraction other : Extraction) : Prop where
  flow : outline other.mainFlow = outline extraction.mainFlow
  procedures : List.Forall₂ (fun procedure remade => ∃ function twin, Twins related function twin ∧
    Procedure.Remade function.body twin.body procedure remade)
      extraction.procedures other.procedures

theorem matches_extract {text textToo : List Char}
    (spaced : Spaced related (lines text) (lines textToo)) (scorer : Recursion.Scorer) :
    Matches (Extraction.Remade related) (extract scorer text) (extract scorer textToo) := by
  have twins := forall₂_twins reads spaced
  obtain ⟨flow, _⟩ := spaced.segmentsFrom reads 0 0
  simp only [extract]
  rw [callGraph_eq reads twins]
  have each : ∀ {function twin}, Twins related function twin →
      Matches (fun procedure remade => ∃ function twin, Twins related function twin ∧
          Procedure.Remade function.body twin.body procedure remade)
        (ofCaptured scorer (callGraph (captured (segments (lines text)))) function)
        (ofCaptured scorer (callGraph (captured (segments (lines text)))) twin) := by
    intro function twin pair
    apply (pair.matches_ofCaptured reads scorer _).imp
    intro procedure remade both
    exact ⟨function, twin, pair, both⟩
  apply (Matches.mapM twins each).bind
  intro procedures proceduresToo remade
  apply Matches.ok
  refine ⟨?_, remade⟩
  rw [outline_joinLines (unbroken_mainFlow text), outline_joinLines (unbroken_mainFlow textToo)]
  exact congrArg (blocksOf []) (flow.seen_indentation reads)

end

end Procedure

end Flowchart
