import Flowchart.Proofs.Call.Padding

/-!
Phrases in a text with white space before it and other padding behind it.

A phrase of words and white space takes nothing of what stands behind a text, unless that is white
space, and what is left behind it is an end of the text.
-/

namespace Flowchart.Text

/-! ## Padded texts -/

def Piece.isWordly : Piece → Bool
  | .text letters => letters.toList.all isWord
  | .gap | .space | .edge => true
  | _ => false

section

variable {front back : List Char}

theorem takeWhile_append_of_none {property : Char → Bool}
    (none : ∀ c ∈ back, property c = false) (text : List Char) :
    (text ++ back).takeWhile property = text.takeWhile property := by
  induction text with
  | nil =>
      cases back with
      | nil => rfl
      | cons c more =>
          rw [List.nil_append, List.takeWhile_cons_of_neg (by simp [none c List.mem_cons_self])]
          rfl
  | cons c text induction =>
      rw [List.cons_append, List.takeWhile_cons, List.takeWhile_cons, induction]

theorem dropWhile_append_of_none {property : Char → Bool}
    (none : ∀ c ∈ back, property c = false) (text : List Char) :
    (text ++ back).dropWhile property = text.dropWhile property ++ back := by
  have parts := List.takeWhile_append_dropWhile (p := property) (l := text ++ back)
  have whole : text.takeWhile property ++ (text.dropWhile property ++ back) = text ++ back := by
    rw [← List.append_assoc, List.takeWhile_append_dropWhile]
  rw [takeWhile_append_of_none none] at parts
  exact List.append_cancel_left (parts.trans whole.symm)

theorem Place.skip_pad {property : Char → Bool} (none : ∀ c ∈ back, property c = false)
    (place : Place) :
    (place.pad front back).skip property = (place.skip property).pad front back := by
  rw [skip, pad, takeWhile_append_of_none none, dropWhile_append_of_none none, ← List.append_assoc]
  rfl

theorem Place.skip_start (frontBlank : ∀ c ∈ front, isBlank c = true) (text : List Char) :
    (start (front ++ text)).skip isBlank = ((start text).skip isBlank).pad front.reverse [] := by
  have nothing : front.dropWhile isBlank = [] := List.dropWhile_eq_nil_iff.mpr frontBlank
  rw [skip, skip, start, start, pad, List.takeWhile_append_of_pos frontBlank, List.dropWhile_append,
    nothing, List.isEmpty_nil, if_pos rfl, List.reverse_append]
  simp only [List.append_nil]

variable (frontPads : ∀ c ∈ front, IsPadding c) (backPads : ∀ c ∈ back, IsPadding c)
  (backSeen : ∀ c ∈ back, isBlank c = false)
include frontPads backPads backSeen

theorem Piece.fit?_pad {piece : Piece} (wordly : piece.isWordly = true) (place : Place) :
    piece.fit? fold (place.pad front back) =
      (piece.fit? fold place).map (Place.pad front back) := by
  cases piece with
  | text letters => exact Place.take?_pad backPads (List.all_eq_true.mp wordly)
  | gap => exact congrArg some (Place.skip_pad backSeen place)
  | space =>
      have same : (place.pad front back).after.head?.any isBlank = place.after.head?.any isBlank :=
        any_head?_append backSeen
      rw [fit?, fit?, same, Place.skip_pad backSeen]
      split <;> rfl
  | edge =>
      rw [fit?, fit?, Place.atEdge_pad frontPads backPads]
      split <;> rfl
  | oneOf choices => cases wordly
  | word => cases wordly
  | stop => cases wordly

theorem Phrase.fit?_pad {phrase : Phrase} (wordly : phrase.all Piece.isWordly = true)
    (place : Place) :
    phrase.fit? fold (place.pad front back) =
      (phrase.fit? fold place).map (Place.pad front back) := by
  induction phrase generalizing place with
  | nil => rfl
  | cons piece pieces induction =>
      rw [List.all_cons, Bool.and_eq_true] at wordly
      rw [fit?_cons, fit?_cons, Piece.fit?_pad frontPads backPads backSeen wordly.1]
      cases piece.fit? fold place with
      | none => rfl
      | some behind => exact induction wordly.2 behind

end

/-! ## Phrases that begin with white space -/

section

variable {front back : List Char} (frontBlank : ∀ c ∈ front, isBlank c = true)
  (backPads : ∀ c ∈ back, IsPadding c) (backSeen : ∀ c ∈ back, isBlank c = false)
include frontBlank backPads backSeen

theorem Phrase.fit?_gap_pad {pieces : Phrase} (wordly : pieces.all Piece.isWordly = true)
    (text : List Char) :
    fit? fold (.gap :: pieces) (.start (front ++ (text ++ back))) =
      (fit? fold (.gap :: pieces) (.start text)).map (Place.pad front.reverse back) := by
  have frontPads : ∀ c ∈ front.reverse, IsPadding c := fun c member =>
    isPadding_of_isBlank (frontBlank c (List.mem_reverse.mp member))
  have skipped : (Place.start (front ++ (text ++ back))).skip isBlank =
      ((Place.start text).skip isBlank).pad front.reverse back := by
    have behind : (Place.start (text ++ back)).skip isBlank =
        ((Place.start text).skip isBlank).pad [] back :=
      Place.skip_pad backSeen (Place.start text)
    rw [Place.skip_start frontBlank, behind]
    simp only [Place.pad, List.append_nil]
  rw [fit?_cons, fit?_cons, Piece.fit?, Piece.fit?, skipped]
  exact fit?_pad frontPads backPads backSeen wordly _

theorem Phrase.anyBegins_gap_pad {phrases : List Phrase}
    (wordly : ∀ pieces ∈ phrases, pieces.all Piece.isWordly = true) (text : List Char) :
    anyBegins fold (phrases.map (.gap :: ·)) (front ++ (text ++ back)) =
      anyBegins fold (phrases.map (.gap :: ·)) text := by
  induction phrases with
  | nil => rfl
  | cons pieces others induction =>
      have own := fit?_gap_pad frontBlank backPads backSeen (wordly pieces List.mem_cons_self) text
      have later := induction fun other member => wordly other (List.mem_cons_of_mem _ member)
      rw [anyBegins, anyBegins, List.map_cons, List.any_cons, List.any_cons, begins, begins, own,
        Option.isSome_map]
      exact congrArg _ later

theorem Phrase.firstAfter?_gap_pad {phrases : List Phrase}
    (wordly : ∀ pieces ∈ phrases, pieces.all Piece.isWordly = true) (text : List Char) :
    firstAfter? fold (phrases.map (.gap :: ·)) (front ++ (text ++ back)) =
      (firstAfter? fold (phrases.map (.gap :: ·)) text).map (· ++ back) := by
  induction phrases with
  | nil => rfl
  | cons pieces others induction =>
      have own := fit?_gap_pad frontBlank backPads backSeen (wordly pieces List.mem_cons_self) text
      have later := induction fun other member => wordly other (List.mem_cons_of_mem _ member)
      rw [firstAfter?, firstAfter?, List.map_cons, List.findSome?_cons, List.findSome?_cons, after?,
        after?, own]
      cases fit? fold (.gap :: pieces) (.start text) with
      | none => exact later
      | some behind => rfl

end

/-! ## What is left behind a phrase -/

theorem Place.after_take?_suffix {view : Char → Char} {letters : List Char} :
    ∀ {place behind : Place}, place.take? view letters = some behind →
      behind.after <:+ place.after := by
  induction letters with
  | nil =>
      intro place behind taken
      cases taken
      exact List.suffix_rfl
  | cons letter letters induction =>
      rintro ⟨before, after⟩ behind taken
      cases after with
      | nil => cases taken
      | cons c after =>
          rw [take?] at taken
          split at taken
          · exact (induction taken).trans (List.suffix_cons c after)
          · cases taken

theorem Place.after_skip_suffix (keep : Char → Bool) (place : Place) :
    (place.skip keep).after <:+ place.after :=
  List.dropWhile_suffix _

theorem Piece.after_suffix {view : Char → Char} {piece : Piece} {place behind : Place}
    (fits : piece.fit? view place = some behind) : behind.after <:+ place.after := by
  cases piece with
  | text letters => exact Place.after_take?_suffix fits
  | oneOf choices =>
      obtain ⟨before, after⟩ := place
      cases after with
      | nil => cases fits
      | cons c after =>
          simp only [fit?, Option.ite_none_right_eq_some, Option.some.injEq] at fits
          obtain ⟨_, rfl⟩ := fits
          exact List.suffix_cons c after
  | gap =>
      cases fits
      exact Place.after_skip_suffix _ place
  | space | word =>
      simp only [fit?, Option.ite_none_right_eq_some, Option.some.injEq] at fits
      obtain ⟨_, rfl⟩ := fits
      exact Place.after_skip_suffix _ place
  | edge | stop =>
      simp only [fit?, Option.ite_none_right_eq_some, Option.some.injEq] at fits
      obtain ⟨_, rfl⟩ := fits
      exact List.suffix_rfl

theorem Phrase.after_suffix {view : Char → Char} {phrase : Phrase} {place behind : Place}
    (fits : phrase.fit? view place = some behind) : behind.after <:+ place.after := by
  induction phrase generalizing place with
  | nil =>
      cases fits
      exact List.suffix_rfl
  | cons piece pieces induction =>
      rw [fit?_cons, Option.bind_eq_some_iff] at fits
      obtain ⟨between, first, later⟩ := fits
      exact (induction later).trans (Piece.after_suffix first)

theorem Phrase.firstAfter?_suffix {view : Char → Char} {phrases : List Phrase}
    {text rest : List Char} (found : firstAfter? view phrases text = some rest) :
    rest <:+ text := by
  obtain ⟨phrase, _, fits⟩ := List.exists_of_findSome?_eq_some found
  rw [after?, Option.map_eq_some_iff] at fits
  obtain ⟨behind, fits, rfl⟩ := fits
  exact after_suffix fits

end Flowchart.Text
