import Flowchart.Text.Blank
import Flowchart.Text.Word

/-!
Fixed phrases in free text. A phrase is a row of pieces: letters, white space, word boundaries.
White space is always taken as far as it reaches and no piece may follow it that could begin with
white space, so a phrase fits at a place in at most one way.
-/

namespace Flowchart.Text

/-- A place in a text: the characters before it, nearest first, and those from it on. -/
structure Place where
  before : List Char
  after : List Char
deriving DecidableEq, Repr

namespace Place

def start (text : List Char) : Place := ⟨[], text⟩

def offset (place : Place) : Nat := place.before.length

def skip (keep : Char → Bool) (place : Place) : Place :=
  ⟨(place.after.takeWhile keep).reverse ++ place.before, place.after.dropWhile keep⟩

def atEdge (place : Place) : Bool :=
  (place.before.head?.any isWord) != (place.after.head?.any isWord)

def take? (view : Char → Char) : List Char → Place → Option Place
  | [], place => some place
  | letter :: letters, ⟨before, c :: after⟩ =>
      if view c = letter then take? view letters ⟨c :: before, after⟩ else none
  | _ :: _, ⟨_, []⟩ => none

def onward (before : List Char) : List Char → List Place
  | [] => [⟨before, []⟩]
  | c :: after => ⟨before, c :: after⟩ :: onward (c :: before) after

end Place

inductive Piece
  /-- These letters. -/
  | text (letters : String)
  /-- One of these characters. -/
  | oneOf (choices : String)
  /-- White space, or nothing. -/
  | gap
  /-- White space. -/
  | space
  /-- Word characters, as many as there are. -/
  | word
  /-- A word boundary. -/
  | edge
  /-- The end of the text. -/
  | stop

namespace Piece

def fit? (view : Char → Char) (place : Place) : Piece → Option Place
  | .text letters => place.take? view letters.toList
  | .oneOf choices => match place.after with
      | c :: after =>
          if choices.toList.contains (view c) then some ⟨c :: place.before, after⟩ else none
      | [] => none
  | .gap => some (place.skip isBlank)
  | .space => if place.after.head?.any isBlank then some (place.skip isBlank) else none
  | .word => if place.after.head?.any isWord then some (place.skip isWord) else none
  | .edge => if place.atEdge then some place else none
  | .stop => if place.after.isEmpty then some place else none

end Piece

abbrev Phrase := List Piece

namespace Phrase

def fit? (view : Char → Char) (phrase : Phrase) (place : Place) : Option Place :=
  phrase.foldlM (Piece.fit? view) place

def after? (view : Char → Char) (phrase : Phrase) (text : List Char) : Option (List Char) :=
  (phrase.fit? view (.start text)).map Place.after

def begins (view : Char → Char) (phrase : Phrase) (text : List Char) : Bool :=
  (phrase.fit? view (.start text)).isSome

def occurs (view : Char → Char) (phrase : Phrase) (text : List Char) : Bool :=
  (Place.onward [] text).any fun place => (phrase.fit? view place).isSome

def firstAfter? (view : Char → Char) (phrases : List Phrase) (text : List Char) :
    Option (List Char) :=
  phrases.findSome? fun phrase => phrase.after? view text

def anyBegins (view : Char → Char) (phrases : List Phrase) (text : List Char) : Bool :=
  phrases.any fun phrase => phrase.begins view text

end Phrase

example : Phrase.begins id [.text "else", .gap, .text "if", .edge] "else  if(x".toList = true := by
  decide

example : Phrase.begins id [.text "else", .edge] "elsewhere".toList = false := by decide

end Flowchart.Text
