import Flowchart.Text.LetterCase
import Flowchart.Text.Phrase

/-!
The names of functions: their plain form, in which they are compared, and the function that a
call block names.
-/

namespace Flowchart.Call

open Text

def isPlainLetter (c : Char) : Bool :=
  ('a' ≤ c && c ≤ 'z') || ('0' ≤ c && c ≤ '9') || c = '_'

/-- The plain form of a name: lower case, basic letters, digits and underscores only. Where
nothing is left, or where there is no name, an underscore stands for it. -/
def plainName (name : Option String) : String :=
  let letters := (lower (trim (name.getD "").toList)).filter isPlainLetter
  if letters.isEmpty then "_" else String.ofList letters

def sameName (left right : Option String) : Bool := plainName left == plainName right

def leadingName? (view : Char → Char) (text : List Char) : Option (List Char) :=
  if text.head?.any fun c => isNameStart (view c) then some (text.takeWhile isWord) else none

def callPhrases : List Phrase :=
  ["call", "invoke", "execute", "function", "procedure"].map fun keyword =>
    [.gap, .text keyword, .space]

def plainWords : List String :=
  ["if", "while", "for", "return", "print", "output", "input", "and", "or", "not"]

def calledName? (place : Place) : Option (List Char) :=
  if place.atEdge then
    (leadingName? id place.after).filter fun name =>
      Phrase.begins id [.gap, .text "("] (place.after.drop name.length) &&
        !plainWords.contains (String.ofList (lower name))
  else none

def callee? (content : List Char) : Option (List Char) :=
  let named := callPhrases.findSome? fun phrase =>
    (phrase.after? fold content).bind (leadingName? fold)
  match named with
  | some name => some name
  | none => (Place.onward [] content).findSome? calledName?

example : callee? "Call sum(a, b)".toList = some "sum".toList := by decide

example : callee? "if (ready) total(x)".toList = some "total".toList := by decide

end Flowchart.Call
