import Flowchart.Call.Site
import Flowchart.Outline

/-!
The lines in the body of a function, as the analysis of its recursion sees them.
-/

namespace Flowchart.Recursion

open Text

/-- A line that is not blank: its place in the body, its indentation, its text, and the calls in
it that may lead back to the function. A comment holds no calls. -/
structure BodyLine where
  index : Nat
  indent : Nat
  text : List Char
  sites : List CallSite
deriving DecidableEq, Repr

def commentPhrases : List Phrase := [[.text "//"], [.text "#"], [.text "comment:"]]

def isComment (text : List Char) : Bool := Phrase.anyBegins fold commentPhrases text

def ifPhrase : Phrase := [.text "if", .edge]

def elseIfPhrases : List Phrase := [[.text "else", .gap, .text "if", .edge], [.text "elif", .edge]]

def elsePhrase : Phrase := [.text "else", .stop]

def opensBranch (text : List Char) : Bool := Phrase.anyBegins fold (ifPhrase :: elseIfPhrases) text

def beginsBranch (text : List Char) : Bool := opensBranch text || elsePhrase.begins fold text

def isEndLine (text : List Char) : Bool := Phrase.begins fold [.text "end", .edge] text

def returned? (text : List Char) : Option (List Char) :=
  (Phrase.after? fold [.text "return", .edge, .gap] text).filter (!·.contains '\n')

def exitWord? (text : List Char) : Option (List Char) :=
  ["break", "continue"].findSome? fun word =>
    if Phrase.begins fold [.text word, .edge] text then some (text.take word.length) else none

def isExitLine (text : List Char) : Bool := (returned? text).isSome || (exitWord? text).isSome

def callsOf (targets : List String) (text : List Char) : List CallSite :=
  targets.flatMap fun target => findCalls text target.toList

def sortSites (sites : List CallSite) : List CallSite :=
  sites.mergeSort fun left right => left.start ≤ right.start

def bodyLines (targets : List String) (lines : List (List Char)) : List BodyLine :=
  lines.zipIdx.filterMap fun (line, index) =>
    let text := Outline.content line
    if text.isEmpty then none
    else
      some
        { index
          indent := Outline.leadingWidth line
          text
          sites := if isComment text then [] else sortSites (callsOf targets text) }

def bodyText (body : List BodyLine) : List Char := joinLines (body.map (·.text))

end Flowchart.Recursion
