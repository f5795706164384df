import Flowchart.Recursion
import Flowchart.Text.LetterCase
import Flowchart.Text.Phrase

/-!
The pattern of a recursion, told by the words in the body of a function. Each pattern has a list of
cues, and its score is the part of them that occur.
-/

namespace Flowchart.Recursion

open Text

abbrev Cue := List Phrase

def Cue.occurs (cue : Cue) (text : List Char) : Bool := cue.any fun phrase => phrase.occurs id text

abbrev Vocabulary := List (String × List Cue)

namespace Vocabulary

/-- A vocabulary of plain words. Of several entries for one pattern the last counts, in the place
of the first. -/
def ofWords (entries : List (String × List String)) : Vocabulary :=
  entries.foldl (fun vocabulary (name, words) =>
    let cues := words.map fun word => [[Piece.text word]]
    if vocabulary.any (·.1 = name) then
      vocabulary.map fun entry => if entry.1 = name then (name, cues) else entry
    else vocabulary ++ [(name, cues)]) []

def word (letters : String) : Phrase := [.edge, .text letters, .edge]

def nMinus (digit : String) : Phrase :=
  [.edge, .text "n", .gap, .text "-", .gap, .text digit, .edge]

def half : Phrase := [.text "/", .gap, .text "2"]

def standard : Vocabulary := [
  ("factorial", [
    [[.text "factorial"], [.text "fact", .edge]],
    [[.edge, .text "n", .gap, .text "*"]],
    [nMinus "1"],
    [[.edge, .text "return", .space, .text "1", .edge]],
    ["<=", "==", "="].map fun symbol => [.text symbol, .gap, .oneOf "01", .edge]]),
  ("fibonacci", [[[.text "fib"]], [nMinus "1"], [nMinus "2"], [[.text ")", .gap, .text "+"]]]),
  ("tree-traversal", [[word "node"], [word "left"], [word "right"],
    [word "null", word "none", word "nil"],
    [[.text "tree"], [.text "visit"], [.text "travers"]]]),
  ("binary-search", [[[.text "binary"], [.text "search"]], [word "mid", [.text "middle"]],
    [word "low"], [word "high"], [half]]),
  ("merge-sort", [[[.text "merge"]], [[.text "sort"]], [word "mid", [.text "middle"]], [half],
    [word "left", word "right"]]),
  ("quick-sort", [[[.text "quick"], [.text "partition"]], [[.text "sort"]], [[.text "pivot"]],
    [word "low"], [word "high"]])]

end Vocabulary

namespace Pattern

def generic : Pattern := ⟨"generic", .float (.ofRatio 1 2)⟩

def standardThreshold : Number := .float (.ofRatio 3 10)

def score (cues : List Cue) (text : List Char) : Binary64 :=
  .ofRatio (cues.countP fun cue => Cue.occurs cue text) cues.length

def best (vocabulary : Vocabulary) (text : List Char) : String × Binary64 :=
  vocabulary.foldl (fun (name, highest) (pattern, cues) =>
    let score := score cues text
    if !cues.isEmpty && highest < score then (pattern, score) else (name, highest))
    ("generic", .finite 0)

def ofText (vocabulary : Vocabulary) (threshold : Number) (text : List Char) : Pattern :=
  let (name, score) := best vocabulary (lower text)
  if Number.float score ≤ threshold then generic
  else ⟨name, .float (score.roundPlaces 3)⟩

end Pattern

abbrev Scorer := List Char → Pattern

def Scorer.standard : Scorer := Pattern.ofText .standard Pattern.standardThreshold

end Flowchart.Recursion
