import Flowchart.Position
import Flowchart.Text.Blank

/-!
The arguments between the parentheses of a call. Commas separate them, except inside brackets and
quotes.
-/

namespace Flowchart.Call

open Text

structure Nesting where
  depth : Nat
  quote : Option Char
deriving DecidableEq, Repr

namespace Nesting

def outermost : Nesting := ⟨0, none⟩

def isOpening (c : Char) : Bool := c = '(' || c = '[' || c = '{'

def isClosing (c : Char) : Bool := c = ')' || c = ']' || c = '}'

def isQuote (c : Char) : Bool := c = '\'' || c = '"'

/-- The nesting after one more character. A bracket of any kind closes any other, and one too
many closes nothing. -/
def after (nesting : Nesting) (c : Char) : Nesting :=
  match nesting.quote with
  | some quote => if c = quote then { nesting with quote := none } else nesting
  | none =>
      if isQuote c then { nesting with quote := some c }
      else if isOpening c then { nesting with depth := nesting.depth + 1 }
      else if isClosing c then { nesting with depth := nesting.depth - 1 }
      else nesting

def separates (nesting : Nesting) (c : Char) : Bool := c = ',' && nesting = outermost

end Nesting

def piecesAfter (piece : List Char) (nesting : Nesting) : List Char → List (List Char)
  | [] => [piece.reverse]
  | c :: rest =>
      if nesting.separates c then piece.reverse :: piecesAfter [] nesting rest
      else piecesAfter (c :: piece) (nesting.after c) rest

def splitArguments (text : List Char) : List (List Char) :=
  ((piecesAfter [] .outermost text).map trim).filter (!·.isEmpty)

/-! ## Closing parentheses -/

/-- The number of characters before the parenthesis that brings `depth` open parentheses back to
none. Quotes do not count here. -/
def closingOffset? (depth : Int) : List Char → Option Nat
  | [] => none
  | c :: rest =>
      if c = ')' then
        if depth = 1 then some 0 else (closingOffset? (depth - 1) rest).map (· + 1)
      else (closingOffset? (if c = '(' then depth + 1 else depth) rest).map (· + 1)

/-- The position of the parenthesis that closes the one at `openAt`. A search from a negative
position goes on from the start of the text, and what it finds before is a negative position too. -/
def matchingParenthesis (text : List Char) (openAt : Int) :
    Except Position.Error (Option Int) := do
  let index ← Position.index .text text.length openAt
  let ahead := text.drop index ++ if openAt < 0 then text else []
  return (closingOffset? 0 ahead).map fun offset => openAt + offset

example : (splitArguments "a, f(b, c), 'x,y'".toList).map String.ofList =
    ["a", "f(b, c)", "'x,y'"] := by decide

example : matchingParenthesis "f(a(b))c".toList 1 = .ok (some 6) := rfl

end Flowchart.Call
