import Flowchart.Call.Arguments
import Flowchart.Call.Name
import Flowchart.Text.Lines

/-!
The places in a line where a function is called: by its name and a parenthesis, or by a call
keyword and its name alone.
-/

namespace Flowchart

open Text

/-- A call in a line, from the character at `start` up to the one before `stop`. -/
structure CallSite where
  start : Nat
  stop : Nat
  callee : String
  arguments : List String
deriving DecidableEq, Repr

namespace Call

def nameEnd? (name : List Char) (place : Place) : Option Place :=
  if place.before.head?.any fun c => isWord c || c = '.' then none
  else (place.take? fold (name.map fold)).filter Place.atEdge

/-- The occurrences of a name, one after another: where each begins and where it ends. `skip`
more characters belong to the occurrence before. -/
def occurrences (name : List Char) (skip : Nat) (before : List Char) :
    List Char → List (Place × Place)
  | [] => []
  | c :: after =>
      match skip with
      | skip + 1 => occurrences name skip (c :: before) after
      | 0 => match nameEnd? name ⟨before, c :: after⟩ with
          | some stop =>
              (⟨before, c :: after⟩, stop) :: occurrences name (name.length - 1) (c :: before) after
          | none => occurrences name 0 (c :: before) after

def callKeywords : List String := ["call", "invoke", "execute"]

def keywordBefore? (before : List Char) : Option Nat :=
  let blanks := (before.takeWhile isBlank).length
  let rest := before.dropWhile isBlank
  if blanks = 0 then none
  else (callKeywords.find? fun keyword =>
      (rest.take keyword.length).map fold = keyword.toList.reverse &&
        !(rest.drop keyword.length).head?.any isWord).map
    fun keyword => blanks + keyword.length

def siteAt? (name : List Char) (start stop : Place) : Option CallSite :=
  let keyword := keywordBefore? start.before
  let first := start.offset - keyword.getD 0
  match Phrase.after? id [.gap, .text "("] stop.after with
  | some inside =>
      (closingOffset? 1 inside).map fun length =>
        { start := first
          stop := stop.offset + (stop.after.length - inside.length) + length + 1
          callee := String.ofList name
          arguments := (splitArguments (inside.take length)).map String.ofList }
  | none => keyword.map fun _ => ⟨first, stop.offset, String.ofList name, []⟩

end Call

def findCalls (line name : List Char) : List CallSite :=
  if name.isEmpty then []
  else (Call.occurrences name 0 [] line).filterMap fun (start, stop) => Call.siteAt? name start stop

def callsFunction (text name : List Char) : Bool :=
  (lines text).any fun line => !(findCalls line name).isEmpty

example : findCalls "Return n * call fact(n - 1)".toList "fact".toList =
    [⟨11, 27, "fact", ["n - 1"]⟩] := by decide

end Flowchart
