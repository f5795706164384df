import Flowchart.Call.Name
import Flowchart.Outline

/-!
Function definitions in the text of a program. A header line is followed by a body of deeper lines,
after which an end line on the level of the header may stand. A header inside a body is a line of
that body.
-/

namespace Flowchart.Procedure

open Text

structure Header where
  name : String
  parameters : List String
deriving DecidableEq, Repr

namespace Header

def openings : List Phrase :=
  ["function", "procedure", "def"].map fun keyword => [.gap, .text keyword, .space]

def isEnding (text : List Char) : Bool := trim text = [] || trim text = [':', ':']

def splitParameters (text : List Char) : List String :=
  (((pieces ',' text).map trim).filter (!·.isEmpty)).map String.ofList

def read? (line : List Char) : Option Header := do
  let rest ← Phrase.firstAfter? fold openings line
  let name ← Call.leadingName? fold rest
  let inside ← Phrase.after? id [.gap, .text "("] (rest.drop name.length)
  match inside.dropWhile (· ≠ ')') with
  | ')' :: ending =>
      if isEnding ending then
        some ⟨String.ofList name, splitParameters (inside.takeWhile (· ≠ ')'))⟩
      else none
  | _ => none

end Header

def endPhrases : List Phrase :=
  ["function", "procedure", "def"].map fun keyword =>
    [.gap, .text "end", .gap, .text keyword, .edge]

def isEndLine (line : List Char) : Bool := Phrase.anyBegins fold endPhrases line

structure Captured where
  header : Header
  line : Nat
  body : List (List Char)
deriving DecidableEq, Repr

inductive Segment
  | plain (line : List Char)
  | procedure (captured : Captured)
deriving DecidableEq, Repr

/-- The lines that belong to a body below a header of some width, and the lines after them. Blank
lines belong to it wherever they stand. The first other line has to be wider than the header, and
no line may be narrower than that one, whose width is `base` once it is known. -/
def takeBody (headerWidth : Nat) (base : Option Nat) :
    List (List Char) → List (List Char) × List (List Char)
  | [] => ([], [])
  | line :: rest =>
      if isAllBlank line then
        let (body, after) := takeBody headerWidth base rest
        (line :: body, after)
      else
        let width := Outline.leadingWidth line
        if headerWidth < width ∧ base.all (· ≤ width) then
          let (body, after) := takeBody headerWidth (some (base.getD width)) rest
          (line :: body, after)
        else ([], line :: rest)

theorem takeBody_append (headerWidth : Nat) (base : Option Nat) (lines : List (List Char)) :
    (takeBody headerWidth base lines).1 ++ (takeBody headerWidth base lines).2 = lines := by
  induction lines generalizing base with
  | nil => rfl
  | cons line rest induction =>
      simp only [takeBody]
      split
      · simp [induction]
      · split
        · simp [induction]
        · rfl

def dropEnd (headerWidth : Nat) : List (List Char) → List (List Char)
  | [] => []
  | line :: rest =>
      if isEndLine line && Outline.leadingWidth line ≤ headerWidth then rest else line :: rest

theorem length_dropEnd_le (headerWidth : Nat) (lines : List (List Char)) :
    (dropEnd headerWidth lines).length ≤ lines.length := by
  cases lines with
  | nil => exact Nat.le_refl _
  | cons line rest => simp only [dropEnd]; split <;> simp

def trimBody (body : List (List Char)) : List (List Char) :=
  (body.reverse.dropWhile isAllBlank).reverse

def segmentsFrom (index : Nat) : List (List Char) → List Segment
  | [] => []
  | line :: rest =>
      match Header.read? line with
      | none => .plain line :: segmentsFrom (index + 1) rest
      | some header =>
          let width := Outline.leadingWidth line
          let after := dropEnd width (takeBody width none rest).2
          .procedure ⟨header, index, trimBody (takeBody width none rest).1⟩ ::
            segmentsFrom (index + 1 + (rest.length - after.length)) after
termination_by lines => lines.length
decreasing_by
  · simp
  · have parts := congrArg List.length
      (takeBody_append (Outline.leadingWidth line) none rest)
    have shorter := length_dropEnd_le (Outline.leadingWidth line)
      (takeBody (Outline.leadingWidth line) none rest).2
    simp only [List.length_append, List.length_cons] at *
    omega

def segments (lines : List (List Char)) : List Segment := segmentsFrom 0 lines

namespace Segment

def plain? : Segment → Option (List Char)
  | .plain line => some line
  | .procedure _ => none

def procedure? : Segment → Option Captured
  | .plain _ => none
  | .procedure captured => some captured

end Segment

def mainFlow (segments : List Segment) : List (List Char) := segments.filterMap Segment.plain?

def captured (segments : List Segment) : List Captured := segments.filterMap Segment.procedure?

end Flowchart.Procedure
