import Flowchart.Text.Blank

/-!
Texts as lists of lines: cutting at line breaks, joining, and removing a common margin.
-/

namespace Flowchart.Text

def isLineBreak (c : Char) : Bool :=
  let code := c.toNat
  (10 ≤ code && code ≤ 13) || (0x1C ≤ code && code ≤ 0x1E) || code == 0x85 ||
    code == 0x2028 || code == 0x2029

def linesAfter (line : List Char) : List Char → List (List Char)
  | [] => if line.isEmpty then [] else [line.reverse]
  | '\r' :: '\n' :: rest => line.reverse :: linesAfter [] rest
  | c :: rest =>
      if isLineBreak c then line.reverse :: linesAfter [] rest else linesAfter (c :: line) rest

/-- The lines of a text, without their breaks. A break at the very end starts no further line. -/
def lines (text : List Char) : List (List Char) := linesAfter [] text

def joinLines (lines : List (List Char)) : List Char := List.intercalate ['\n'] lines

def pieces (separator : Char) : List Char → List (List Char)
  | [] => [[]]
  | c :: rest =>
      if c = separator then [] :: pieces separator rest
      else match pieces separator rest with
        | [] => [[c]]
        | piece :: others => (c :: piece) :: others

def unifyBreaks : List Char → List Char
  | [] => []
  | '\r' :: '\n' :: rest => '\n' :: unifyBreaks rest
  | c :: rest => (if c = '\r' then '\n' else c) :: unifyBreaks rest

/-! ## Margins -/

def isIndent (c : Char) : Bool := c = ' ' || c = '\t'

def commonStart : List Char → List Char → List Char
  | a :: left, b :: right => if a = b then a :: commonStart left right else []
  | _, _ => []

def margin (lines : List (List Char)) : List Char :=
  match (lines.filter fun line => !line.all isIndent).map (·.takeWhile isIndent) with
  | [] => []
  | first :: others => others.foldl commonStart first

def dedentLines (lines : List (List Char)) : List (List Char) :=
  let cut := (margin lines).length
  lines.map fun line => if line.all isIndent then [] else line.drop cut

def dedent (text : List Char) : List Char := joinLines (dedentLines (pieces '\n' text))

example : lines "a\r\nb\n\nc\n".toList = ["a".toList, "b".toList, [], "c".toList] := by decide

example : dedent "  a\n \n    b".toList = "a\n\n  b".toList := by decide

end Flowchart.Text
