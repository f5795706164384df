import Flowchart.Block.Keyword
import Flowchart.Text.Lines

/-!
The outline of a program: one block for each line that is not blank, on the level that its
indentation gives it.

The ladder holds the indentations that are open at a line, the innermost first, above a root of
width and level zero. A wider line than the innermost opens a level, a narrower one closes levels.
-/

namespace Flowchart

open Text

namespace Outline

def columns : List Char → Nat
  | [] => 0
  | c :: rest => (if c = '\t' then 4 else 1) + columns rest

def indentation (line : List Char) : Nat := columns (line.takeWhile isIndent)

def leadingWidth (line : List Char) : Nat := columns (line.takeWhile isBlank)

def content (line : List Char) : List Char :=
  let text := trim line
  match text.reverse with
  | ':' :: ':' :: rest => trimEnd rest.reverse
  | _ => text

structure Rung where
  width : Nat
  level : Nat
deriving DecidableEq, Repr

abbrev Ladder := List Rung

def Ladder.top (ladder : Ladder) : Rung := ladder.headD ⟨0, 0⟩

def Ladder.place (ladder : Ladder) (width : Nat) (branch : Bool) : Ladder :=
  let open' := ladder.dropWhile fun rung => width < rung.width
  let top := Ladder.top open'
  if top.width < width then ⟨width, if branch then top.level else top.level + 1⟩ :: open'
  else open'

def block (content : List Char) (level : Nat) : Block where
  content := String.ofList content
  level := level
  kind := Block.Kind.ofLine content
  closing := isClosingLine content

def blocksFrom (ladder : Ladder) : List (List Char) → List Block
  | [] => []
  | line :: rest =>
      let text := content line
      if text.isEmpty then blocksFrom ladder rest
      else
        let ladder := ladder.place (indentation line) (isBranchLine text)
        block text ladder.top.level :: blocksFrom ladder rest

end Outline

def outline (text : List Char) : List Block := Outline.blocksFrom [] (lines text)

example : (outline "Start\nIf x\n    Output x ::\nEnd".toList).map (·.level) = [0, 0, 1, 0] := by
  decide

end Flowchart
