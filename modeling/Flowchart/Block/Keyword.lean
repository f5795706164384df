import Flowchart.Block
import Flowchart.Text.LetterCase
import Flowchart.Text.Phrase

/-!
The kind of a line, read off the keyword that it begins with, and the shapes of branch lines and
end markers.
-/

namespace Flowchart

open Text

namespace Block.Kind

def definitionHead (keyword : String) : Phrase :=
  [.text keyword, .space, .word, .gap, .text "("]

/-- The keywords of each kind. Kinds are tried in this order and the first phrase that begins a
line decides. -/
def keywords : List (Block.Kind × List Phrase) := [
  (.start, [[.text "start", .stop], [.text "begin", .stop], [.text "initialize", .stop]]),
  (.stop, [[.text "end", .stop], [.text "stop", .stop], [.text "exit", .stop]]),
  (.definition, [definitionHead "function", definitionHead "procedure", definitionHead "def"]),
  (.elseIf, [[.text "else", .gap, .text "if", .edge], [.text "elif", .edge]]),
  (.condition, [[.text "if", .space], [.text "else", .stop]]),
  (.switch, [[.text "switch", .edge], [.text "select", .edge]]),
  (.case, [[.text "case", .edge], [.text "default", .edge]]),
  (.loop, [[.text "while", .space], [.text "for", .space], [.text "do", .edge],
    [.text "repeat", .edge], [.text "loop", .edge]]),
  (.input, [[.text "input", .space], [.text "read", .space], [.text "get", .space],
    [.text "scan"], [.text "enter", .edge]]),
  (.output, [[.text "output", .space], [.text "print", .space], [.text "display", .space],
    [.text "show", .space], [.text "write"]]),
  (.return, [[.text "return", .edge]]),
  (.call, [[.text "function", .space], [.text "procedure", .space], [.text "call", .space],
    [.text "invoke", .edge], [.text "execute", .space]]),
  (.comment, [[.text "//"], [.text "#"], [.text "comment:"]]),
  (.connector, [[.text "goto", .space], [.text "jump", .space], [.text "continue", .stop],
    [.text "break", .stop]])]

def ofLine (line : List Char) : Block.Kind :=
  let text := lower (trim line)
  match keywords.find? fun (_, phrases) => Phrase.anyBegins id phrases text with
  | some (kind, _) => kind
  | none => .process

end Block.Kind

/-! ## Lines that belong to a construct above them -/

def closingPhrases : List Phrase :=
  [[.text "else", .edge], [.text "end", .edge], [.text "case", .edge], [.text "default", .edge]]

def isClosingLine (line : List Char) : Bool := Phrase.anyBegins fold closingPhrases (trim line)

def branchPhrases : List Phrase :=
  [[.text "else", .edge], [.text "case", .edge], [.text "default", .edge]]

/-- Whether a line stands on the level of the construct that it belongs to, however far it is
indented. -/
def isBranchLine (line : List Char) : Bool := Phrase.anyBegins fold branchPhrases line

def ifEndPhrases : List Phrase :=
  [[.text "end", .gap, .text "if", .edge], [.text "end", .gap, .text "condition", .edge]]

def isIfEndLine (line : List Char) : Bool := Phrase.anyBegins fold ifEndPhrases line

def switchEndPhrases : List Phrase :=
  [[.text "end", .gap, .text "switch", .edge], [.text "end", .gap, .text "select", .edge]]

def isSwitchEndLine (line : List Char) : Bool := Phrase.anyBegins fold switchEndPhrases line

namespace Block

def opensConditional (block : Block) : Bool := block.kind == .condition && !block.closing

def isElse (block : Block) : Bool := block.kind == .condition && block.closing

def isBranch (block : Block) : Bool :=
  block.kind == .elseIf || block.kind == .implicitElse || block.isElse

def isIfEnd (block : Block) : Bool :=
  block.kind == .process && isIfEndLine block.content.toList

def isSwitchEnd (block : Block) : Bool :=
  block.kind == .process && isSwitchEndLine block.content.toList

end Block

example : Block.Kind.ofLine "Else  If x > 1 then".toList = .elseIf := by decide

example : Block.Kind.ofLine "Increment i".toList = .process := by decide

end Flowchart
