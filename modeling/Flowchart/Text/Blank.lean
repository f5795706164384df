/-!
White space, and cutting it from the ends of a text.
-/

namespace Flowchart.Text

def isBlank (c : Char) : Bool :=
  let code := c.toNat
  (9 ≤ code && code ≤ 13) || (0x1C ≤ code && code ≤ 0x20) || code == 0x85 || code == 0xA0 ||
    code == 0x1680 || (0x2000 ≤ code && code ≤ 0x200A) || code == 0x2028 || code == 0x2029 ||
    code == 0x202F || code == 0x205F || code == 0x3000

def trimStart (text : List Char) : List Char := text.dropWhile isBlank

def trimEnd (text : List Char) : List Char := (text.reverse.dropWhile isBlank).reverse

def trim (text : List Char) : List Char := trimEnd (trimStart text)

def isAllBlank (text : List Char) : Bool := text.all isBlank

def firstWord (text : List Char) : List Char × List Char :=
  let start := trimStart text
  (start.takeWhile (!isBlank ·), trimStart (start.dropWhile (!isBlank ·)))

example : trim "  two words\t".toList = "two words".toList := by decide

example : firstWord " Case  red tie ".toList = ("Case".toList, "red tie ".toList) := by decide

end Flowchart.Text
