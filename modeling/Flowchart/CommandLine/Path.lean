import Flowchart.Text.Lines
import Flowchart.Text.Quoted

/-!
Paths of files, and why a file cannot be written at one.
-/

namespace Flowchart.CommandLine

/-- A path in plain form: slashes stand between its parts only, and no part is a single point. -/
structure Path where
  /-- The slashes at the front; none if the path starts where the program runs. -/
  root : List Char
  parts : List (List Char)
deriving DecidableEq, Repr

namespace Path

def rootOf (text : List Char) : List Char :=
  match (text.takeWhile (· = '/')).length with
  | 0 => []
  | 2 => ['/', '/']
  | _ => ['/']

def read (text : String) : Path where
  root := rootOf text.toList
  parts := (Text.pieces '/' text.toList).filter fun part => part ≠ [] ∧ part ≠ ['.']

def text (path : Path) : String :=
  let text := path.root ++ List.intercalate ['/'] path.parts
  if text.isEmpty then "." else String.ofList text

def name (path : Path) : List Char := path.parts.getLast?.getD []

def stem (path : Path) : String :=
  let ending := path.name.reverse.takeWhile (· ≠ '.')
  let start := path.name.take (path.name.length - ending.length - 1)
  if ending.isEmpty || start.isEmpty then String.ofList path.name else String.ofList start

def isBelow (path other : Path) : Bool :=
  path.root = other.root && other.parts ≠ path.parts && other.parts.isPrefixOf path.parts

example : (read "./a//b.tar.gz").text = "a/b.tar.gz" := by decide

example : (read "./a//b.tar.gz").stem = "b.tar" := by decide

end Path

inductive Refusal
  /-- A directory on the way is missing. -/
  | missing (path : Path)
  | notDirectory (path : Path)
  | isDirectory (path : Path)
  | tooLong (path : Path)
  /-- A name holds the character that ends names. -/
  | terminated
deriving DecidableEq, Repr

def Refusal.message : Refusal → String
  | .missing path => "[Errno 2] No such file or directory: " ++ Text.quoted path.text
  | .notDirectory path => "[Errno 20] Not a directory: " ++ Text.quoted path.text
  | .isDirectory path => "[Errno 21] Is a directory: " ++ Text.quoted path.text
  | .tooLong path => "[Errno 36] File name too long: " ++ Text.quoted path.text
  | .terminated => "embedded null byte"

namespace Path

def nameLimit : Nat := 255

def lengthLimit : Nat := 4095

def isLongName (name : List Char) : Bool := nameLimit < (String.ofList name).utf8ByteSize

def malformed? (path : Path) : Option Refusal :=
  if path.parts.any (·.contains '\x00') then some .terminated
  else if lengthLimit < path.text.utf8ByteSize then some (.tooLong path)
  else none

/-- Why a file cannot be written from a directory that holds some files and no directories. The
directories above it are there. -/
def refusal? (files : List String) (path : Path) : Option Refusal :=
  path.malformed?.orElse fun _ =>
    match path.parts.dropWhile (· = ['.', '.']) with
    | [] => some (.isDirectory path)
    | first :: rest =>
        if isLongName first then some (.tooLong path)
        else if rest.isEmpty then none
        else if path.root.isEmpty && path.parts.head? = some first &&
            files.contains (String.ofList first) then
          some (.notDirectory path)
        else some (.missing path)

def isAmong (files : List String) (path : Path) : Except Refusal Bool :=
  match path.refusal? files with
  | some (.tooLong path) => .error (.tooLong path)
  | _ => .ok (files.any fun file => path = .read file)

end Path

end Flowchart.CommandLine
