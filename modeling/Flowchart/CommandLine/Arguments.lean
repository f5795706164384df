import Flowchart.Number.Numeral
import Flowchart.Text.Quoted

/-!
The arguments of the command line.

A long option may be cut short as long as only one begins that way. A value follows its option as
the next argument or after an equals sign. Every argument behind `--` is plain, and so is one that
begins with a minus but is a negative number or holds a space. The one plain argument that is no
value is the file.
-/

namespace Flowchart.CommandLine

inductive Flag
  | printBlocks
  | printGraph
  | printFunctions
  | validate
  | strict
  | simulate
  | printLog
  | verbose
  | help
deriving DecidableEq, Repr

inductive Setting
  | graphDot
  | emitJson
  | oracle
  | seed
  | input
  | maxTicks
  | speed
  | receiptOut
deriving DecidableEq, Repr

inductive Key
  | flag (flag : Flag)
  | setting (setting : Setting)
deriving DecidableEq, Repr

namespace Key

def named : List (String × Key) := [
  ("--help", .flag .help), ("--print-blocks", .flag .printBlocks),
  ("--print-graph", .flag .printGraph), ("--print-functions", .flag .printFunctions),
  ("--validate", .flag .validate), ("--strict", .flag .strict),
  ("--graph-dot", .setting .graphDot), ("--emit-json", .setting .emitJson),
  ("--simulate", .flag .simulate), ("--oracle", .setting .oracle), ("--seed", .setting .seed),
  ("--in", .setting .input), ("--max-ticks", .setting .maxTicks), ("--speed", .setting .speed),
  ("--print-log", .flag .printLog), ("--receipt-out", .setting .receiptOut),
  ("--verbose", .flag .verbose)]

end Key

def Flag.ofLetter? : Char → Option Flag
  | 'h' => some .help
  | 'v' => some .verbose
  | _ => none

inductive Decider
  | yes
  | no
  | random
  | compare
deriving DecidableEq, Repr

namespace Decider

def name : Decider → String
  | .yes => "yes"
  | .no => "no"
  | .random => "random"
  | .compare => "compare"

def known : List Decider := [.yes, .no, .random, .compare]

def ofName? (name : String) : Option Decider := known.find? fun decider => decider.name == name

end Decider

structure Arguments where
  file : Option String := none
  flags : List Flag := []
  graphDot : Option String := none
  emitJson : Option String := none
  decider : Decider := .yes
  seed : Option Int := none
  inputs : List String := []
  maxTicks : Int := 1000
  speed : Option Int := none
  receiptOut : Option String := none
deriving DecidableEq, Repr

def Arguments.has (arguments : Arguments) (flag : Flag) : Bool := arguments.flags.contains flag

inductive UsageError
  | unknown (argument : String)
  | ambiguous (argument : String)
  | missingValue (setting : Setting)
  | wrongValue (setting : Setting) (value : String)
  | unexpectedValue (argument : String)
  | tooMany (argument : String)
  | noFile
  | notFound (path : String)
deriving DecidableEq, Repr

namespace UsageError

def message : UsageError → String
  | .unknown argument => "unknown option: " ++ argument
  | .ambiguous argument => "ambiguous option: " ++ argument
  | .missingValue setting => "a value is missing for " ++ nameOf setting
  | .wrongValue setting value => "wrong value for " ++ nameOf setting ++ ": " ++ value
  | .unexpectedValue argument => "no value is expected: " ++ argument
  | .tooMany argument => "unexpected argument: " ++ argument
  | .noFile => "a file is required"
  | .notFound path => "file not found: " ++ path
where
  nameOf (setting : Setting) : String :=
    ((Key.named.find? fun entry => entry.2 = .setting setting).map (·.1)).getD ""

end UsageError

/-! ## Single arguments -/

inductive Token
  | plain (text : String)
  | flags (flags : List Flag)
  | setting (setting : Setting) (attached : Option String)
  /-- The two hyphens before plain arguments. -/
  | separator
deriving DecidableEq, Repr

namespace Token

def isUnsignedNumber (text : List Char) : Bool :=
  let text := if text.getLast? = some '\n' then text.dropLast else text
  let (whole, rest) := text.span Text.isDecimalDigit
  match rest with
  | [] => !whole.isEmpty
  | c :: digits => c = '.' && !digits.isEmpty && digits.all Text.isDecimalDigit

def keysOf (name : List Char) : List Key :=
  match Key.named.lookup (String.ofList name) with
  | some key => [key]
  | none => (Key.named.filter fun entry => name.isPrefixOf entry.1.toList).map (·.2)

def readLong (text : String) : Except UsageError Token :=
  let (name, value) := text.toList.span (· ≠ '=')
  let attached := value.tail?.map String.ofList
  match keysOf name with
  | [.flag one] => if attached.isSome then .error (.unexpectedValue text) else .ok (.flags [one])
  | [.setting one] => .ok (.setting one attached)
  | _ :: _ :: _ => .error (.ambiguous text)
  | [] => if text.contains ' ' then .ok (.plain text) else .error (.unknown text)

def readShort (text : String) (rest : List Char) : Except UsageError Token :=
  match rest with
  | [] => .ok (.plain text)
  | first :: _ =>
      if (Flag.ofLetter? first).isSome then
        match rest.mapM Flag.ofLetter? with
        | some letters => .ok (.flags letters)
        | none => .error (.unknown text)
      else if isUnsignedNumber rest || text.contains ' ' then .ok (.plain text)
      else .error (.unknown text)

def read (text : String) : Except UsageError Token :=
  match text.toList with
  | '-' :: '-' :: _ => readLong text
  | '-' :: rest => readShort text rest
  | _ => .ok (.plain text)

def readAll : List String → Except UsageError (List Token)
  | [] => .ok []
  | text :: rest =>
      if text = "--" then .ok (.separator :: rest.map .plain)
      else do return (← read text) :: (← readAll rest)

end Token

/-! ## All arguments -/

namespace Arguments

def wholeValue (setting : Setting) (value : String) : Except UsageError Int :=
  (Numeral.readInt value.toList).mapError fun _ => .wrongValue setting value

def set (arguments : Arguments) (setting : Setting) (value : String) :
    Except UsageError Arguments :=
  match setting with
  | .graphDot => .ok { arguments with graphDot := some value }
  | .emitJson => .ok { arguments with emitJson := some value }
  | .receiptOut => .ok { arguments with receiptOut := some value }
  | .input => .ok { arguments with inputs := arguments.inputs ++ [value] }
  | .oracle => match Decider.ofName? value with
      | some decider => .ok { arguments with decider }
      | none => .error (.wrongValue setting value)
  | .seed => (wholeValue setting value).map fun seed => { arguments with seed := some seed }
  | .maxTicks => (wholeValue setting value).map fun maxTicks => { arguments with maxTicks }
  | .speed => (wholeValue setting value).map fun speed => { arguments with speed := some speed }

def addFile (arguments : Arguments) (file : String) : Except UsageError Arguments :=
  if arguments.file.isSome then .error (.tooMany file) else .ok { arguments with file := some file }

/-- Takes in tokens. The separator may follow the file or precede it, with no option between. -/
def addAll (arguments : Arguments) : List Token → Except UsageError Arguments
  | [] => .ok arguments
  | .flags flags :: rest => addAll { arguments with flags := arguments.flags ++ flags } rest
  | .setting setting (some value) :: rest => do addAll (← arguments.set setting value) rest
  | .setting setting none :: .plain value :: rest => do
      addAll (← arguments.set setting value) rest
  | .setting setting none :: _ => .error (.missingValue setting)
  | .plain file :: .separator :: rest => do addAll (← arguments.addFile file) rest
  | .plain file :: rest => do addAll (← arguments.addFile file) rest
  | .separator :: rest =>
      if arguments.file.isSome then .error (.tooMany "--") else addAll arguments rest

def read (texts : List String) : Except UsageError Arguments := do
  addAll {} (← Token.readAll texts)

end Arguments

end Flowchart.CommandLine
