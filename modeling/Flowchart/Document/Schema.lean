import Flowchart.Graph
import Flowchart.Json

/-!
The shape of a document, and the check that its edges lie inside its blocks.
-/

namespace Flowchart.Document

/-! ## Shapes -/

inductive Shape
  | bool
  /-- A text of at least so many characters. -/
  | text (least : Nat)
  /-- One of these texts. -/
  | word (words : List String)
  /-- A whole number that is not negative. A float without a fraction is whole. -/
  | natural
  /-- A number from zero to one. -/
  | fraction
  | array (items : Shape)
  /-- An object with fields of these shapes, of which the first list has to be there. Fields under
  other names are allowed unless the object is closed. -/
  | object (required optional : List (String × Shape)) (closed : Bool)
  | orNull (shape : Shape)

namespace Shape

def isNatural (number : Number) : Bool := number.isWhole && !number.isNegative

def isFraction (number : Number) : Bool :=
  !number.isNegative && !(Number.int 1).less number

mutual

def accepts : Shape → Json → Bool
  | .bool, .bool _ => true
  | .text least, .text value => least ≤ value.length
  | .word words, .text value => words.contains value
  | .natural, .number value => isNatural value
  | .fraction, .number value => isFraction value
  | .array items, .array values => values.all (accepts items)
  | .object required optional closed, .object fields =>
      acceptsFields true required fields && acceptsFields false optional fields &&
        (!closed || fields.all fun (name, _) =>
          required.any (·.1 = name) || optional.any (·.1 = name))
  | .orNull _, .null => true
  | .orNull shape, value => accepts shape value
  | _, _ => false

def acceptsFields (needed : Bool) : List (String × Shape) → List (String × Json) → Bool
  | [], _ => true
  | (name, shape) :: rest, fields =>
      (match fields.lookup name with
        | some value => accepts shape value
        | none => !needed) &&
      acceptsFields needed rest fields

end

end Shape

open Shape

def anyText : Shape := .text 0

def block : Shape := .object
  [("content", anyText), ("indentLevel", .natural),
    ("blockType", .word (Block.Kind.known.map Block.Kind.name)), ("isClosing", .bool)]
  [("isRecursiveCall", .bool)] true

def edge : Shape := .object
  [("from", .natural), ("to", .natural), ("type", .word (Edge.Kind.known.map Edge.Kind.name))]
  [("depth", .natural), ("label", anyText)] true

def transformation : Shape := .object
  [("parameterName", anyText), ("originalValue", anyText), ("transformedValue", anyText),
    ("transformationType", .word
      ["decrement", "increment", "divide", "multiply", "property-access", "other"])]
  [("description", .orNull anyText)] false

def callPoint : Shape := .object
  [("lineIndex", .natural), ("content", anyText), ("parameters", .array anyText),
    ("isBaseCase", .bool)]
  [("callee", .orNull anyText)] false

def pattern : Shape := .object
  [("type", .word ["factorial", "fibonacci", "tree-traversal", "binary-search", "merge-sort",
      "quick-sort", "generic"]),
    ("confidence", .fraction)]
  [] false

def baseCase : Shape := .object
  [("condition", anyText), ("exitType", .word ["return", "break", "continue", "empty"])]
  [("returnValue", .orNull anyText), ("comparisonOperator", .orNull anyText),
    ("comparisonValue", .orNull anyText)] false

def recursiveCase : Shape := .object
  [("callExpression", anyText), ("parameters", .array anyText),
    ("transformations", .array transformation),
    ("operation", .word ["single", "add", "multiply", "combine", "other"])]
  [] false

def recursion : Shape := .object
  [("isRecursive", .bool),
    ("recursionType", .word ["linear", "tree", "tail", "mutual", "nested", "multiple"]),
    ("callPoints", .array callPoint), ("baseCases", .array baseCase),
    ("recursiveCases", .array recursiveCase)]
  [("pattern", .orNull pattern), ("maxDepthHint", .orNull .natural),
    ("depthCalculation", .orNull anyText)] false

def procedure : Shape := .object
  [("name", .text 1), ("parameters", .array anyText), ("blocks", .array block),
    ("edges", .array edge)]
  [("sourceLine", .natural), ("recursion", .orNull recursion)] false

def validation : Shape := .object
  [("isValid", .bool), ("errors", .array anyText), ("warnings", .array anyText)] [] true

def shape : Shape := .object
  [("version", anyText), ("blocks", .array block), ("edges", .array edge),
    ("functions", .array procedure), ("validation", validation)] [] true

/-! ## Edges -/

inductive Error
  /-- The document has not the shape of one. -/
  | shape
  /-- An edge of a place, by its number, leads from or to a block that is not there. -/
  | edge (place : String) (number : Nat) (source target : Number) (size : Nat)
deriving DecidableEq, Repr

namespace Error

def message : Error → String
  | .shape => ""
  | .edge place number source target size =>
      s!"{place} edge {number} ({source.text} -> {target.text}) is outside 0..{(size : Int) - 1}"

end Error

def itemsAt (name : String) (value : Json) : List Json :=
  match value.get? name with
  | some (.array items) => items
  | _ => []

def numberAt (name : String) (value : Json) : Number :=
  match value.get? name with
  | some (.number number) => number
  | _ => .int 0

def isIndex (size : Nat) (number : Number) : Bool :=
  !number.isNegative && number.less (.int size)

def checkEdges (place : String) (graph : Json) : Except Error Unit :=
  let size := (itemsAt "blocks" graph).length
  (itemsAt "edges" graph).zipIdx.forM fun (edge, number) =>
    let source := numberAt "from" edge
    let target := numberAt "to" edge
    if isIndex size source && isIndex size target then .ok ()
    else .error (.edge place number source target size)

def nameOf (procedure : Json) : String :=
  match procedure.get? "name" with
  | some (.text name) => name
  | _ => ""

def check (document : Json) : Except Error Unit := do
  if !shape.accepts document then throw .shape
  checkEdges "main" document
  (itemsAt "functions" document).forM fun procedure =>
    checkEdges s!"function '{nameOf procedure}'" procedure

end Flowchart.Document
