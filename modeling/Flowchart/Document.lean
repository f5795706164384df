import Flowchart.Json
import Flowchart.Program

/-!
Programs as JSON documents.
-/

namespace Flowchart

def Block.toJson (block : Block) : Json :=
  .object ([("content", .text block.content), ("indentLevel", .int block.level),
      ("blockType", .text block.kind.name), ("isClosing", .bool block.closing)] ++
    (block.recursiveCall.map fun value => ("isRecursiveCall", Json.bool value)).toList)

def Edge.toJson (edge : Edge) : Json :=
  .object ([("from", .int edge.source), ("to", .int edge.target), ("type", .text edge.kind.name)] ++
    (edge.depth.map fun depth => ("depth", Json.int depth)).toList ++
    (edge.label.map fun label => ("label", Json.text label)).toList)

namespace Recursion

def Transformation.toJson (transformation : Transformation) : Json :=
  .object [("parameterName", .text transformation.parameter),
    ("originalValue", .text transformation.before),
    ("transformedValue", .text transformation.after),
    ("transformationType", .text transformation.change.name),
    ("description", .ofOption .text transformation.description)]

def CallPoint.toJson (point : CallPoint) : Json :=
  .object [("lineIndex", .ofNat point.line), ("content", .text point.content),
    ("parameters", .texts point.arguments), ("isBaseCase", .bool point.guarded),
    ("callee", .ofOption .text point.callee)]

def BaseCase.toJson (found : BaseCase) : Json :=
  .object [("condition", .text found.condition), ("returnValue", .ofOption .text found.value),
    ("exitType", .text found.exit.name),
    ("comparisonOperator", .ofOption .text found.relation),
    ("comparisonValue", .ofOption .text found.comparedWith)]

def RecursiveCase.toJson (found : RecursiveCase) : Json :=
  .object [("callExpression", .text found.expression), ("parameters", .texts found.arguments),
    ("transformations", .array (found.transformations.map Transformation.toJson)),
    ("operation", .text found.operation.name)]

def Pattern.toJson (pattern : Pattern) : Json :=
  .object [("type", .text pattern.name), ("confidence", .number pattern.confidence)]

end Recursion

def Recursion.toJson (recursion : Recursion) : Json :=
  .object [("isRecursive", .bool recursion.isRecursive),
    ("recursionType", .text recursion.form.name),
    ("callPoints", .array (recursion.callPoints.map (·.toJson))),
    ("pattern", .ofOption Recursion.Pattern.toJson recursion.pattern),
    ("baseCases", .array (recursion.baseCases.map (·.toJson))),
    ("recursiveCases", .array (recursion.recursiveCases.map (·.toJson))),
    ("maxDepthHint", .ofOption .int recursion.depthHint),
    ("depthCalculation", .ofOption .text recursion.depthFormula)]

def Procedure.toJson (procedure : Procedure) : Json :=
  .object [("name", .text procedure.name), ("parameters", .texts procedure.parameters),
    ("sourceLine", .ofNat procedure.sourceLine),
    ("blocks", .array (procedure.body.map Block.toJson)),
    ("edges", .array (procedure.edges.map Edge.toJson)),
    ("recursion", .ofOption Recursion.toJson procedure.recursion)]

def Diagnosis.toJson (diagnosis : Diagnosis) : Json :=
  .object [("isValid", .bool diagnosis.isValid),
    ("errors", .texts (diagnosis.errors.map Finding.message)),
    ("warnings", .texts (diagnosis.warnings.map Finding.message))]

def Program.toJson (program : Program) : Json :=
  .object [("version", .text "1.0"),
    ("blocks", .array (program.main.blocks.map Block.toJson)),
    ("edges", .array (program.main.edges.map Edge.toJson)),
    ("functions", .array (program.procedures.map Procedure.toJson)),
    ("validation", program.diagnosis.toJson)]

end Flowchart
