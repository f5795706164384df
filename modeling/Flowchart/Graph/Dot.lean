import Flowchart.Graph
import Flowchart.Json.Printer

/-!
Flow graphs as DOT text, for drawing.
-/

namespace Flowchart.Graph

open Json (quote)

def shape : Block.Kind → String
  | .start | .stop => "ellipse"
  | .condition | .elseIf | .implicitElse | .switch => "diamond"
  | .loop => "hexagon"
  | .input | .output => "parallelogram"
  | .comment => "note"
  | .connector => "circle"
  | _ => "box"

def nodeLine (index : Nat) (block : Block) : String :=
  let outline := if block.kind = .call then ", peripheries=2" else ""
  let style := if block.recursiveCall = some true then ", style=bold" else ""
  s!"  n{index} [label=" ++ quote block.content ++ ", shape=" ++ shape block.kind ++ outline ++
    style ++ "];"

def edgeLabel? (edge : Edge) : Option String :=
  if edge.kind = .yes ∨ edge.kind = .no then some edge.kind.name
  else edge.label.filter (!·.isEmpty)

def edgeStyle? (edge : Edge) : Option String :=
  match edge.kind with
  | .loopBack => some "style=dashed"
  | .recursive => some "style=dotted"
  | _ => none

def edgeLine (edge : Edge) : String :=
  let attributes :=
    ((edgeLabel? edge).map fun label => "label=" ++ quote label).toList ++ (edgeStyle? edge).toList
  s!"  n{edge.source} -> n{edge.target}" ++
    (if attributes.isEmpty then "" else " [" ++ String.intercalate ", " attributes ++ "]") ++ ";"

def dot (graph : Graph) (name : Option String := none) : String :=
  let name := (name.filter (!·.isEmpty)).getD "flow"
  String.intercalate "\n"
    (["digraph " ++ quote name ++ " \x7b", "  node [fontname=\"Helvetica\"];"] ++
      graph.blocks.zipIdx.map (fun (block, index) => nodeLine index block) ++
      graph.edges.map edgeLine ++ ["\x7d"])

end Flowchart.Graph
