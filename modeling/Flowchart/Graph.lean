import Flowchart.Block

/-!
Flow graphs: blocks in a row and directed edges between their positions.
-/

namespace Flowchart

inductive Edge.Kind
  | default
  | yes
  | no
  | loopBack
  | case
  | recursive
  | other (name : String)
deriving DecidableEq, Repr, Inhabited

namespace Edge.Kind

def name : Edge.Kind → String
  | .default => "default"
  | .yes => "yes"
  | .no => "no"
  | .loopBack => "loop-back"
  | .case => "case"
  | .recursive => "recursive"
  | .other name => name

def known : List Edge.Kind := [.default, .yes, .no, .loopBack, .case, .recursive]

def ofName (name : String) : Edge.Kind :=
  (known.find? fun kind => kind.name == name).getD (.other name)

theorem name_ofName (name : String) : (ofName name).name = name := by
  unfold ofName
  cases found : known.find? fun kind => kind.name == name with
  | none => rfl
  | some kind => simpa using List.find?_some found

end Edge.Kind

/-- An edge between two positions. `depth` is the nesting of the loop that an edge goes back to,
`label` the case that it stands for. -/
structure Edge where
  source : Int
  target : Int
  kind : Edge.Kind := .default
  depth : Option Int := none
  label : Option String := none
deriving DecidableEq, Repr, Inhabited

structure Graph where
  blocks : List Block
  edges : List Edge
deriving DecidableEq, Repr, Inhabited

namespace Graph

def length (graph : Graph) : Nat := graph.blocks.length

def block? (graph : Graph) (index : Int) : Option Block :=
  if index < 0 then none else graph.blocks[index.toNat]?

def outgoing (graph : Graph) (index : Int) : List Edge :=
  graph.edges.filter fun edge => edge.source = index

def incoming (graph : Graph) (index : Int) : List Edge :=
  graph.edges.filter fun edge => edge.target = index

def forward (graph : Graph) (index : Int) : List Edge :=
  (graph.outgoing index).filter fun edge => edge.kind ≠ .loopBack

def find? (graph : Graph) (kind : Block.Kind) : Option Nat :=
  graph.blocks.findIdx? fun block => block.kind = kind

end Graph

end Flowchart
