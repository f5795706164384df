import Flowchart.Number

/-!
What is known about the recursion of a function: where it calls itself, in which cases it goes on
and in which it ends, which pattern it resembles and how deep it may go.
-/

namespace Flowchart

namespace Recursion

inductive Change
  | decrement
  | increment
  | divide
  | multiply
  | propertyAccess
  | other (name : String)
deriving DecidableEq, Repr

namespace Change

def name : Change → String
  | .decrement => "decrement"
  | .increment => "increment"
  | .divide => "divide"
  | .multiply => "multiply"
  | .propertyAccess => "property-access"
  | .other name => name

def known : List Change := [.decrement, .increment, .divide, .multiply, .propertyAccess]

def ofName (name : String) : Change :=
  (known.find? fun change => change.name == name).getD (.other name)

def unclear : Change := .other "other"

def converges (change : Change) : Bool :=
  [decrement, increment, divide, propertyAccess].contains change

end Change

structure Transformation where
  parameter : String
  before : String
  after : String
  change : Change
  description : Option String
deriving DecidableEq, Repr

structure CallPoint where
  line : Nat
  content : String
  arguments : List String
  guarded : Bool
  callee : Option String
deriving DecidableEq, Repr

inductive Exit
  | return
  | break
  | continue
  /-- A return without a value. -/
  | empty
  | other (name : String)
deriving DecidableEq, Repr

namespace Exit

def name : Exit → String
  | .return => "return"
  | .break => "break"
  | .continue => "continue"
  | .empty => "empty"
  | .other name => name

def known : List Exit := [.return, .break, .continue, .empty]

def ofName (name : String) : Exit :=
  (known.find? fun exit => exit.name == name).getD (.other name)

end Exit

/-- A branch that ends without a further call, with the relation and the value that its condition
compares, if it does. -/
structure BaseCase where
  condition : String
  value : Option String
  exit : Exit
  relation : Option String
  comparedWith : Option String
deriving DecidableEq, Repr

inductive Operation
  | single
  | add
  | multiply
  | combine
  | other
deriving DecidableEq, Repr

def Operation.name : Operation → String
  | .single => "single"
  | .add => "add"
  | .multiply => "multiply"
  | .combine => "combine"
  | .other => "other"

structure RecursiveCase where
  expression : String
  arguments : List String
  transformations : List Transformation
  operation : Operation
deriving DecidableEq, Repr

structure Pattern where
  name : String
  confidence : Number
deriving DecidableEq, Repr

inductive Form
  | linear
  | tree
  | tail
  | mutual
  | nested
  | multiple
  | other (name : String)
deriving DecidableEq, Repr

namespace Form

def name : Form → String
  | .linear => "linear"
  | .tree => "tree"
  | .tail => "tail"
  | .mutual => "mutual"
  | .nested => "nested"
  | .multiple => "multiple"
  | .other name => name

def known : List Form := [.linear, .tree, .tail, .mutual, .nested, .multiple]

def ofName (name : String) : Form :=
  (known.find? fun form => form.name == name).getD (.other name)

end Form

end Recursion

open Recursion in
structure Recursion where
  isRecursive : Bool := false
  form : Form := .linear
  callPoints : List CallPoint := []
  pattern : Option Pattern := none
  baseCases : List BaseCase := []
  recursiveCases : List RecursiveCase := []
  depthHint : Option Int := none
  depthFormula : Option String := none
deriving DecidableEq, Repr

end Flowchart
