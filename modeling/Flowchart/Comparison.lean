import Flowchart.Value

/-!
Comparisons of a variable with a value, and their truth for given variables.
-/

namespace Flowchart

inductive Relation
  | equal
  | notEqual
  | less
  | atMost
  | greater
  | atLeast
  | other (symbol : String)
deriving DecidableEq, Repr, Inhabited

namespace Relation

def symbol : Relation → String
  | .equal => "=="
  | .notEqual => "!="
  | .less => "<"
  | .atMost => "<="
  | .greater => ">"
  | .atLeast => ">="
  | .other symbol => symbol

def known : List Relation := [.equal, .notEqual, .less, .atMost, .greater, .atLeast]

def ofSymbol (symbol : String) : Relation :=
  (known.find? fun relation => relation.symbol == symbol).getD (.other symbol)

def holds? (relation : Relation) (left right : Value) : Option Bool :=
  match relation with
  | .equal => some (left.same right)
  | .notEqual => some (!left.same right)
  | .less => left.before? right
  | .atMost => (left.before? right).map fun before => before || left.same right
  | .greater => right.before? left
  | .atLeast => (right.before? left).map fun after => after || left.same right
  | .other _ => none

end Relation

structure Comparison where
  left : String
  relation : Relation
  right : Value
deriving DecidableEq, Repr

namespace Comparison

def resolve (bindings : Bindings) : Value → Value
  | .text name => (bindings.lookup name).getD (.text name)
  | value => value

def evaluate (comparison : Comparison) (bindings : Bindings) : Option Bool := do
  let left ← bindings.lookup comparison.left
  comparison.relation.holds? left (resolve bindings comparison.right)

end Comparison

end Flowchart
