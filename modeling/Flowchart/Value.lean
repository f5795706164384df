import Flowchart.Json

/-!
The values that variables take and literals stand for.
-/

namespace Flowchart

inductive Value
  | null
  | bool (value : Bool)
  | number (value : Number)
  | text (value : String)
deriving DecidableEq, Repr, Inhabited

abbrev Bindings := List (String × Value)

namespace Value

def numeric? : Value → Option Number
  | .bool value => some (.int (if value then 1 else 0))
  | .number value => some value
  | _ => none

def same : Value → Value → Bool
  | .null, .null => true
  | .text left, .text right => left == right
  | left, right => match left.numeric?, right.numeric? with
      | some left, some right => Number.compare? left right = some .eq
      | _, _ => false

def before? : Value → Value → Option Bool
  | .text left, .text right => some (left < right)
  | left, right => match left.numeric?, right.numeric? with
      | some left, some right => some (Number.compare? left right = some .lt)
      | _, _ => none

def shown : Value → String
  | .null => "None"
  | .bool value => if value then "True" else "False"
  | .number value => value.text
  | .text value => value

def toJson : Value → Json
  | .null => .null
  | .bool value => .bool value
  | .number value => .number value
  | .text value => .text value

end Value

end Flowchart
