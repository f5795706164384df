import Flowchart.Number.Decimal

/-!
Numbers as they are written in inputs and documents: whole numbers without bound, and
floating-point numbers.
-/

namespace Flowchart

inductive Number
  | int (value : Int)
  | float (value : Binary64)
deriving DecidableEq, Repr, Inhabited

namespace Number

instance : Coe Int Number := ⟨.int⟩

def compareIntFloat? (left : Int) (right : Binary64) : Option Ordering :=
  match right with
  | .notANumber => none
  | .infinite negative => some (if negative then .gt else .lt)
  | other => some (compare (left * Binary64.one) (other.units?.getD 0))

def compare? : Number → Number → Option Ordering
  | .int left, .int right => some (compare left right)
  | .float left, .float right => Binary64.compare? left right
  | .int left, .float right => compareIntFloat? left right
  | .float left, .int right => (compareIntFloat? right left).map Ordering.swap

def less (left right : Number) : Bool := compare? left right = some .lt

def isNegative (number : Number) : Bool := number.less (.int 0)

def least (left right : Number) : Number := if right.less left then right else left

def greatest (left right : Number) : Number := if left.less right then right else left

def truncate : Number → Int
  | .int value => value
  | .float value => value.truncate

def toBinary64 : Number → Binary64
  | .int value => .ofInt value
  | .float value => value

def text : Number → String
  | .int value => toString value
  | .float value => value.text

def toBinary64? (number : Number) : Option Binary64 :=
  match number, number.toBinary64 with
  | .int _, .infinite _ => none
  | _, value => some value

def add? : Number → Number → Option Number
  | .int left, .int right => some (.int (left + right))
  | left, right => do return .float ((← left.toBinary64?) + (← right.toBinary64?))

/-! Times are numbers. They start at a float, so that a clock always shows one. -/

instance : Zero Number := ⟨.float 0⟩
instance : IntCast Number := ⟨.int⟩
instance : LE Number := ⟨fun left right => (compare? left right).any (· ≠ .gt) = true⟩
instance : LT Number := ⟨fun left right => compare? left right = some .lt⟩
instance : DecidableLE Number := fun left right =>
  inferInstanceAs (Decidable ((compare? left right).any (· ≠ .gt) = true))
instance : DecidableLT Number := fun left right =>
  inferInstanceAs (Decidable (compare? left right = some .lt))

def isWhole : Number → Bool
  | .int _ => true
  | .float value => value.units?.any fun units : Int => units % Binary64.one = 0

end Number

end Flowchart
