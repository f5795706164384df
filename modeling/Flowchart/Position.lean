/-!
Positions in a sequence. They count from the start, and negative ones from the end.
-/

namespace Flowchart.Position

inductive Sequence
  | text
  | list
deriving DecidableEq, Repr

inductive Error
  /-- A position before the first member. -/
  | beforeStart (sequence : Sequence)
  /-- A position that no sequence could reach from its end. -/
  | outOfReach
deriving DecidableEq, Repr

def Error.message : Error → String
  | .beforeStart .text => "string index out of range"
  | .beforeStart .list => "list index out of range"
  | .outOfReach => "cannot fit 'int' into an index-sized integer"

def least : Int := -0x8000000000000000

def index (sequence : Sequence) (size : Nat) (position : Int) : Except Error Nat :=
  if 0 ≤ position then .ok position.toNat
  else if position < least then .error .outOfReach
  else if position + size < 0 then .error (.beforeStart sequence)
  else .ok (position + size).toNat

@[simp] theorem index_natCast (sequence : Sequence) (size index : Nat) :
    Position.index sequence size index = .ok index := by
  simp [Position.index]

example : index .text 3 (-1) = .ok 2 := rfl

example : index .text 3 (-4) = .error (.beforeStart .text) := rfl

end Flowchart.Position
