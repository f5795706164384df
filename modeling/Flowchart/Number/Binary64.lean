/-!
Floating-point numbers of 64 bits, by value: a whole number of units of 2^-1074, the smallest
positive one. Every operation takes the exact result and rounds it once, to the nearest number
and on a tie to the even significand.
-/

namespace Flowchart

inductive Binary64
  /-- A number of units; zero among them is the positive one. -/
  | finite (units : Int)
  | negativeZero
  | infinite (negative : Bool)
  | notANumber
deriving DecidableEq, Repr, Inhabited

namespace Binary64

def one : Nat := Nat.pow 2 1074

def limit : Nat := Nat.pow 2 1024 * one

def roundHalfEven (numerator denominator : Nat) : Nat :=
  let quotient := numerator / denominator
  let twice := 2 * (numerator % denominator)
  if twice < denominator ∨ (twice = denominator ∧ quotient % 2 = 0) then quotient
  else quotient + 1

def lastBit (units : Nat) : Nat := units.log2 - 52

def nearestUnits (numerator denominator : Nat) : Nat :=
  let step := Nat.pow 2 (lastBit (numerator / denominator))
  roundHalfEven numerator (denominator * step) * step

def ofUnits (numerator : Int) (denominator : Nat) : Binary64 :=
  let units := nearestUnits numerator.natAbs denominator
  if limit ≤ units then .infinite (numerator < 0)
  else if numerator < 0 then (if units = 0 then .negativeZero else .finite (-units))
  else .finite units

def ofRatio (numerator : Int) (denominator : Nat) : Binary64 :=
  ofUnits (numerator * one) denominator

def ofInt (value : Int) : Binary64 := ofRatio value 1

def neg : Binary64 → Binary64
  | .finite 0 => .negativeZero
  | .finite units => .finite (-units)
  | .negativeZero => .finite 0
  | .infinite negative => .infinite !negative
  | .notANumber => .notANumber

def units? : Binary64 → Option Int
  | .finite units => some units
  | .negativeZero => some 0
  | _ => none

def add : Binary64 → Binary64 → Binary64
  | .negativeZero, .negativeZero => .negativeZero
  | .infinite left, .infinite right => if left = right then .infinite left else .notANumber
  | .notANumber, _ => .notANumber
  | _, .notANumber => .notANumber
  | .infinite negative, _ => .infinite negative
  | _, .infinite negative => .infinite negative
  | left, right => ofUnits ((left.units?.getD 0) + (right.units?.getD 0)) 1

def scale (value : Binary64) (numerator denominator : Nat) : Binary64 :=
  match value with
  | .finite units => ofUnits (units * numerator) denominator
  | other => other

def compare? : Binary64 → Binary64 → Option Ordering
  | .notANumber, _ => none
  | _, .notANumber => none
  | .infinite left, .infinite right => some (compare right left)
  | .infinite negative, _ => some (if negative then .lt else .gt)
  | _, .infinite negative => some (if negative then .gt else .lt)
  | left, right => some (compare (left.units?.getD 0) (right.units?.getD 0))

def truncate (value : Binary64) : Int := (value.units?.getD 0).tdiv one

def roundPlaces (places : Nat) (value : Binary64) : Binary64 :=
  match value with
  | .finite units =>
      let scaled := roundHalfEven (units.natAbs * Nat.pow 10 places) one
      ofRatio (if units < 0 then -scaled else scaled) (Nat.pow 10 places)
  | other => other

instance : Add Binary64 := ⟨add⟩
instance : Neg Binary64 := ⟨neg⟩
instance : Zero Binary64 := ⟨.finite 0⟩
instance : LE Binary64 := ⟨fun left right => (compare? left right).any (· ≠ .gt) = true⟩
instance : LT Binary64 := ⟨fun left right => compare? left right = some .lt⟩
instance : DecidableLE Binary64 := fun left right =>
  inferInstanceAs (Decidable ((compare? left right).any (· ≠ .gt) = true))
instance : DecidableLT Binary64 := fun left right =>
  inferInstanceAs (Decidable (compare? left right = some .lt))

instance : Max Binary64 := ⟨fun left right => if left < right then right else left⟩

end Binary64

end Flowchart
