import Flowchart.Number.Binary64

/-!
Decimal text of floating-point numbers: the fewest digits that read back as the same number, and
of those the nearest.
-/

namespace Flowchart

structure Decimal where
  digits : Nat
  exponent : Int
deriving DecidableEq, Repr

namespace Decimal

def length (value : Nat) : Nat := (toString value).length

/-- The power of ten of the first digit of a quotient. The estimate from the lengths of its two
parts is at most one too high. -/
def leadingExponent (numerator denominator : Nat) : Int :=
  let estimate : Int := (length numerator : Int) - length denominator
  let reaches :=
    if 0 ≤ estimate then Nat.pow 10 estimate.toNat * denominator ≤ numerator
    else denominator ≤ numerator * Nat.pow 10 (-estimate).toNat
  if reaches then estimate else estimate - 1

/-- Four times a positive number of units, and four times the ends of the interval of values
that round to it. The lower half of the interval is shorter below a power of two. -/
structure Target where
  value : Nat
  low : Nat
  high : Nat
  inclusive : Bool

namespace Target

def ofUnits (units : Nat) : Target :=
  let step := Nat.pow 2 (Binary64.lastBit units)
  let significand := units / step
  { value := 4 * units
    low := 4 * units - (if significand = Nat.pow 2 52 ∧ 1 < step then step else 2 * step)
    high := 4 * units + 2 * step
    inclusive := significand % 2 = 0 }

def holds (target : Target) (numerator denominator : Nat) : Bool :=
  if target.inclusive then
    target.low * denominator ≤ numerator && numerator ≤ target.high * denominator
  else target.low * denominator < numerator && numerator < target.high * denominator

end Target

def withDigits? (target : Target) (leading : Int) (count : Nat) : Option Decimal :=
  let place : Int := leading - count + 1
  let unit := 4 * Binary64.one
  -- one step on this grid is `step / scale` of the units in which the target is given
  let step := unit * Nat.pow 10 place.toNat
  let scale := Nat.pow 10 (-place).toNat
  let below := target.value * scale / step
  let goodBelow := 0 < below && target.holds (below * step) scale
  let goodAbove := target.holds ((below + 1) * step) scale
  let rest := 2 * (target.value * scale - below * step)
  let preferAbove := step < rest || (rest = step && below % 2 = 1)
  let chosen :=
    if goodBelow && goodAbove then some (if preferAbove then below + 1 else below)
    else if goodBelow then some below
    else if goodAbove then some (below + 1)
    else none
  chosen.map fun digits => ⟨digits, place⟩

def dropZeros : Nat → Decimal → Decimal
  | 0, decimal => decimal
  | fuel + 1, ⟨digits, exponent⟩ =>
      if digits % 10 = 0 ∧ digits ≠ 0 then dropZeros fuel ⟨digits / 10, exponent + 1⟩
      else ⟨digits, exponent⟩

/-- The shortest decimal that reads back as a positive number of units. Seventeen digits always
do. Here the exponent is that of the last digit. -/
def shortest (units : Nat) : Decimal :=
  let target := Target.ofUnits units
  let leading := leadingExponent target.value (4 * Binary64.one)
  let found := (List.range 17).findSome? fun count => withDigits? target leading (count + 1)
  dropZeros 20 (found.getD ⟨0, 0⟩)

end Decimal

/-! ## Notation -/

namespace Binary64

def leastPositional : Int := -4

def firstScientific : Int := 16

def zeros (count : Nat) : String := String.ofList (List.replicate count '0')

def textOfDecimal (decimal : Decimal) : String :=
  let digits := toString decimal.digits
  let first := decimal.exponent + digits.length - 1
  if leastPositional ≤ first ∧ first < firstScientific then
    if 0 ≤ decimal.exponent then digits ++ zeros decimal.exponent.toNat ++ ".0"
    else if 0 ≤ first then
      let (whole, part) := digits.toList.splitAt (first.toNat + 1)
      String.ofList whole ++ "." ++ String.ofList part
    else "0." ++ zeros (-first - 1).toNat ++ digits
  else
    let mantissa := match digits.toList with
      | head :: next :: rest => String.ofList (head :: '.' :: next :: rest)
      | short => String.ofList short
    let size := toString first.natAbs
    mantissa ++ (if first < 0 then "e-" else "e+") ++ zeros (2 - size.length) ++ size

def textWith (infinity notANumber : String) : Binary64 → String
  | .finite 0 => "0.0"
  | .finite units =>
      (if units < 0 then "-" else "") ++ textOfDecimal (Decimal.shortest units.natAbs)
  | .negativeZero => "-0.0"
  | .infinite negative => (if negative then "-" else "") ++ infinity
  | .notANumber => notANumber

def text (value : Binary64) : String := value.textWith "inf" "nan"

/-! ## Reading -/

def ofDecimal (digits : Nat) (exponent : Int) : Binary64 :=
  if digits = 0 then .finite 0
  else
    let first := exponent + Decimal.length digits
    if 400 < first then .infinite false
    else if first < -400 then .finite 0
    else if 0 ≤ exponent then ofRatio (digits * Nat.pow 10 exponent.toNat) 1
    else ofRatio digits (Nat.pow 10 (-exponent).toNat)

end Binary64

end Flowchart
