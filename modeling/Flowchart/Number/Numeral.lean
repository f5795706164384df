import Flowchart.Number
import Flowchart.Text.Blank
import Flowchart.Text.Digit

/-!
Numerals in free text: a sign, digits of any script with single underscores between them, and for
a float a point, an exponent, or a name for infinity and for no number.
-/

namespace Flowchart

open Text

inductive NumeralError
  | malformed
  /-- A whole number of more digits than are read. -/
  | tooLong (digits : Nat)
deriving DecidableEq, Repr

namespace Numeral

def maxDigits : Nat := 4300

def tooLongMessage (digits : Nat) : String :=
  s!"Exceeds the limit ({maxDigits} digits) for integer string conversion: value has {digits} " ++
    "digits; use sys.set_int_max_str_digits() to increase the limit"

def isTooLong (value : Int) : Bool := Nat.pow 10 maxDigits ≤ value.natAbs

def tooLongToWrite : String :=
  s!"Exceeds the limit ({maxDigits} digits) for integer string conversion; " ++
    "use sys.set_int_max_str_digits() to increase the limit"

/-- White space that may surround a numeral. The information separators may not. -/
def isPadding (c : Char) : Bool := isBlank c && !(0x1C ≤ c.toNat && c.toNat ≤ 0x1F)

def unpad (text : List Char) : List Char :=
  ((text.dropWhile isPadding).reverse.dropWhile isPadding).reverse

def splitSign : List Char → Bool × List Char
  | '-' :: rest => (true, rest)
  | '+' :: rest => (false, rest)
  | text => (false, text)

/-- Digits without the underscores between them. Fails on any other character and on an underscore
that does not stand between two digits; `inside` says that a digit comes before. -/
def ungroup? (inside : Bool) : List Char → Option (List Char)
  | [] => some []
  | '_' :: c :: rest =>
      if inside && isDecimalDigit c then (ungroup? true rest).map (c :: ·) else none
  | c :: rest => if isDecimalDigit c then (ungroup? true rest).map (c :: ·) else none

def wholeOfDigits (digits : List Char) : Except NumeralError Nat :=
  if maxDigits < digits.length then .error (.tooLong digits.length) else .ok (digitsValue digits)

def signed (negative : Bool) (value : Nat) : Int := if negative then -value else value

def readInt (text : List Char) : Except NumeralError Int :=
  let (negative, rest) := splitSign (unpad text)
  match ungroup? false rest with
  | none => .error .malformed
  | some [] => .error .malformed
  | some digits => (wholeOfDigits digits).map (signed negative)

def digitPart? (text : List Char) : Option (List Char × List Char) :=
  let (part, rest) := text.span fun c => isDecimalDigit c || c = '_'
  (ungroup? false part).map (·, rest)

def exponent? : List Char → Option Int
  | [] => some 0
  | e :: rest =>
      if e = 'e' ∨ e = 'E' then
        let (negative, rest) := splitSign rest
        match ungroup? false rest with
        | none => none
        | some [] => none
        | some digits => some (signed negative (digitsValue digits))
      else none

def unsignedFloat? (text : List Char) : Option Binary64 := do
  let (whole, rest) ← digitPart? text
  let (part, rest) ← match rest with
    | '.' :: after => digitPart? after
    | _ => some ([], rest)
  if whole.isEmpty && part.isEmpty then none
  else
    let exponent ← exponent? rest
    return .ofDecimal (digitsValue (whole ++ part)) (exponent - (part.length : Int))

def readFloat? (text : List Char) : Option Binary64 :=
  let (negative, rest) := splitSign (unpad text)
  let name := String.ofList (rest.map Char.toLower)
  let size :=
    if name = "inf" ∨ name = "infinity" then some (.infinite false)
    else if name = "nan" then some .notANumber
    else unsignedFloat? rest
  size.map fun size => if negative then -size else size

end Numeral

end Flowchart
