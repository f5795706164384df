import Flowchart.Json
import Flowchart.Text.Digit

/-!
Reading JSON. A number without a point and without an exponent is whole; of several fields with
one name the last gives the value. Floats that are no finite numbers are read as they are printed.
-/

namespace Flowchart.Json

open Text

namespace Reader

def isSpace (c : Char) : Bool := c = ' ' || c = '\t' || c = '\n' || c = '\r'

def skipSpace (text : List Char) : List Char := text.dropWhile isSpace

def hexValue? (c : Char) : Option Nat :=
  if '0' ≤ c ∧ c ≤ '9' then some (c.toNat - 0x30)
  else if 'a' ≤ c ∧ c ≤ 'f' then some (c.toNat - 0x57)
  else if 'A' ≤ c ∧ c ≤ 'F' then some (c.toNat - 0x37)
  else none

def unit? : List Char → Option (Nat × List Char)
  | a :: b :: c :: d :: rest => do
      let a ← hexValue? a
      let b ← hexValue? b
      let c ← hexValue? c
      let d ← hexValue? d
      return (((a * 16 + b) * 16 + c) * 16 + d, rest)
  | _ => none

def namedEscape? (c : Char) : Option Char :=
  if c = '"' ∨ c = '\\' ∨ c = '/' then some c
  else if c = 'n' then some '\n'
  else if c = 'r' then some '\r'
  else if c = 't' then some '\t'
  else if c = 'b' then some (Char.ofNat 8)
  else if c = 'f' then some (Char.ofNat 12)
  else none

/-- The character of an escape by code point, of a pair of surrogates where two units make one.
A lone surrogate reads as the replacement character. -/
def codeEscape? (text : List Char) : Option (Char × List Char) := do
  let (high, rest) ← unit? text
  if 0xD800 ≤ high ∧ high < 0xDC00 then
    match rest with
    | '\\' :: 'u' :: after => match unit? after with
        | some (low, after) =>
            if 0xDC00 ≤ low ∧ low < 0xE000 then
              return (Char.ofNat (0x10000 + (high - 0xD800) * 0x400 + (low - 0xDC00)), after)
            else return (Char.ofNat 0xFFFD, rest)
        | none => return (Char.ofNat 0xFFFD, rest)
    | _ => return (Char.ofNat 0xFFFD, rest)
  else if 0xDC00 ≤ high ∧ high < 0xE000 then return (Char.ofNat 0xFFFD, rest)
  else return (Char.ofNat high, rest)

def quoted? (fuel : Nat) (read : List Char) (text : List Char) :
    Option (String × List Char) :=
  match fuel, text with
  | fuel + 1, c :: rest =>
      if c = '"' then some (String.ofList read.reverse, rest)
      else if c = '\\' then
        match rest with
        | 'u' :: after => do
            let (c, after) ← codeEscape? after
            quoted? fuel (c :: read) after
        | e :: after => do
            let c ← namedEscape? e
            quoted? fuel (c :: read) after
        | [] => none
      else quoted? fuel (c :: read) rest
  | _, _ => none

def isDigit (c : Char) : Bool := '0' ≤ c && c ≤ '9'

def digits (text : List Char) : List Char × List Char := text.span isDigit

def signed (negative : Bool) (value : Nat) : Int := if negative then -value else value

def unsigned? (negative : Bool) (text : List Char) : Option (Number × List Char) :=
  let (whole, rest) := digits text
  if whole.isEmpty then none
  else
    let (part, hasPart, rest) := match rest with
      | '.' :: after => let (part, rest) := digits after; (part, true, rest)
      | _ => ([], false, rest)
    let (exponent, rest) : Option Int × List Char := match rest with
      | c :: after =>
          if c = 'e' ∨ c = 'E' then
            match after with
            | '-' :: after => let (size, rest) := digits after; (some (-digitsValue size), rest)
            | '+' :: after => let (size, rest) := digits after; (some (digitsValue size), rest)
            | _ => let (size, rest) := digits after; (some (digitsValue size), rest)
          else (none, c :: after)
      | [] => (none, [])
    if !hasPart && exponent.isNone then
      some (.int (signed negative (digitsValue whole)), rest)
    else
      let size := Binary64.ofDecimal (digitsValue (whole ++ part))
        (exponent.getD 0 - (part.length : Int))
      some (.float (if negative then -size else size), rest)

def number? : List Char → Option (Number × List Char)
  | '-' :: rest => unsigned? true rest
  | chars => unsigned? false chars

def word? (word : String) (value : Json) (text : List Char) : Option (Json × List Char) :=
  if text.take word.length = word.toList then some (value, text.drop word.length) else none

mutual

/-- A value at the start of a text and what follows it. Each level of nesting and each item takes
at least one character, so the length of the text is fuel enough. -/
def value? (fuel : Nat) (chars : List Char) : Option (Json × List Char) :=
  match fuel, skipSpace chars with
  | fuel + 1, c :: rest =>
      if c = '"' then (quoted? rest.length [] rest).map fun (read, rest) => (.text read, rest)
      else if c = '[' then
        match skipSpace rest with
        | ']' :: rest => some (.array [], rest)
        | rest => (items? fuel rest).map fun (items, rest) => (.array items, rest)
      else if c = '\x7b' then
        match skipSpace rest with
        | '\x7d' :: rest => some (.object [], rest)
        | rest => (fields? fuel [] rest).map fun (fields, rest) => (.object fields, rest)
      else if c = 't' then word? "true" (.bool true) (c :: rest)
      else if c = 'f' then word? "false" (.bool false) (c :: rest)
      else if c = 'n' then word? "null" .null (c :: rest)
      else if c = 'N' then word? "NaN" (.number (.float .notANumber)) (c :: rest)
      else if c = 'I' then word? "Infinity" (.number (.float (.infinite false))) (c :: rest)
      else match c, rest with
        | '-', 'I' :: _ =>
            word? "-Infinity" (.number (.float (.infinite true))) (c :: rest)
        | _, _ => (number? (c :: rest)).map fun (read, rest) => (.number read, rest)
  | _, _ => none

def items? (fuel : Nat) (text : List Char) : Option (List Json × List Char) :=
  match fuel with
  | 0 => none
  | fuel + 1 => do
      let (item, rest) ← value? fuel text
      match skipSpace rest with
      | ',' :: rest =>
          let (items, rest) ← items? fuel rest
          return (item :: items, rest)
      | ']' :: rest => return ([item], rest)
      | _ => none

def fields? (fuel : Nat) (fields : List (String × Json)) (text : List Char) :
    Option (List (String × Json) × List Char) :=
  match fuel, skipSpace text with
  | fuel + 1, '"' :: rest => do
      let (name, rest) ← quoted? rest.length [] rest
      match skipSpace rest with
      | ':' :: rest =>
          let (value, rest) ← value? fuel rest
          let fields := putField name value fields
          match skipSpace rest with
          | ',' :: rest => fields? fuel fields rest
          | '\x7d' :: rest => return (fields, rest)
          | _ => none
      | _ => none
  | _, _ => none

end

end Reader

def read? (text : String) : Option Json :=
  let chars := text.toList
  match Reader.value? (chars.length + 1) chars with
  | some (value, rest) => if (Reader.skipSpace rest).isEmpty then some value else none
  | none => none

end Flowchart.Json
