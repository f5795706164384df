import Flowchart.Json

/-!
JSON as text. The fields of an object are written in the order of their names, every character
beyond the basic ones is escaped, and a character above 0xFFFF becomes a pair of surrogates.
-/

namespace Flowchart.Json

def hexDigit (value : Nat) : Char :=
  if value < 10 then Char.ofNat (0x30 + value) else Char.ofNat (0x57 + value)

def escapeUnit (unit : Nat) : List Char :=
  ['\\', 'u', hexDigit (unit / 4096 % 16), hexDigit (unit / 256 % 16), hexDigit (unit / 16 % 16),
    hexDigit (unit % 16)]

def escape (c : Char) : List Char :=
  if c = '"' then ['\\', '"']
  else if c = '\\' then ['\\', '\\']
  else if c = '\n' then ['\\', 'n']
  else if c = '\r' then ['\\', 'r']
  else if c = '\t' then ['\\', 't']
  else if c.toNat = 8 then ['\\', 'b']
  else if c.toNat = 12 then ['\\', 'f']
  else if 32 ≤ c.toNat ∧ c.toNat < 127 then [c]
  else if c.toNat < 0x10000 then escapeUnit c.toNat
  else
    escapeUnit (0xD800 + (c.toNat - 0x10000) / 0x400) ++
      escapeUnit (0xDC00 + (c.toNat - 0x10000) % 0x400)

def quote (text : String) : String :=
  String.ofList ('"' :: text.toList.flatMap escape ++ ['"'])

structure Layout where
  separator : Nat → String
  colon : String

def Layout.indented : Layout where
  separator depth := "\n" ++ String.ofList (List.replicate (2 * depth) ' ')
  colon := ": "

def Layout.compact : Layout where
  separator _ := ""
  colon := ":"

def numberText : Number → String
  | .int value => toString value
  | .float value => value.textWith "Infinity" "NaN"

def enclose (layout : Layout) (depth : Nat) (first last : String) (items : List String) : String :=
  if items.isEmpty then first ++ last
  else
    first ++ layout.separator (depth + 1) ++
      String.intercalate ("," ++ layout.separator (depth + 1)) items ++
      layout.separator depth ++ last

def sortFields (fields : List (String × String)) : List (String × String) :=
  fields.mergeSort fun left right => left.1 ≤ right.1

mutual

def render (layout : Layout) (depth : Nat) : Json → String
  | .null => "null"
  | .bool value => if value then "true" else "false"
  | .number value => numberText value
  | .text value => quote value
  | .array items => enclose layout depth "[" "]" (renderItems layout (depth + 1) items)
  | .object fields =>
      enclose layout depth "\x7b" "\x7d"
        ((sortFields (renderFields layout (depth + 1) fields)).map fun (name, written) =>
          quote name ++ layout.colon ++ written)

def renderItems (layout : Layout) (depth : Nat) : List Json → List String
  | [] => []
  | item :: rest => render layout depth item :: renderItems layout depth rest

def renderFields (layout : Layout) (depth : Nat) :
    List (String × Json) → List (String × String)
  | [] => []
  | (name, value) :: rest => (name, render layout depth value) :: renderFields layout depth rest

end

def pretty (value : Json) : String := render .indented 0 value

def compact (value : Json) : String := render .compact 0 value

example : (Json.object [("b", .array []), ("a", .int 1)]).compact =
    "\x7b\"a\":1,\"b\":[]\x7d" := by cbv

end Flowchart.Json
