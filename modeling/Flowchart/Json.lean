import Flowchart.Number

/-!
JSON values. The fields of an object keep their order and have different names.
-/

namespace Flowchart

inductive Json
  | null
  | bool (value : Bool)
  | number (value : Number)
  | text (value : String)
  | array (items : List Json)
  | object (fields : List (String × Json))
deriving Repr, Inhabited

def putField {α : Type} (name : String) (value : α) : List (String × α) → List (String × α)
  | [] => [(name, value)]
  | (other, old) :: rest =>
      if other = name then (name, value) :: rest else (other, old) :: putField name value rest

namespace Json

def int (value : Int) : Json := .number (.int value)

def ofNat (value : Nat) : Json := .int value

def ofOption {α : Type} (encode : α → Json) : Option α → Json
  | some value => encode value
  | none => .null

def texts (values : List String) : Json := .array (values.map .text)

def get? (name : String) : Json → Option Json
  | .object fields => fields.lookup name
  | _ => none

end Json

end Flowchart
