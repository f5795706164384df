/-!
The blocks of a flow chart: one line of a program each, with its kind and its nesting level.
-/

namespace Flowchart

/-- What a line does. A kind that is not one of the known ones keeps its name. -/
inductive Block.Kind
  | start
  | stop
  | process
  | condition
  | elseIf
  | switch
  | case
  | loop
  | input
  | output
  | call
  | definition
  | return
  | comment
  | connector
  | implicitElse
  | other (name : String)
deriving DecidableEq, Repr, Inhabited

namespace Block.Kind

def name : Block.Kind → String
  | .start => "start"
  | .stop => "end"
  | .process => "process"
  | .condition => "condition"
  | .elseIf => "else-if"
  | .switch => "switch"
  | .case => "case"
  | .loop => "loop"
  | .input => "input"
  | .output => "output"
  | .call => "function"
  | .definition => "function-def"
  | .return => "return"
  | .comment => "comment"
  | .connector => "connector"
  | .implicitElse => "implicit-else"
  | .other name => name

def known : List Block.Kind :=
  [.start, .stop, .process, .condition, .elseIf, .switch, .case, .loop, .input, .output, .call,
    .definition, .return, .comment, .connector, .implicitElse]

def ofName (name : String) : Block.Kind :=
  (known.find? fun kind => kind.name == name).getD (.other name)

theorem name_ofName (name : String) : (ofName name).name = name := by
  unfold ofName
  cases found : known.find? fun kind => kind.name == name with
  | none => rfl
  | some kind => simpa using List.find?_some found

theorem ofName_name_of_mem_known {kind : Block.Kind} (member : kind ∈ known) :
    ofName kind.name = kind := by
  simp only [known, List.mem_cons, List.not_mem_nil, or_false] at member
  rcases member with
    rfl | rfl | rfl | rfl | rfl | rfl | rfl | rfl |
    rfl | rfl | rfl | rfl | rfl | rfl | rfl | rfl <;>
  decide

end Block.Kind

/-- One line of a program. `closing` marks a line that ends a branch or a construct, and
`recursiveCall` says of a call whether it calls a recursive function. -/
structure Block where
  content : String
  level : Int := 0
  kind : Block.Kind
  closing : Bool := false
  recursiveCall : Option Bool := none
deriving DecidableEq, Repr, Inhabited

end Flowchart
