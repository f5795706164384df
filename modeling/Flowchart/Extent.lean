import Flowchart.Block.Keyword

/-!
How far conditionals, switches and loops reach.

A conditional or a switch with an end marker of its own reaches to that marker. Without one it
reaches to the first block that comes back to its level, or above it, and is not one of its
branches. A loop reaches over the blocks that are nested below it.
-/

namespace Flowchart

/-- The branches of a conditional or a switch and the block at which it ends, if one does.
`explicit` says that this block is the end marker of the construct. -/
structure BranchExtent where
  start : Nat
  branches : List Nat
  stop : Option Nat
  explicit : Bool
deriving DecidableEq, Repr

def BranchExtent.nextBoundary (extent : BranchExtent) (index : Nat) : Option Nat :=
  match extent.branches.find? (index < ·) with
  | some branch => some branch
  | none => extent.stop

structure LoopExtent where
  start : Nat
  last : Option Nat
  close : Option Nat
deriving DecidableEq, Repr

namespace Extent

/-! ## Conditionals -/

/-- The branches and the end marker of a conditional on level `base`, looked for from `index` on
inside `depth` further conditionals. The end of the program or of the level ends the search. -/
def markedConditional (base : Int) (depth index : Nat) : List Block → Option (List Nat × Nat)
  | [] => none
  | block :: rest =>
      if block.kind = .stop ∨ block.level < base then none
      else if block.opensConditional then markedConditional base (depth + 1) (index + 1) rest
      else if block.isIfEnd then
        match depth with
        | 0 => some ([], index)
        | depth + 1 => markedConditional base depth (index + 1) rest
      else
        (markedConditional base depth (index + 1) rest).map fun (branches, marker) =>
          (if depth = 0 ∧ block.isBranch then index :: branches else branches, marker)

def indentedConditional (base : Int) (index : Nat) : List Block → List Nat × Option Nat
  | [] => ([], none)
  | block :: rest =>
      if block.level < base ∨ block.kind = .stop then ([], some index)
      else if block.level = base then
        if block.isBranch then
          let (branches, stop) := indentedConditional base (index + 1) rest
          (index :: branches, stop)
        else ([], some index)
      else indentedConditional base (index + 1) rest

def ofConditional (start : Nat) (opener : Block) (rest : List Block) : BranchExtent :=
  match markedConditional opener.level 0 (start + 1) rest with
  | some (branches, marker) => ⟨start, branches, some marker, true⟩
  | none =>
      let (branches, stop) := indentedConditional opener.level (start + 1) rest
      ⟨start, branches, stop, false⟩

/-! ## Switches -/

def markedSwitch (base : Int) (depth index : Nat) : List Block → Option (List Nat × Nat)
  | [] => none
  | block :: rest =>
      if block.kind = .stop ∨ block.level < base then none
      else if block.kind = .switch then markedSwitch base (depth + 1) (index + 1) rest
      else if block.isSwitchEnd then
        match depth with
        | 0 => some ([], index)
        | depth + 1 => markedSwitch base depth (index + 1) rest
      else
        (markedSwitch base depth (index + 1) rest).map fun (cases, marker) =>
          (if depth = 0 ∧ block.kind = .case then index :: cases else cases, marker)

/-- The cases and the end of a switch on level `base`, by levels alone. All cases of a switch
stand on the level of its first. -/
def indentedSwitch (base : Int) (caseLevel : Option Int) (index : Nat) :
    List Block → List Nat × Option Nat
  | [] => ([], none)
  | block :: rest =>
      if block.kind = .stop ∨ block.level < base then ([], some index)
      else if block.kind = .case ∧ caseLevel.all (block.level = ·) then
        let (cases, stop) := indentedSwitch base (some block.level) (index + 1) rest
        (index :: cases, stop)
      else if block.level = base then ([], some index)
      else indentedSwitch base caseLevel (index + 1) rest

def ofSwitch (start : Nat) (opener : Block) (rest : List Block) : BranchExtent :=
  match markedSwitch opener.level 0 (start + 1) rest with
  | some (cases, marker) => ⟨start, cases, some marker, true⟩
  | none =>
      let (cases, stop) := indentedSwitch opener.level none (start + 1) rest
      ⟨start, cases, stop, false⟩

/-! ## Loops -/

def bodyLength (base : Int) (rest : List Block) : Nat :=
  (rest.takeWhile fun block => base < block.level && block.kind != .stop).length

def ofLoop (start : Nat) (opener : Block) (rest : List Block) : LoopExtent :=
  let length := bodyLength opener.level rest
  { start
    last := if length = 0 then none else some (start + length)
    close := if length < rest.length then some (start + 1 + length) else none }

end Extent

/-! ## By position

A position outside the program has the extent of a construct without branches, body or end. -/

def conditionalExtent (blocks : List Block) (start : Nat) : BranchExtent :=
  match blocks.drop start with
  | [] => ⟨start, [], none, false⟩
  | opener :: rest => Extent.ofConditional start opener rest

def switchExtent (blocks : List Block) (start : Nat) : BranchExtent :=
  match blocks.drop start with
  | [] => ⟨start, [], none, false⟩
  | opener :: rest => Extent.ofSwitch start opener rest

def loopExtent (blocks : List Block) (start : Nat) : LoopExtent :=
  match blocks.drop start with
  | [] => ⟨start, none, none⟩
  | opener :: rest => Extent.ofLoop start opener rest

end Flowchart
