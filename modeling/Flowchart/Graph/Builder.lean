import Flowchart.Call.Site
import Flowchart.Extent
import Flowchart.Graph

/-!
The flow graph of a row of blocks.

The blocks are passed once, in order, with the constructs that are open at each block on a stack.
Every block gives its own edges:

* a condition or an else-if: yes to the next block, no to the next branch or the end;
* an else or a case: on to the next block; an implicit else: no to the end;
* a loop: on to the next block, and back from the last block of its body;
* a switch: one labelled edge to each case;
* a return inside a branch: to the end of the construct, and a recursive edge to the first
  condition if it calls the function itself;
* an end: none;
* any other block: on to the next block, or to the end of the construct after a branch.

Inside the body of a loop, an edge that would leave the body from any other block than its last
goes back to the loop instead. Returns are free to leave.
-/

namespace Flowchart

namespace Graph

/-! ## Constructs -/

inductive Construct
  | conditional (extent : BranchExtent)
  | switch (extent : BranchExtent)
  | loop (extent : LoopExtent)
deriving DecidableEq, Repr

namespace Construct

def opened? (blocks : List Block) (index : Nat) (block : Block) : Option Construct :=
  if block.opensConditional then some (.conditional (conditionalExtent blocks index))
  else if block.kind = .switch then some (.switch (switchExtent blocks index))
  else if block.kind = .loop then some (.loop (loopExtent blocks index))
  else none

def branchExtent? : Construct → Option BranchExtent
  | .conditional extent => some extent
  | .switch extent => some extent
  | .loop _ => none

end Construct

structure Plan where
  blocks : List Block
  functionName : Option String
  constructs : List Construct

namespace Plan

def ofBlocks (blocks : List Block) (functionName : Option String) : Plan where
  blocks := blocks
  functionName := functionName
  constructs := blocks.zipIdx.filterMap fun (block, index) => Construct.opened? blocks index block

def owner? (plan : Plan) (index : Nat) : Option BranchExtent :=
  plan.constructs.findSome? fun construct =>
    construct.branchExtent?.filter fun extent => extent.branches.contains index

def firstCondition? (plan : Plan) : Option Nat :=
  plan.blocks.findIdx? Block.opensConditional

def callsItself (plan : Plan) (block : Block) : Bool :=
  match plan.functionName with
  | some name => !(findCalls block.content.toList name.toList).isEmpty
  | none => false

end Plan

/-! ## Open constructs -/

/-- A construct that is open at a block: a branch of a conditional or a switch up to its boundary,
or the body of a loop. -/
inductive Scope
  | branch (extent : BranchExtent) (boundary : Option Nat)
  | loop (extent : LoopExtent)
deriving DecidableEq, Repr

namespace Scope

def boundary : Scope → Option Nat
  | .branch _ boundary => boundary
  | .loop extent => extent.close

def reaches (index : Nat) (scope : Scope) : Bool := scope.boundary.all (index < ·)

def loop? : Scope → Option LoopExtent
  | .loop extent => some extent
  | .branch .. => none

def branch? : Scope → Option BranchExtent
  | .branch extent _ => some extent
  | .loop _ => none

end Scope

abbrev Scopes := List Scope

namespace Scopes

def loops (scopes : Scopes) : List LoopExtent := scopes.filterMap Scope.loop?

def resolve (scopes : Scopes) (target : Option Nat) : Option Nat :=
  scopes.foldl (fun target scope => match scope with
    | .branch extent boundary =>
        if target.isSome ∧ boundary = target ∧ target ≠ extent.stop then extent.stop else target
    | .loop _ => target) target

/-- The loop, and its nesting, to which an edge goes back that would leave its body early. The
innermost loop with a block after it decides. -/
def loopBack? (source target : Nat) : List LoopExtent → Option (Nat × Nat)
  | [] => none
  | extent :: outer => match extent.close with
      | none => loopBack? source target outer
      | some close =>
          if target < close ∨ extent.last = some source then none
          else some (extent.start, outer.length)

end Scopes

/-! ## Edges -/

def edgeWithin (size : Nat) (scopes : Scopes) (source : Nat) (target : Option Nat)
    (kind : Edge.Kind) (label : Option String) : List Edge :=
  match target with
  | none => []
  | some target =>
      if target < size then
        match Scopes.loopBack? source target scopes.loops with
        | none => [{ source, target, kind, label }]
        | some (start, depth) =>
            if kind = .default then
              [{ source, target := start, kind := .loopBack, depth := some depth, label }]
            else [{ source, target := start, kind, label }]
      else []

def edgeBeyond (size : Nat) (source : Nat) (target : Option Nat) : List Edge :=
  match target with
  | none => []
  | some target => if target < size then [{ source, target }] else []

/-! ## Blocks -/

structure Contribution where
  edges : List Edge
  opens : Option Scope := none

namespace Plan

def size (plan : Plan) : Nat := plan.blocks.length

def conditionBlock (plan : Plan) (scopes : Scopes) (index : Nat) : Contribution :=
  let extent := conditionalExtent plan.blocks index
  let first := extent.nextBoundary index
  let stop := scopes.resolve extent.stop
  { edges :=
      edgeWithin plan.size scopes index
        (if some (index + 1) = first then stop else some (index + 1)) .yes none ++
      edgeWithin plan.size scopes index (if first = extent.stop then stop else first) .no none
    opens := some (.branch extent first) }

/-- A branch of a conditional or a case of a switch. The branch itself is open while its edges
are drawn. -/
def branchBlock (plan : Plan) (scopes : Scopes) (index : Nat) (block : Block) : Contribution :=
  let owner := plan.owner? index
  let next := owner.bind (·.nextBoundary index)
  let opens := owner.map (Scope.branch · next)
  let scopes : Scopes := opens.toList ++ scopes
  let stop := owner.bind fun extent => scopes.resolve extent.stop
  let edges :=
    if block.kind = .implicitElse then edgeWithin plan.size scopes index stop .no none
    else if block.kind = .elseIf then
      edgeWithin plan.size scopes index (scopes.resolve (some (index + 1))) .yes none ++
      edgeWithin plan.size scopes index
        (if owner.all fun extent => next = extent.stop then stop else next) .no none
    else edgeWithin plan.size scopes index (scopes.resolve (some (index + 1))) .default none
  { edges, opens }

def switchBlock (plan : Plan) (scopes : Scopes) (index : Nat) : Contribution :=
  let extent := switchExtent plan.blocks index
  { edges :=
      if extent.branches.isEmpty then
        edgeWithin plan.size scopes index (some (index + 1)) .default none
      else
        extent.branches.flatMap fun branch =>
          edgeWithin plan.size scopes index (some branch) .case
            (plan.blocks[branch]?.map Block.content)
    opens := some (.branch extent (extent.nextBoundary index)) }

def loopBlock (plan : Plan) (scopes : Scopes) (index : Nat) : Contribution where
  edges := edgeWithin plan.size scopes index (some (index + 1)) .default none
  opens := some (.loop (loopExtent plan.blocks index))

def returnBlock (plan : Plan) (scopes : Scopes) (index : Nat) (block : Block) : Contribution :=
  match scopes.findSome? Scope.branch? with
  | none => { edges := edgeBeyond plan.size index (some (index + 1)) }
  | some extent =>
      let target :=
        if extent.stop.isSome then scopes.resolve extent.stop
        else scopes.resolve (some (index + 1))
      let again :=
        if plan.callsItself block then
          edgeWithin plan.size scopes index plan.firstCondition? .recursive none
        else []
      { edges := edgeBeyond plan.size index target ++ again }

def contribution (plan : Plan) (scopes : Scopes) (index : Nat) (block : Block) : Contribution :=
  if block.kind = .stop then { edges := [] }
  else if block.opensConditional then plan.conditionBlock scopes index
  else if block.isBranch ∨ (block.kind = .case ∧ (plan.owner? index).isSome) then
    plan.branchBlock scopes index block
  else if block.kind = .switch then plan.switchBlock scopes index
  else if block.kind = .loop then plan.loopBlock scopes index
  else if block.kind = .return then plan.returnBlock scopes index block
  else
    { edges :=
        edgeWithin plan.size scopes index (scopes.resolve (some (index + 1))) .default none }

def repetition (scopes : Scopes) (index : Nat) : Option Scope → List Edge
  | some (.loop extent) => match extent.last with
      | some last =>
          [{ source := last
             target := index
             kind := .loopBack
             depth := some scopes.loops.length }]
      | none => []
  | _ => []

/-- The edges of the blocks from `index` on. `pending` holds the edges back to loops whose last
block is still to come. -/
def edgesFrom (plan : Plan) (scopes : Scopes) (pending : List Edge) (index : Nat) :
    List Block → List Edge
  | [] => []
  | block :: rest =>
      let scopes : Scopes := scopes.filter (Scope.reaches index)
      let own := plan.contribution scopes index block
      let pending := pending ++ repetition scopes index own.opens
      let (due, later) := pending.partition fun edge : Edge => edge.source = index
      own.edges ++ due ++ plan.edgesFrom (own.opens.toList ++ scopes) later (index + 1) rest

end Plan

def ofBlocks (blocks : List Block) (functionName : Option String := none) : Graph where
  blocks := blocks
  edges := (Plan.ofBlocks blocks functionName).edgesFrom [] [] 0 blocks

end Graph

end Flowchart
