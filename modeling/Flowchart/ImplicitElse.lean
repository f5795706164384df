import Flowchart.Extent

/-!
A conditional without a branch of its own gets one: a block that stands for the answer no, on the
level of the conditional and directly before its end.
-/

namespace Flowchart

namespace ImplicitElse

def block (level : Int) : Block where
  content := "No"
  level := level
  kind := .implicitElse
  closing := true

def missing (blocks : List Block) : List (Nat × Block) :=
  blocks.zipIdx.filterMap fun (opener, start) =>
    if opener.opensConditional then
      let extent := conditionalExtent blocks start
      if extent.branches.isEmpty then
        some (extent.stop.getD blocks.length, block opener.level)
      else none
    else none

/-- The branches that belong before one position. Where several conditionals end at once, the
innermost comes first. -/
def before (missing : List (Nat × Block)) (index : Nat) : List Block :=
  ((missing.filter fun (position, _) => position = index).map (·.2)).mergeSort
    fun left right => right.level ≤ left.level

end ImplicitElse

def completeConditionals (blocks : List Block) : List Block :=
  let missing := ImplicitElse.missing blocks
  blocks.zipIdx.flatMap (fun (block, index) => ImplicitElse.before missing index ++ [block]) ++
    ImplicitElse.before missing blocks.length

end Flowchart
