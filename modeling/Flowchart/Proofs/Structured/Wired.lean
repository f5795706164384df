import Flowchart.Proofs.Extent.Body
import Flowchart.Proofs.Structured.Syntax
import Flowchart.Walk

/-!
What a flow graph needs to have for a structured program to be walked through as it reads.

Every row has a goal: the place behind it, or for the body of a loop the loop itself. A part is
wired to a goal when its blocks lead on to each other and its last blocks to the goal.
-/

namespace Flowchart.Structured

open Flowchart.Walk

/-- Where a row goes on behind its end: at a place, or back at a loop as long as that is counted and
then at the place behind the loop. -/
inductive Goal
  | block (place : Nat)
  | loop (header close : Nat)
deriving DecidableEq, Repr

def Goal.place : Goal → Nat
  | .block place => place
  | .loop header _ => header

/-! ## Edges -/

section

variable (graph : Graph) (index : Nat)

def Links : Goal → Prop
  | .block place =>
      firstForward? graph (index : Int) = some (place : Int) ∧
        ∀ edge ∈ graph.outgoing (index : Int), edge.kind ≠ .loopBack
  | .loop header close =>
      firstForward? graph (index : Int) = some (close : Int) ∧
        (∃ edge ∈ graph.outgoing (index : Int), edge.kind = .loopBack) ∧
        ∀ edge ∈ graph.outgoing (index : Int),
          edge.kind = .loopBack → edge.target = (header : Int)

structure Forks (yes no : Nat) : Prop where
  forward : graph.forward (index : Int) =
    [{ source := index, target := yes, kind := .yes },
     { source := index, target := no, kind := .no }]
  onward : ∀ edge ∈ graph.outgoing (index : Int), edge.kind ≠ .loopBack

structure Selects (places : List Nat) (labels : List String) : Prop where
  targets : ((graph.outgoing (index : Int)).filter fun edge => edge.kind = .case).map Edge.target =
    places.map Int.ofNat
  labelled : ((graph.outgoing (index : Int)).filter fun edge => edge.kind = .case).map
    (fun edge => edge.label.getD "") = labels
  onward : ∀ edge ∈ graph.outgoing (index : Int), edge.kind ≠ .loopBack

structure Passes (block : Block) (goal : Goal) : Prop where
  found : graph.blocks[index]? = some block
  goesOn : block.kind ≠ .stop ∧ block.kind ≠ .return
  other : block.kind ≠ .loop ∧ block.kind ≠ .call ∧ block.kind ≠ .switch
  asksNothing : ¬(block.opensConditional = true ∨ block.kind = .elseIf)
  links : Links graph index goal

structure Asks (block : Block) (yes no : Nat) : Prop where
  found : graph.blocks[index]? = some block
  asks : block.opensConditional = true ∨ block.kind = .elseIf
  forks : Forks graph index yes no

end

/-! ## Parts -/

namespace Part

variable {α : Type} {role : Role}

def entry {role : Role} (index number : Nat) (goal : Goal) : Part α role → Goal
  | .done => goal
  | .noArm => goal
  | .case _ body cases => match number with
      | 0 => .block index
      | number + 1 => cases.entry (index + 1 + body.size) number goal
  | _ => .block index
termination_by structural part => part

def Wired (graph : Graph) {role : Role} (goal : Goal) (index : Nat) : Part Block role → Prop
  | .done => True
  | .simple line rest =>
      Passes graph index line (rest.entry (index + 1) 0 goal) ∧ rest.Wired graph goal (index + 1)
  | .conditional opener body arms closer rest =>
      let first := index + 1 + body.size
      let stop := first + arms.size
      Asks graph index opener (body.entry (index + 1) 0 (.block stop)).place
          (arms.entry first 0 (.block stop)).place ∧
        body.Wired graph (.block stop) (index + 1) ∧ arms.Wired graph (.block stop) first ∧
        Passes graph stop closer (rest.entry (stop + 1) 0 goal) ∧
        rest.Wired graph goal (stop + 1)
  | .loop opener body closer rest =>
      let close := index + 1 + body.size
      graph.blocks[index]? = some opener ∧ opener.kind = .loop ∧
        bodyEnd graph.blocks index = index + body.size ∧ Links graph index (.block (index + 1)) ∧
        body.Wired graph (.loop index close) (index + 1) ∧
        Passes graph close closer (rest.entry (close + 1) 0 goal) ∧
        rest.Wired graph goal (close + 1)
  | .switch opener cases closer rest =>
      let stop := index + 1 + cases.size
      graph.blocks[index]? = some opener ∧ opener.kind = .switch ∧
        Selects graph index (cases.heads (index + 1)) (cases.headers.map Block.content) ∧
        cases.Wired graph (.block stop) (index + 1) ∧
        Passes graph stop closer (rest.entry (stop + 1) 0 goal) ∧
        rest.Wired graph goal (stop + 1)
  | .noArm => True
  | .elseIf header body arms =>
      let next := index + 1 + body.size
      Asks graph index header (body.entry (index + 1) 0 goal).place
          (arms.entry next 0 goal).place ∧
        body.Wired graph goal (index + 1) ∧ arms.Wired graph goal next
  | .otherwise header body =>
      Passes graph index header (body.entry (index + 1) 0 goal) ∧
        body.Wired graph goal (index + 1)
  | .lastCase header body =>
      Passes graph index header (body.entry (index + 1) 0 goal) ∧
        body.Wired graph goal (index + 1)
  | .case header body cases =>
      Passes graph index header (body.entry (index + 1) 0 goal) ∧
        body.Wired graph goal (index + 1) ∧ cases.Wired graph goal (index + 1 + body.size)

theorem read_case_succ {σ : Type} (oracle : Oracle σ) (rounds index number : Nat) (header : Block)
    (body : Part Block .statements) (cases : Part Block .cases) (memory : σ) :
    (case header body cases).read oracle rounds index (number + 1) memory =
      cases.read oracle rounds (index + 1 + body.size) number memory := by
  rw [read]

theorem entry_of_getElem? {part : Part α role} (isCases : role = .cases) {index number place : Nat}
    (header : (part.heads index)[number]? = some place) (goal : Goal) :
    part.entry index number goal = .block place := by
  induction part generalizing index number with
  | done | simple | conditional | loop | switch | noArm | elseIf | otherwise => cases isCases
  | lastCase header body bodyInd =>
      rw [heads, List.getElem?_singleton] at header
      split at header
      · cases header
        rfl
      · cases header
  | case header' body cases bodyInd casesInd =>
      cases number with
      | zero =>
          cases header
          rfl
      | succ number => exact casesInd rfl header

theorem eq_done_of_size {rest : Part α .statements} (empty : rest.size = 0) : rest = .done := by
  cases rest with
  | done => rfl
  | simple | conditional | loop | switch =>
      simp only [size] at empty
      omega

theorem entry_of_size_pos {rest : Part α .statements} (some : rest.size ≠ 0)
    (index number : Nat) (goal : Goal) : rest.entry index number goal = .block index := by
  cases rest with
  | done => exact absurd rfl some
  | simple | conditional | loop | switch => rfl

theorem Wired.last {graph : Graph} {goal : Goal} {index : Nat} {part : Part Block role}
    (isRow : role = .statements) (wired : part.Wired graph goal index) (some : part.size ≠ 0) :
    Links graph (index + part.size - 1) goal := by
  -- the row ends with a block that has nothing behind it, or the rest behind the block ends it
  have behind : ∀ {rest : Part Block .statements} {block : Block} {place : Nat},
      Passes graph place block (rest.entry (place + 1) 0 goal) →
      (rest.size ≠ 0 → Links graph (place + 1 + rest.size - 1) goal) →
      Links graph (place + 1 + rest.size - 1) goal := by
    intro rest block place passes later
    by_cases empty : rest.size = 0
    · cases eq_done_of_size empty
      exact passes.links
    · exact later empty
  induction part generalizing index with
  | noArm | elseIf | otherwise | lastCase | case => cases isRow
  | done => exact absurd rfl some
  | simple line rest restInd =>
      have ends := behind wired.1 (restInd rfl wired.2)
      rwa [size, ← Nat.add_assoc]
  | conditional opener body arms closer rest bodyInd armsInd restInd =>
      rcases wired with ⟨_, _, _, closes, restWired⟩
      have ends := behind closes (restInd rfl restWired)
      simpa only [size, Nat.add_assoc] using ends
  | loop opener body closer rest bodyInd restInd =>
      rcases wired with ⟨_, _, _, _, _, closes, restWired⟩
      have ends := behind closes (restInd rfl restWired)
      simpa only [size, Nat.add_assoc] using ends
  | switch opener cases closer rest casesInd restInd =>
      rcases wired with ⟨_, _, _, _, closes, restWired⟩
      have ends := behind closes (restInd rfl restWired)
      simpa only [size, Nat.add_assoc] using ends

end Part

end Flowchart.Structured
