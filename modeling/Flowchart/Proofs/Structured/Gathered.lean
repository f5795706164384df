import Flowchart.Proofs.Structured.Shaped

/-!
What the conditionals and switches of a structured program give, in the order in which they open.

Parts that follow each other share no places, so that what belongs to places of one of them is not
found in another.
-/

namespace Flowchart.Structured.Part

variable {β : Type}

def gathered (give : Block → BranchExtent → List β) {role : Role} (index : Nat) :
    Part Block role → List β
  | .done => []
  | .simple _ rest => rest.gathered give (index + 1)
  | .conditional opener body arms _ rest =>
      let stop := index + 1 + body.size + arms.size
      give opener ⟨index, arms.heads (index + 1 + body.size), some stop, true⟩ ++
        (body.gathered give (index + 1) ++
          (arms.gathered give (index + 1 + body.size) ++ rest.gathered give (stop + 1)))
  | .loop _ body _ rest =>
      body.gathered give (index + 1) ++ rest.gathered give (index + 1 + body.size + 1)
  | .switch opener cases _ rest =>
      let stop := index + 1 + cases.size
      give opener ⟨index, cases.heads (index + 1), some stop, true⟩ ++
        (cases.gathered give (index + 1) ++ rest.gathered give (stop + 1))
  | .noArm => []
  | .elseIf _ body arms =>
      body.gathered give (index + 1) ++ arms.gathered give (index + 1 + body.size)
  | .otherwise _ body => body.gathered give (index + 1)
  | .lastCase _ body => body.gathered give (index + 1)
  | .case _ body cases =>
      body.gathered give (index + 1) ++ cases.gathered give (index + 1 + body.size)

section

variable {role : Role} {part : Part Block role} {index : Nat}
variable {give : Block → BranchExtent → List β}

theorem bounds_of_mem_heads {α : Type} {role : Role} {part : Part α role} {index place : Nat}
    (member : place ∈ part.heads index) : index ≤ place ∧ place < index + part.size := by
  induction part generalizing index with
  | done | simple | conditional | loop | switch | noArm => cases member
  | elseIf header body arms bodyInd armsInd =>
      simp only [size]
      rcases List.mem_cons.mp member with rfl | later
      · omega
      · have inArms := armsInd later
        omega
  | otherwise header body bodyInd =>
      simp only [size]
      rw [List.mem_singleton.mp member]
      omega
  | lastCase header body bodyInd =>
      simp only [size]
      rw [List.mem_singleton.mp member]
      omega
  | case header body cases bodyInd casesInd =>
      simp only [size]
      rcases List.mem_cons.mp member with rfl | later
      · omega
      · have inCases := casesInd later
        omega

def Between (places : β → List Nat) (first last : Nat) (gifts : List β) : Prop :=
  ∀ gift ∈ gifts, ∀ place ∈ places gift, first ≤ place ∧ place < last

theorem Between.widen {places : β → List Nat} {first last lower upper : Nat} {gifts : List β}
    (between : Between places lower upper gifts) (below : first ≤ lower := by omega)
    (above : upper ≤ last := by omega) : Between places first last gifts := by
  intro gift member place among
  have bounds := between gift member place among
  omega

theorem Between.append {places : β → List Nat} {first last : Nat} {gifts more : List β}
    (between : Between places first last gifts) (others : Between places first last more) :
    Between places first last (gifts ++ more) :=
  List.forall_mem_append.mpr ⟨between, others⟩

section

variable {places : β → List Nat}
variable (own : ∀ opener extent, ∀ gift ∈ give opener extent, ∀ place ∈ places gift,
  place ∈ extent.branches ∨ extent.stop = some place)
include own

theorem between_give (opener : Block) (extent : BranchExtent) {first stop : Nat}
    (heads : ∀ place ∈ extent.branches, first ≤ place ∧ place < stop)
    (isStop : extent.stop = some stop) (after : first ≤ stop) :
    Between places first (stop + 1) (give opener extent) := by
  intro gift given place among
  rcases own opener extent gift given place among with branch | isPlace
  · have inside := heads place branch
    omega
  · cases isStop.symm.trans isPlace
    omega

theorem between_gathered : Between places index (index + part.size) (part.gathered give index) := by
  induction part generalizing index with
  | done => exact List.forall_mem_nil _
  | simple line rest restInd =>
      simp only [gathered, size]
      exact restInd.widen
  | conditional opener body arms closer rest bodyInd armsInd restInd =>
      simp only [gathered, size]
      have given := between_give own opener
        ⟨index, arms.heads (index + 1 + body.size), some (index + 1 + body.size + arms.size), true⟩
        (fun _ => bounds_of_mem_heads) rfl (by omega)
      exact given.widen.append (bodyInd.widen.append (armsInd.widen.append restInd.widen))
  | loop opener body closer rest bodyInd restInd =>
      simp only [gathered, size]
      exact bodyInd.widen.append restInd.widen
  | switch opener cases closer rest casesInd restInd =>
      simp only [gathered, size]
      have given := between_give own opener
        ⟨index, cases.heads (index + 1), some (index + 1 + cases.size), true⟩
        (fun _ => bounds_of_mem_heads) rfl (by omega)
      exact given.widen.append (casesInd.widen.append restInd.widen)
  | noArm => exact List.forall_mem_nil _
  | elseIf header body arms bodyInd armsInd =>
      simp only [gathered, size]
      exact bodyInd.widen.append armsInd.widen
  | otherwise header body bodyInd =>
      simp only [gathered, size]
      exact bodyInd.widen
  | lastCase header body bodyInd =>
      simp only [gathered, size]
      exact bodyInd.widen
  | case header body cases bodyInd casesInd =>
      simp only [gathered, size]
      exact bodyInd.widen.append casesInd.widen

end

end

/-! ## Line by line -/

/-- A view of single blocks finds what conditionals and switches give with their extents among some
blocks, and nothing at other blocks. -/
structure Finds (blocks : List Block) (give : Block → BranchExtent → List β)
    (view : Block × Nat → Option β) : Prop where
  conditional : ∀ block place stop, block.opensConditional = true →
    (conditionalExtent blocks place).stop = some stop →
      (view (block, place)).toList = give block (conditionalExtent blocks place)
  switch : ∀ block place, block.kind = .switch → (switchExtent blocks place).branches ≠ [] →
    (view (block, place)).toList = give block (switchExtent blocks place)
  other : ∀ block place, block.opensConditional = false → block.kind ≠ .switch →
    view (block, place) = none

section

variable {role : Role} {part : Part Block role} {index : Nat} {blocks : List Block}
variable {give : Block → BranchExtent → List β} {view : Block × Nat → Option β}

theorem filterMap_cons_toList {α : Type} (f : α → Option β) (head : α) (tail : List α) :
    (head :: tail).filterMap f = (f head).toList ++ tail.filterMap f := by
  rw [List.filterMap_cons]
  cases f head <;> rfl

theorem Finds.other_of_ne (finds : Finds blocks give view) {block : Block} (place : Nat)
    (noCondition : block.kind ≠ .condition) (noSwitch : block.kind ≠ .switch) :
    view (block, place) = none :=
  finds.other block place (Block.not_opensConditional_of_ne noCondition) noSwitch

theorem Finds.other_of_plain (finds : Finds blocks give view) {block : Block} (place : Nat)
    (plain : block.kind ∈ Block.Kind.plain) : view (block, place) = none :=
  finds.other_of_ne place (Block.ne_of_plain plain (by decide))
    (Block.ne_of_plain plain (by decide))

/-- Going through the lines of a part finds what its conditionals and switches give. -/
theorem Finds.filterMap_lines (finds : Finds blocks give view) {level : Int}
    (shaped : part.Shaped level) (stands : part.StandsAt blocks index) :
    (part.lines.zipIdx index).filterMap view = part.gathered give index := by
  induction part generalizing level index with
  | done => rfl
  | simple line rest restInd =>
      rcases shaped with ⟨plain, rfl, restShaped⟩
      rw [lines, List.zipIdx_cons, List.filterMap_cons_none (finds.other_of_plain index plain.kind),
        restInd restShaped stands.simple.2, gathered]
  | conditional opener body arms closer rest bodyInd armsInd restInd =>
      have extent := conditionalExtent_of_lines shaped stands
      rcases stands.conditional with ⟨_, bodyStands, armsStands, _, restStands⟩
      rcases shaped with ⟨opens, rfl, bodyShaped, armsShaped, ends, _, sameLevel, restShaped⟩
      have own := finds.conditional opener index _ opens (congrArg BranchExtent.stop extent)
      have closes : view (closer, index + 1 + body.size + arms.size) = none :=
        finds.other_of_plain _ (by rw [Block.kind_of_isIfEnd ends]; decide)
      simp only [lines, List.zipIdx_cons, List.zipIdx_append, length_lines, filterMap_cons_toList,
        List.filterMap_append, own, extent, closes, bodyInd bodyShaped bodyStands,
        armsInd armsShaped armsStands, restInd restShaped restStands, gathered, List.append_assoc]
      rfl
  | loop opener body closer rest bodyInd restInd =>
      rcases stands.loop with ⟨_, bodyStands, _, restStands⟩
      rcases shaped with ⟨kind, rfl, bodyShaped, plain, sameLevel, restShaped⟩
      have own : view (opener, index) = none :=
        finds.other_of_ne index (by simp [kind]) (by simp [kind])
      have closes := finds.other_of_plain (index + 1 + body.size) plain.kind
      simp only [lines, List.zipIdx_cons, List.zipIdx_append, length_lines, List.filterMap_cons,
        List.filterMap_append, own, closes, bodyInd bodyShaped bodyStands,
        restInd restShaped restStands, gathered]
  | switch opener cases closer rest casesInd restInd =>
      have extent := switchExtent_of_lines shaped stands
      rcases stands.switch with ⟨_, casesStands, _, restStands⟩
      rcases shaped with ⟨kind, rfl, casesShaped, _, ends, sameLevel, restShaped⟩
      have some : (switchExtent blocks index).branches ≠ [] := by
        rw [extent]
        cases cases <;> simp [heads]
      have own := finds.switch opener index kind some
      have closes : view (closer, index + 1 + cases.size) = none :=
        finds.other_of_plain _ (by rw [Block.kind_of_isSwitchEnd ends]; decide)
      simp only [lines, List.zipIdx_cons, List.zipIdx_append, length_lines, filterMap_cons_toList,
        List.filterMap_append, own, extent, closes, casesInd casesShaped casesStands,
        restInd restShaped restStands, gathered]
      rfl
  | noArm => rfl
  | elseIf header body arms bodyInd armsInd =>
      rcases stands.elseIf with ⟨_, bodyStands, armsStands⟩
      rcases shaped with ⟨kind, rfl, bodyShaped, armsShaped⟩
      have own : view (header, index) = none :=
        finds.other_of_ne index (by simp [kind]) (by simp [kind])
      simp only [lines, List.zipIdx_cons, List.zipIdx_append, length_lines, List.filterMap_cons,
        List.filterMap_append, own, bodyInd bodyShaped bodyStands, armsInd armsShaped armsStands,
        gathered]
  | otherwise header body bodyInd =>
      rcases shaped with ⟨isElse, rfl, bodyShaped⟩
      have own : view (header, index) = none := by
        rcases isElse with isElse | ⟨kind, _⟩
        · exact finds.other header index (Block.not_opensConditional_of_isElse isElse)
            (by simp [Block.kind_of_isElse isElse])
        · exact finds.other_of_ne index (by simp [kind]) (by simp [kind])
      rw [lines, List.zipIdx_cons, List.filterMap_cons_none own,
        bodyInd bodyShaped stands.otherwise.2, gathered]
  | lastCase header body bodyInd =>
      rcases shaped with ⟨kind, rfl, bodyShaped⟩
      have own : view (header, index) = none :=
        finds.other_of_ne index (by simp [kind]) (by simp [kind])
      rw [lines, List.zipIdx_cons, List.filterMap_cons_none own,
        bodyInd bodyShaped stands.lastCase.2, gathered]
  | case header body cases bodyInd casesInd =>
      rcases stands.case with ⟨_, bodyStands, casesStands⟩
      rcases shaped with ⟨kind, rfl, bodyShaped, casesShaped⟩
      have own : view (header, index) = none :=
        finds.other_of_ne index (by simp [kind]) (by simp [kind])
      simp only [lines, List.zipIdx_cons, List.zipIdx_append, length_lines, List.filterMap_cons,
        List.filterMap_append, own, bodyInd bodyShaped bodyStands,
        casesInd casesShaped casesStands, gathered]

theorem Finds.filterMap_between {start stop : Block} {body : Part Block .statements} {level : Int}
    (finds : Finds (start :: body.lines ++ [stop]) give view) (starts : start.kind = .start)
    (stops : stop.kind = .stop) (shaped : body.Shaped level) :
    (start :: body.lines ++ [stop]).zipIdx.filterMap view = body.gathered give 1 := by
  have stands : body.StandsAt (start :: body.lines ++ [stop]) 1 := ⟨[stop], rfl⟩
  have inside := finds.filterMap_lines shaped stands
  have first : view (start, 0) = none := finds.other_of_ne 0 (by simp [starts]) (by simp [starts])
  have last : view (stop, 1 + body.size) = none :=
    finds.other_of_ne _ (by simp [stops]) (by simp [stops])
  simp only [List.cons_append, List.zipIdx_cons, List.zipIdx_append, List.zipIdx_nil,
    List.filterMap_cons, List.filterMap_append, List.filterMap_nil, Nat.zero_add, length_lines,
    first, last, inside, List.append_nil]

end

end Flowchart.Structured.Part
