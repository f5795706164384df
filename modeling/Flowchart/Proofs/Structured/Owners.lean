import Flowchart.Graph.Builder
import Flowchart.Proofs.Structured.Gathered

/-!
Whose branches the headers of a structured program are: an arm belongs to the conditional and a case
to the switch that it is written in.

Parts that follow each other share no places, so that the first construct with a branch at a place
is looked for in one part only.
-/

namespace Flowchart.Structured

open Flowchart.Graph

def ownerAmong (extents : List BranchExtent) (place : Nat) : Option BranchExtent :=
  extents.find? fun extent => extent.branches.contains place

section

variable {extent : BranchExtent} {place : Nat}

theorem ownerAmong_append (first second : List BranchExtent) (place : Nat) :
    ownerAmong (first ++ second) place =
      (ownerAmong first place).or (ownerAmong second place) :=
  List.find?_append

theorem ownerAmong_cons_of_mem (extents : List BranchExtent) (member : place ∈ extent.branches) :
    ownerAmong (extent :: extents) place = some extent :=
  List.find?_cons_of_pos (List.contains_iff_mem.mpr member)

theorem ownerAmong_cons_of_not_mem (extents : List BranchExtent)
    (foreign : place ∉ extent.branches) :
    ownerAmong (extent :: extents) place = ownerAmong extents place :=
  List.find?_cons_of_neg fun contains => foreign (List.contains_iff_mem.mp contains)

end

def branchesOpened? (blocks : List Block) : Block × Nat → Option BranchExtent :=
  fun (block, index) => (Construct.opened? blocks index block).bind Construct.branchExtent?

theorem branchesOpened?_of_ne (blocks : List Block) (index : Nat) {block : Block}
    (noOpener : block.opensConditional = false) (noSwitch : block.kind ≠ .switch) :
    branchesOpened? blocks (block, index) = none := by
  rw [branchesOpened?, Construct.opened?, if_neg (by simp [noOpener]), if_neg noSwitch]
  split <;> rfl

theorem owner?_ofBlocks_eq (blocks : List Block) (place : Nat) :
    (Plan.ofBlocks blocks none).owner? place =
      ownerAmong (blocks.zipIdx.filterMap (branchesOpened? blocks)) place := by
  have searched : ∀ constructs : List Construct,
      (constructs.findSome? fun construct =>
        construct.branchExtent?.filter fun extent => extent.branches.contains place) =
        ownerAmong (constructs.filterMap Construct.branchExtent?) place := by
    intro constructs
    induction constructs with
    | nil => rfl
    | cons construct rest induction =>
        rw [List.findSome?_cons, induction]
        cases opened : construct.branchExtent? with
        | none => rw [List.filterMap_cons_none opened, Option.filter_none]
        | some extent =>
            rw [List.filterMap_cons_some opened]
            by_cases member : place ∈ extent.branches
            · rw [ownerAmong_cons_of_mem _ member, Option.filter_some,
                if_pos (by simpa using member)]
            · rw [ownerAmong_cons_of_not_mem _ member, Option.filter_some,
                if_neg (by simpa using member)]
  rw [Plan.owner?, searched, Plan.ofBlocks, List.filterMap_filterMap]
  rfl

namespace Part

theorem heads_statements {α : Type} (part : Part α .statements) (index : Nat) :
    part.heads index = [] := by
  cases part <;> rfl

abbrev extents {role : Role} (index : Nat) (part : Part Block role) : List BranchExtent :=
  part.gathered (fun _ extent => [extent]) index

theorem finds_branchesOpened? (blocks : List Block) :
    Finds blocks (fun _ extent => [extent]) (branchesOpened? blocks) where
  conditional block place stop opens ends := by
    simp only [branchesOpened?, Construct.opened?, opens, if_true, Option.bind_some,
      Construct.branchExtent?, Option.toList_some]
  switch block place kind some := by
    simp only [branchesOpened?, Construct.opened?, Block.opensConditional, kind]
    rfl
  other block place noOpener noSwitch := branchesOpened?_of_ne blocks place noOpener noSwitch

section

variable {role : Role} {part : Part Block role} {index place : Nat}

theorem ownerAmong_extents_of_outside (outside : place < index ∨ index + part.size ≤ place) :
    ownerAmong (part.extents index) place = none := by
  refine List.find?_eq_none.mpr fun extent member contains => ?_
  have own : ∀ (_ : Block) (outer : BranchExtent), ∀ extent ∈ [outer], ∀ place ∈ extent.branches,
      place ∈ outer.branches ∨ outer.stop = some place := by
    intro _ outer extent isOuter place branch
    rw [List.mem_singleton.mp isOuter] at branch
    exact .inl branch
  have inside := between_gathered own extent member place (List.contains_iff_mem.mp contains)
  omega

structure HeaderOf (plan : Plan) (owner : BranchExtent) (index next stop : Nat) : Prop where
  isOwner : plan.owner? index = some owner
  next : owner.nextBoundary index = some next
  stop : owner.stop = some stop

def Owned (plan : Plan) {role : Role} (owner : BranchExtent) (index : Nat) :
    Part Block role → Prop
  | .done => True
  | .simple _ rest => rest.Owned plan owner (index + 1)
  | .conditional _ body arms _ rest =>
      let stop := index + 1 + body.size + arms.size
      body.Owned plan owner (index + 1) ∧
        arms.Owned plan ⟨index, arms.heads (index + 1 + body.size), some stop, true⟩
          (index + 1 + body.size) ∧
        rest.Owned plan owner (stop + 1)
  | .loop _ body _ rest =>
      body.Owned plan owner (index + 1) ∧ rest.Owned plan owner (index + 1 + body.size + 1)
  | .switch _ cases _ rest =>
      let stop := index + 1 + cases.size
      cases.Owned plan ⟨index, cases.heads (index + 1), some stop, true⟩ (index + 1) ∧
        rest.Owned plan owner (stop + 1)
  | .noArm => True
  | .elseIf _ body arms =>
      HeaderOf plan owner index (index + 1 + body.size) (index + 1 + body.size + arms.size) ∧
        body.Owned plan owner (index + 1) ∧ arms.Owned plan owner (index + 1 + body.size)
  | .otherwise _ body =>
      HeaderOf plan owner index (index + 1 + body.size) (index + 1 + body.size) ∧
        body.Owned plan owner (index + 1)
  | .lastCase _ body =>
      HeaderOf plan owner index (index + 1 + body.size) (index + 1 + body.size) ∧
        body.Owned plan owner (index + 1)
  | .case _ body cases =>
      HeaderOf plan owner index (index + 1 + body.size) (index + 1 + body.size + cases.size) ∧
        body.Owned plan owner (index + 1) ∧ cases.Owned plan owner (index + 1 + body.size)

def EndsWith {role : Role} (owner : BranchExtent) (index : Nat) (part : Part Block role) : Prop :=
  role ≠ .statements →
    owner.stop = some (index + part.size) ∧
      ∃ earlier, owner.branches = earlier ++ part.heads index ∧ ∀ branch ∈ earlier, branch < index

theorem endsWith_statements (owner : BranchExtent) (index : Nat) (part : Part Block .statements) :
    part.EndsWith owner index :=
  fun other => absurd rfl other

theorem heads_eq_cons_or_nil {α : Type} {role : Role} (part : Part α role)
    (branching : role ≠ .statements) (index : Nat) :
    (∃ later, part.heads index = index :: later) ∨ part.heads index = [] ∧ part.size = 0 := by
  cases part with
  | done | simple | conditional | loop | switch => exact absurd rfl branching
  | noArm => exact .inr ⟨rfl, rfl⟩
  | elseIf | otherwise | lastCase | case => exact .inl ⟨_, rfl⟩

theorem nextBoundary_of_endsWith {owner : BranchExtent} {part : Part Block role} {next : Nat}
    (ends : owner.stop = some (next + part.size)) {earlier : List Nat}
    (branches : owner.branches = earlier ++ part.heads next) (branching : role ≠ .statements)
    (before : ∀ branch ∈ earlier, branch ≤ index) (after : index < next) :
    owner.nextBoundary index = some next := by
  have none : earlier.find? (index < ·) = none := by
    refine List.find?_eq_none.mpr fun branch member => ?_
    simpa using before branch member
  rw [BranchExtent.nextBoundary, branches, List.find?_append, none, Option.none_or]
  rcases part.heads_eq_cons_or_nil branching next with ⟨later, heads⟩ | ⟨heads, empty⟩
  · simp [heads, after]
  · simp [heads, ends, empty]

theorem not_mem_heads_of_outside {α : Type} {role : Role} {part : Part α role} {index place : Nat}
    (outside : place < index ∨ index + part.size ≤ place) : place ∉ part.heads index := by
  intro member
  have inside := bounds_of_mem_heads member
  omega

theorem headerOf_more {plan : Plan} {owner : BranchExtent} {body : Part Block .statements}
    {later : Part Block role} (branching : role ≠ .statements)
    (ends : owner.stop = some (index + 1 + body.size + later.size)) {earlier : List Nat}
    (branches : owner.branches = earlier ++ index :: later.heads (index + 1 + body.size))
    (before : ∀ branch ∈ earlier, branch < index) (isOwner : plan.owner? index = some owner) :
    HeaderOf plan owner index (index + 1 + body.size) (index + 1 + body.size + later.size) ∧
      later.EndsWith owner (index + 1 + body.size) := by
  have branches : owner.branches = (earlier ++ [index]) ++ later.heads (index + 1 + body.size) := by
    rw [branches, List.append_assoc, List.singleton_append]
  have before : ∀ branch ∈ earlier ++ [index], branch ≤ index := by
    intro branch member
    rcases List.mem_append.mp member with inEarlier | last
    · exact Nat.le_of_lt (before branch inEarlier)
    · exact Nat.le_of_eq (List.mem_singleton.mp last)
  have next := nextBoundary_of_endsWith ends branches branching before (by omega)
  refine ⟨⟨isOwner, next, ends⟩, fun _ => ⟨ends, _, branches, ?_⟩⟩
  intro branch member
  have passed := before branch member
  omega

variable {plan : Plan} {owner : BranchExtent}

/-- The owner of a place in a part is found in the part alone, and the owner of the headers of the
part itself is a given construct. -/
structure FoundInside (plan : Plan) {role : Role} (owner : BranchExtent) (index : Nat)
    (part : Part Block role) : Prop where
  ends : part.EndsWith owner index
  headers : ∀ place ∈ part.heads index, plan.owner? place = some owner
  others : ∀ place, index ≤ place → place < index + part.size → place ∉ part.heads index →
    plan.owner? place = ownerAmong (part.extents index) place

theorem foundInside_statements {part : Part Block .statements}
    (found : ∀ place, index ≤ place → place < index + part.size →
      plan.owner? place = ownerAmong (part.extents index) place) :
    part.FoundInside plan owner index where
  ends := endsWith_statements _ _ _
  headers := by simp [heads_statements]
  others := fun place above below _ => found place above below

theorem FoundInside.owner?_eq {part : Part Block .statements}
    (inside : part.FoundInside plan owner index) (place : Nat) (above : index ≤ place)
    (below : place < index + part.size) :
    plan.owner? place = ownerAmong (part.extents index) place :=
  inside.others place above below (by simp [heads_statements])

theorem foundInside_of_construct {extent : BranchExtent}
    (ends : extent.stop = some (index + part.size)) (branches : extent.branches = part.heads index)
    (found : ∀ place, index ≤ place → place < index + part.size →
      plan.owner? place = ownerAmong ([extent] ++ part.extents index) place) :
    part.FoundInside plan extent index where
  ends := fun _ => ⟨ends, [], branches, by simp⟩
  headers := by
    intro place member
    have inside := bounds_of_mem_heads member
    rw [found place inside.1 inside.2, List.singleton_append,
      ownerAmong_cons_of_mem _ (branches ▸ member)]
  others := by
    intro place above below foreign
    rw [found place above below, List.singleton_append,
      ownerAmong_cons_of_not_mem _ (branches ▸ foreign)]

/-! ### One construct at a time -/

section

variable {opener closer line : Block} {body rest : Part Block .statements}
variable {arms : Part Block .arms} {cases : Part Block .cases}

theorem FoundInside.simple (inside : (simple line rest).FoundInside plan owner index) :
    rest.FoundInside plan owner (index + 1) :=
  foundInside_statements fun place above below =>
    inside.owner?_eq place (by omega) (by rw [size]; omega)

theorem FoundInside.conditional
    (inside : (conditional opener body arms closer rest).FoundInside plan owner index) :
    body.FoundInside plan owner (index + 1) ∧
      arms.FoundInside plan ⟨index, arms.heads (index + 1 + body.size),
        some (index + 1 + body.size + arms.size), true⟩ (index + 1 + body.size) ∧
      rest.FoundInside plan owner (index + 1 + body.size + arms.size + 1) := by
  have found := inside.owner?_eq
  simp only [size, extents, gathered] at found
  refine ⟨foundInside_statements fun place above below => ?_,
    foundInside_of_construct rfl rfl fun place above below => ?_,
    foundInside_statements fun place above below => ?_⟩
  · rw [found place (by omega) (by omega), List.singleton_append,
      ownerAmong_cons_of_not_mem _ (not_mem_heads_of_outside (by omega))]
    simp (disch := omega) only [ownerAmong_append, ownerAmong_extents_of_outside, Option.or_none]
  · rw [found place (by omega) (by omega)]
    simp (disch := omega) only [ownerAmong_append, ownerAmong_extents_of_outside, Option.or_none,
      Option.none_or]
  · rw [found place (by omega) (by omega), List.singleton_append,
      ownerAmong_cons_of_not_mem _ (not_mem_heads_of_outside (by omega))]
    simp (disch := omega) only [ownerAmong_append, ownerAmong_extents_of_outside, Option.none_or]

theorem FoundInside.loop (inside : (loop opener body closer rest).FoundInside plan owner index) :
    body.FoundInside plan owner (index + 1) ∧
      rest.FoundInside plan owner (index + 1 + body.size + 1) := by
  have found := inside.owner?_eq
  simp only [size, extents, gathered] at found
  refine ⟨foundInside_statements fun place above below => ?_,
    foundInside_statements fun place above below => ?_⟩
  · rw [found place (by omega) (by omega)]
    simp (disch := omega) only [ownerAmong_append, ownerAmong_extents_of_outside, Option.or_none]
  · rw [found place (by omega) (by omega)]
    simp (disch := omega) only [ownerAmong_append, ownerAmong_extents_of_outside, Option.none_or]

theorem FoundInside.switch
    (inside : (switch opener cases closer rest).FoundInside plan owner index) :
    cases.FoundInside plan ⟨index, cases.heads (index + 1), some (index + 1 + cases.size), true⟩
        (index + 1) ∧
      rest.FoundInside plan owner (index + 1 + cases.size + 1) := by
  have found := inside.owner?_eq
  simp only [size, extents, gathered] at found
  refine ⟨foundInside_of_construct rfl rfl fun place above below => ?_,
    foundInside_statements fun place above below => ?_⟩
  · rw [found place (by omega) (by omega)]
    simp (disch := omega) only [ownerAmong_append, ownerAmong_extents_of_outside, Option.or_none]
  · rw [found place (by omega) (by omega), List.singleton_append,
      ownerAmong_cons_of_not_mem _ (not_mem_heads_of_outside (by omega))]
    simp (disch := omega) only [ownerAmong_append, ownerAmong_extents_of_outside, Option.none_or]

theorem FoundInside.header {other : Role} (later : Part Block other)
    (inside : part.FoundInside plan owner index) (branching : role ≠ .statements)
    (laterBranching : other ≠ .statements) (isSize : part.size = 1 + body.size + later.size)
    (isHeads : part.heads index = index :: later.heads (index + 1 + body.size))
    (isExtents : part.extents index =
      body.extents (index + 1) ++ later.extents (index + 1 + body.size)) :
    HeaderOf plan owner index (index + 1 + body.size) (index + 1 + body.size + later.size) ∧
      body.FoundInside plan owner (index + 1) ∧
      later.FoundInside plan owner (index + 1 + body.size) := by
  rcases inside.ends branching with ⟨stop, earlier, branches, before⟩
  rw [isSize, ← Nat.add_assoc, ← Nat.add_assoc] at stop
  rw [isHeads] at branches
  have headers : ∀ place ∈ index :: later.heads (index + 1 + body.size),
      plan.owner? place = some owner := isHeads ▸ inside.headers
  have others : ∀ place, index < place → place < index + 1 + body.size + later.size →
      place ∉ later.heads (index + 1 + body.size) → plan.owner? place =
        ownerAmong (body.extents (index + 1) ++ later.extents (index + 1 + body.size)) place := by
    intro place after below foreign
    rw [← isExtents]
    refine inside.others place (by omega) (by omega) ?_
    rw [isHeads, List.mem_cons, not_or]
    exact ⟨by omega, foreign⟩
  rcases headerOf_more laterBranching stop branches before (headers index List.mem_cons_self) with
    ⟨header, laterEnds⟩
  refine ⟨header, foundInside_statements fun place above below => ?_, laterEnds,
    fun place member => headers place (List.mem_cons_of_mem _ member),
    fun place above below foreign => ?_⟩
  · rw [others place (by omega) (by omega) (not_mem_heads_of_outside (by omega))]
    simp (disch := omega) only [ownerAmong_append, ownerAmong_extents_of_outside, Option.or_none]
  · rw [others place (by omega) (by omega) foreign]
    simp (disch := omega) only [ownerAmong_append, ownerAmong_extents_of_outside, Option.none_or]

end

theorem FoundInside.owned (inside : part.FoundInside plan owner index) :
    part.Owned plan owner index := by
  induction part generalizing index owner with
  | done => trivial
  | simple line rest restInd => exact restInd inside.simple
  | conditional opener body arms closer rest bodyInd armsInd restInd =>
      rcases inside.conditional with ⟨inBody, inArms, inRest⟩
      exact ⟨bodyInd inBody, armsInd inArms, restInd inRest⟩
  | loop opener body closer rest bodyInd restInd =>
      rcases inside.loop with ⟨inBody, inRest⟩
      exact ⟨bodyInd inBody, restInd inRest⟩
  | switch opener cases closer rest casesInd restInd =>
      rcases inside.switch with ⟨inCases, inRest⟩
      exact ⟨casesInd inCases, restInd inRest⟩
  | noArm => trivial
  | elseIf header body arms bodyInd armsInd =>
      rcases inside.header arms (by decide) (by decide) rfl rfl rfl with ⟨header, inBody, inArms⟩
      exact ⟨header, bodyInd inBody, armsInd inArms⟩
  | otherwise header body bodyInd =>
      -- nothing stands behind the body of the last header, as if no arm were left
      rcases inside.header noArm (by decide) (by decide) rfl rfl
        (List.append_nil _).symm with ⟨header, inBody, _⟩
      exact ⟨header, bodyInd inBody⟩
  | lastCase header body bodyInd =>
      rcases inside.header noArm (by decide) (by decide) rfl rfl
        (List.append_nil _).symm with ⟨header, inBody, _⟩
      exact ⟨header, bodyInd inBody⟩
  | case header body cases bodyInd casesInd =>
      rcases inside.header cases (by decide) (by decide) rfl rfl rfl with ⟨header, inBody, inCases⟩
      exact ⟨header, bodyInd inBody, casesInd inCases⟩

end

end Part

/-- In a structured program between a start and an end, everything belongs where it is written. -/
theorem owned_of_shaped {start stop : Block} {body : Part Block .statements} {level : Int}
    (starts : start.kind = .start) (stops : stop.kind = .stop) (shaped : body.Shaped level)
    (owner : BranchExtent) :
    body.Owned (Plan.ofBlocks (start :: body.lines ++ [stop]) none) owner 1 := by
  have all := (Part.finds_branchesOpened? _).filterMap_between starts stops shaped
  refine (Part.foundInside_statements fun place _ _ => ?_).owned
  rw [owner?_ofBlocks_eq, all]

end Flowchart.Structured
