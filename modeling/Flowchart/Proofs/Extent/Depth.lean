import Flowchart.Proofs.Extent.Body
import Flowchart.Proofs.Extent.Branches

/-!
The search of a conditional by depth and position.

The search for an end marker counts the conditionals that open and close on its way. The count adds
up along a row of blocks: behind a conditional that opens on the way it stays above the count before
it for as long as that conditional is open. The marker is the first end marker at depth zero, and it
counts only if no block before it ends the search. Without a marker the levels alone decide.
-/

namespace Flowchart

/-! ## Kinds of blocks -/

namespace Block

structure Within (base : Int) (block : Block) : Prop where
  running : block.kind ≠ .stop
  level_le : base ≤ block.level

section

variable {block : Block}

theorem kind_of_opensConditional (opens : block.opensConditional = true) :
    block.kind = .condition := by
  simp only [opensConditional, Bool.and_eq_true, beq_iff_eq] at opens
  exact opens.1

theorem not_opensConditional_of_ne (other : block.kind ≠ .condition) :
    block.opensConditional = false := by
  simp [opensConditional, other]

theorem kind_of_isElse (isElse : block.isElse = true) : block.kind = .condition := by
  simp only [Block.isElse, Bool.and_eq_true, beq_iff_eq] at isElse
  exact isElse.1

theorem not_opensConditional_of_isElse (isElse : block.isElse = true) :
    block.opensConditional = false := by
  simp only [Block.isElse, Bool.and_eq_true] at isElse
  simp [opensConditional, isElse.2]

theorem not_isBranch_of_ne (noElseIf : block.kind ≠ .elseIf) (written : block.kind ≠ .implicitElse)
    (noElse : block.kind ≠ .condition) : block.isBranch = false := by
  simp [isBranch, isElse, noElseIf, written, noElse]

theorem not_isBranch_of_opensConditional (opens : block.opensConditional = true) :
    block.isBranch = false := by
  cases isElse : block.isElse with
  | true =>
      rw [not_opensConditional_of_isElse isElse] at opens
      cases opens
  | false => simp [isBranch, isElse, kind_of_opensConditional opens]

theorem kind_of_isIfEnd (ends : block.isIfEnd = true) : block.kind = .process := by
  simp only [isIfEnd, Bool.and_eq_true, beq_iff_eq] at ends
  exact ends.1

theorem not_isIfEnd_of_ne (other : block.kind ≠ .process) : block.isIfEnd = false := by
  simp [isIfEnd, other]

theorem not_isIfEnd_of_opensConditional (opens : block.opensConditional = true) :
    block.isIfEnd = false :=
  not_isIfEnd_of_ne (by simp [kind_of_opensConditional opens])

theorem not_isBranch_of_isIfEnd (ends : block.isIfEnd = true) : block.isBranch = false := by
  have isProcess := kind_of_isIfEnd ends
  exact not_isBranch_of_ne (by simp [isProcess]) (by simp [isProcess]) (by simp [isProcess])

end

end Block

namespace Extent

/-! ## Depth -/

/-- How many conditionals are open behind a block if `depth` are open before it. Nothing is left to
count behind an end marker at depth zero. -/
def depthBehind? (depth : Nat) (block : Block) : Option Nat :=
  if block.opensConditional then some (depth + 1)
  else if block.isIfEnd then
    match depth with
    | 0 => none
    | depth + 1 => some depth
  else some depth

def depthThrough? (depth : Nat) (blocks : List Block) : Option Nat :=
  blocks.foldlM depthBehind? depth

section

variable {depth next more : Nat} {block : Block} {blocks : List Block}

theorem depthBehind?_of_opens (opens : block.opensConditional = true) :
    depthBehind? depth block = some (depth + 1) := by
  simp [depthBehind?, opens]

theorem depthBehind?_eq_none_iff :
    depthBehind? depth block = none ↔ depth = 0 ∧ block.isIfEnd = true := by
  cases opens : block.opensConditional with
  | true => simp [depthBehind?, opens, Block.not_isIfEnd_of_opensConditional opens]
  | false =>
      cases ends : block.isIfEnd with
      | true => cases depth <;> simp [depthBehind?, opens, ends]
      | false => simp [depthBehind?, opens, ends]

theorem depthBehind?_add (behind : depthBehind? depth block = some next) :
    depthBehind? (more + depth) block = some (more + next) := by
  unfold depthBehind? at behind ⊢
  cases opens : block.opensConditional with
  | true =>
      simp only [opens, if_true, Option.some.injEq] at behind ⊢
      omega
  | false =>
      cases ends : block.isIfEnd with
      | true =>
          cases depth with
          | zero => simp [opens, ends] at behind
          | succ depth =>
              simp only [opens, ends, Bool.false_eq_true, if_false, if_true,
                Option.some.injEq] at behind
              subst next
              rfl
      | false =>
          simp only [opens, ends, Bool.false_eq_true, if_false, Option.some.injEq] at behind ⊢
          omega

@[simp] theorem depthThrough?_nil : depthThrough? depth [] = some depth := rfl

theorem depthThrough?_cons :
    depthThrough? depth (block :: blocks) =
      (depthBehind? depth block).bind fun next => depthThrough? next blocks :=
  List.foldlM_cons

theorem depthThrough?_append (later : List Block) :
    depthThrough? depth (blocks ++ later) =
      (depthThrough? depth blocks).bind fun next => depthThrough? next later :=
  List.foldlM_append

theorem depthThrough?_add (through : depthThrough? depth blocks = some next) :
    depthThrough? (more + depth) blocks = some (more + next) := by
  induction blocks generalizing depth with
  | nil =>
      cases through
      rfl
  | cons block blocks induction =>
      rw [depthThrough?_cons, Option.bind_eq_some_iff] at through
      rcases through with ⟨behind, first, rest⟩
      rw [depthThrough?_cons, depthBehind?_add first]
      exact induction rest

end

/-! ## The search for an end marker -/

section

variable {base : Int} {block : Block}

theorem not_ended_of_within (within : block.Within base) :
    ¬(block.kind = .stop ∨ block.level < base) := by
  intro ended
  cases ended with
  | inl stops => exact within.running stops
  | inr above => exact Int.not_lt.mpr within.level_le above

theorem markedConditional_of_not_within (depth index : Nat) (rest : List Block)
    (ended : ¬block.Within base) : markedConditional base depth index (block :: rest) = none := by
  have ended : block.kind = .stop ∨ block.level < base := by
    by_cases stops : block.kind = .stop
    · exact .inl stops
    · exact .inr (Int.not_le.mp fun level => ended ⟨stops, level⟩)
  cases depth <;> rw [markedConditional, if_pos ended]

theorem markedConditional_cons (depth index : Nat) (rest : List Block)
    (within : block.Within base) :
    markedConditional base depth index (block :: rest) =
      match depthBehind? depth block with
      | none => some ([], index)
      | some next =>
          (markedConditional base next (index + 1) rest).map fun (branches, marker) =>
            (if depth = 0 ∧ block.isBranch then index :: branches else branches, marker) := by
  have goesOn := not_ended_of_within within
  cases opens : block.opensConditional with
  | true =>
      have noBranch := Block.not_isBranch_of_opensConditional opens
      cases depth <;>
        simp [markedConditional, depthBehind?, if_neg goesOn, opens, noBranch]
  | false =>
      cases ends : block.isIfEnd with
      | true =>
          have noBranch := Block.not_isBranch_of_isIfEnd ends
          cases depth <;>
            simp [markedConditional, depthBehind?, if_neg goesOn, opens, ends, noBranch]
      | false =>
          cases depth <;>
            simp [markedConditional, depthBehind?, if_neg goesOn, opens, ends]

end

structure MarkedAt (base : Int) (depth : Nat) (rest : List Block) (offset : Nat) : Prop where
  marks : ∃ closer, rest[offset]? = some closer ∧ closer.isIfEnd = true
  depth_eq : depthThrough? depth (rest.take offset) = some 0
  within : ∀ earlier ≤ offset, ∃ block, rest[earlier]? = some block ∧ block.Within base

section

variable {base : Int} {depth next offset : Nat} {block : Block} {rest : List Block}

theorem markedAt_zero (within : block.Within base) (ends : block.isIfEnd = true) :
    MarkedAt base 0 (block :: rest) 0 where
  marks := ⟨block, rfl, ends⟩
  depth_eq := rfl
  within earlier bound := by
    cases Nat.le_zero.mp bound
    exact ⟨block, rfl, within⟩

theorem MarkedAt.cons (marked : MarkedAt base next rest offset) (within : block.Within base)
    (behind : depthBehind? depth block = some next) :
    MarkedAt base depth (block :: rest) (offset + 1) where
  marks := marked.marks
  depth_eq := by
    rw [List.take_succ_cons, depthThrough?_cons, behind]
    exact marked.depth_eq
  within earlier bound := by
    cases earlier with
    | zero => exact ⟨block, rfl, within⟩
    | succ earlier => exact marked.within earlier (Nat.le_of_succ_le_succ bound)

theorem MarkedAt.head_within (marked : MarkedAt base depth (block :: rest) offset) :
    block.Within base := by
  rcases marked.within 0 (Nat.zero_le _) with ⟨head, found, within⟩
  cases found
  exact within

theorem MarkedAt.cases_cons (marked : MarkedAt base depth (block :: rest) offset) :
    depth = 0 ∧ block.isIfEnd = true ∧ offset = 0 ∨
      ∃ next later, depthBehind? depth block = some next ∧ offset = later + 1 ∧
        MarkedAt base next rest later := by
  cases offset with
  | zero =>
      rcases marked.marks with ⟨closer, found, ends⟩
      cases found
      have depth_eq := marked.depth_eq
      cases depth_eq
      exact .inl ⟨rfl, ends, rfl⟩
  | succ later =>
      have depth_eq := marked.depth_eq
      rw [List.take_succ_cons, depthThrough?_cons, Option.bind_eq_some_iff] at depth_eq
      rcases depth_eq with ⟨next, behind, through⟩
      refine .inr ⟨next, later, behind, rfl, marked.marks, through, ?_⟩
      intro earlier bound
      exact marked.within (earlier + 1) (Nat.succ_le_succ bound)

end

theorem markedAt_of_markedConditional {base : Int} (rest : List Block) :
    ∀ {depth index marker : Nat} {branches : List Nat},
      markedConditional base depth index rest = some (branches, marker) →
        ∃ offset, marker = index + offset ∧ MarkedAt base depth rest offset ∧
          ∀ branch ∈ branches, ∃ earlier < offset, branch = index + earlier ∧
            depthThrough? depth (rest.take earlier) = some 0 := by
  induction rest with
  | nil =>
      intro depth index marker branches found
      simp [markedConditional] at found
  | cons block rest induction =>
      intro depth index marker branches found
      by_cases within : block.Within base
      · rw [markedConditional_cons depth index rest within] at found
        cases behind : depthBehind? depth block with
        | none =>
            rcases depthBehind?_eq_none_iff.mp behind with ⟨rfl, ends⟩
            simp only [behind, Option.some.injEq, Prod.mk.injEq] at found
            rcases found with ⟨rfl, rfl⟩
            exact ⟨0, rfl, markedAt_zero within ends, by simp⟩
        | some next =>
            simp only [behind] at found
            rcases Option.map_eq_some_iff.mp found with ⟨⟨later, stop⟩, foundLater, equal⟩
            simp only [Prod.mk.injEq] at equal
            rcases equal with ⟨rfl, rfl⟩
            rcases induction foundLater with ⟨offset, rfl, marked, branchesLater⟩
            refine ⟨offset + 1, by omega, marked.cons within behind, ?_⟩
            intro branch member
            have shifted : branch ∈ later → ∃ earlier < offset + 1, branch = index + earlier ∧
                depthThrough? depth ((block :: rest).take earlier) = some 0 := by
              intro inLater
              rcases branchesLater branch inLater with ⟨earlier, before, rfl, through⟩
              refine ⟨earlier + 1, by omega, by omega, ?_⟩
              rw [List.take_succ_cons, depthThrough?_cons, behind]
              exact through
            split at member
            · rename_i atZero
              cases List.mem_cons.mp member with
              | inl isIndex =>
                  refine ⟨0, Nat.succ_pos _, isIndex, ?_⟩
                  rw [atZero.1]
                  rfl
              | inr inLater => exact shifted inLater
            · exact shifted member
      · rw [markedConditional_of_not_within depth index rest within] at found
        cases found

theorem MarkedAt.exists_branches {base : Int} {rest : List Block} :
    ∀ {depth offset : Nat} (index : Nat), MarkedAt base depth rest offset →
      ∃ branches, markedConditional base depth index rest = some (branches, index + offset) := by
  induction rest with
  | nil =>
      intro depth offset index marked
      rcases marked.marks with ⟨closer, found, _⟩
      cases found
  | cons block rest induction =>
      intro depth offset index marked
      rw [markedConditional_cons depth index rest marked.head_within]
      cases marked.cases_cons with
      | inl here =>
          rcases here with ⟨rfl, ends, rfl⟩
          rw [depthBehind?_eq_none_iff.mpr ⟨rfl, ends⟩]
          exact ⟨[], rfl⟩
      | inr behind =>
          rcases behind with ⟨next, later, behind, rfl, markedLater⟩
          rcases induction (index + 1) markedLater with ⟨branches, found⟩
          rw [behind]
          simp only [found, Option.map_some]
          exact ⟨_, by rw [Nat.add_assoc, Nat.add_comm 1 later]⟩

/-! ## The search by levels -/

structure BelowOrBranch (base : Int) (block : Block) : Prop where
  within : block.Within base
  branch : block.level = base → block.isBranch = true

section

variable {base : Int} {block : Block} (index : Nat) (rest : List Block)

theorem indentedConditional_of_not_below (ends : ¬BelowOrBranch base block) :
    indentedConditional base index (block :: rest) = ([], some index) := by
  rw [indentedConditional]
  split
  · rfl
  · rename_i goes
    have within : block.Within base := ⟨fun stops => goes (.inr stops), by omega⟩
    split
    · rename_i level
      rw [if_neg fun branch => ends ⟨within, fun _ => branch⟩]
    · rename_i deeper
      exact absurd ⟨within, fun level => absurd level deeper⟩ ends

theorem indentedConditional_of_below (passes : BelowOrBranch base block) :
    indentedConditional base index (block :: rest) =
      (if block.level = base then index :: (indentedConditional base (index + 1) rest).1
        else (indentedConditional base (index + 1) rest).1,
        (indentedConditional base (index + 1) rest).2) := by
  have goesOn : ¬(block.level < base ∨ block.kind = .stop) := by
    intro ended
    exact not_ended_of_within passes.within ended.symm
  rw [indentedConditional, if_neg goesOn]
  by_cases level : block.level = base
  · rw [if_pos level, if_pos (passes.branch level), if_pos level]
  · rw [if_neg level, if_neg level]

end

structure IndentedTo (base : Int) (rest : List Block) (offset : Nat) : Prop where
  bound : offset ≤ rest.length
  inside : ∀ earlier < offset, ∃ block, rest[earlier]? = some block ∧ BelowOrBranch base block
  ended : ∀ block, rest[offset]? = some block → ¬BelowOrBranch base block

theorem indentedTo_of_indentedConditional (base : Int) (rest : List Block) :
    ∀ index, ∃ offset,
      (indentedConditional base index rest).2 =
        (if offset < rest.length then some (index + offset) else none) ∧
      IndentedTo base rest offset ∧
      ∀ branch ∈ (indentedConditional base index rest).1, ∃ earlier < offset, ∃ block,
        branch = index + earlier ∧ rest[earlier]? = some block ∧ block.level = base := by
  induction rest with
  | nil =>
      intro index
      exact ⟨0, rfl, ⟨Nat.le_refl _, by simp, by simp⟩, by simp [indentedConditional]⟩
  | cons block rest induction =>
      intro index
      by_cases passes : BelowOrBranch base block
      · rcases induction (index + 1) with ⟨offset, stop, indented, branches⟩
        rw [indentedConditional_of_below index rest passes]
        refine ⟨offset + 1, ?_, ⟨Nat.succ_le_succ indented.bound, ?_, indented.ended⟩, ?_⟩
        · simp only [stop, List.length_cons, Nat.succ_lt_succ_iff]
          rw [Nat.add_assoc, Nat.add_comm 1 offset]
        · intro earlier before
          cases earlier with
          | zero => exact ⟨block, rfl, passes⟩
          | succ earlier => exact indented.inside earlier (Nat.lt_of_succ_lt_succ before)
        · have later : ∀ branch ∈ (indentedConditional base (index + 1) rest).1,
              ∃ earlier < offset + 1, ∃ head, branch = index + earlier ∧
                (block :: rest)[earlier]? = some head ∧ head.level = base := by
            intro branch member
            rcases branches branch member with ⟨earlier, before, head, rfl, found, level⟩
            exact ⟨earlier + 1, by omega, head, by omega, found, level⟩
          intro branch member
          simp only at member
          split at member
          · rename_i level
            cases List.mem_cons.mp member with
            | inl isIndex => exact ⟨0, Nat.succ_pos _, block, isIndex, rfl, level⟩
            | inr inLater => exact later branch inLater
          · exact later branch member
      · rw [indentedConditional_of_not_below index rest passes]
        refine ⟨0, by simp, ⟨Nat.zero_le _, by simp, ?_⟩, by simp⟩
        intro head found
        cases found
        exact passes

end Extent

end Flowchart
