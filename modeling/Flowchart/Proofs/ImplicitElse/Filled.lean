import Flowchart.ImplicitElse
import Flowchart.Proofs.Extent.Nested

/-!
Rows of blocks into which missing branches were put.

The branches that belong before a position form a group in front of its block, the deepest first.
A block moves back by the number of branches before it. A search passes a group of deeper branches
without ending, so that it finds the blocks of the row at their new places.
-/

namespace Flowchart.ImplicitElse

section

variable (missing : List (Nat × Block))

def fill (index : Nat) : List Block → List Block
  | [] => before missing index
  | block :: rest => before missing index ++ block :: fill (index + 1) rest

def front (index : Nat) : Nat := index + missing.countP fun gap => gap.1 < index

def moved (index : Nat) : Nat := index + missing.countP fun gap => gap.1 ≤ index

end

theorem completeConditionals_eq_fill (blocks : List Block) :
    completeConditionals blocks = fill (missing blocks) 0 blocks := by
  have filled : ∀ (gaps : List (Nat × Block)) (index : Nat) (rest : List Block),
      (rest.zipIdx index).flatMap (fun entry => before gaps entry.2 ++ [entry.1]) ++
        before gaps (index + rest.length) = fill gaps index rest := by
    intro gaps index rest
    induction rest generalizing index with
    | nil => rfl
    | cons block rest induction =>
        have later := induction (index + 1)
        rw [Nat.add_assoc, Nat.add_comm 1] at later
        rw [fill, ← later, List.zipIdx_cons, List.flatMap_cons, List.append_assoc,
          List.append_assoc, List.length_cons]
        rfl
  have whole := filled (missing blocks) 0 blocks
  rw [Nat.zero_add] at whole
  exact whole

/-! ## Groups -/

section

variable {missing : List (Nat × Block)} {index : Nat} {block : Block}

theorem mem_before : block ∈ before missing index ↔ (index, block) ∈ missing := by
  rw [before, List.mem_mergeSort, List.mem_map]
  constructor
  · rintro ⟨⟨position, found⟩, member, rfl⟩
    rw [List.mem_filter, decide_eq_true_eq] at member
    rcases member with ⟨member, rfl⟩
    exact member
  · intro member
    exact ⟨(index, block), List.mem_filter.mpr ⟨member, by simp⟩, rfl⟩

theorem before_sorted (missing : List (Nat × Block)) (index : Nat) :
    (before missing index).Pairwise fun first second => second.level ≤ first.level := by
  have sorted := @List.pairwise_mergeSort Block
    (fun left right => decide (right.level ≤ left.level))
    (fun first second third => by simp only [decide_eq_true_eq]; omega)
    (fun first second => by simp only [Bool.or_eq_true, decide_eq_true_eq]; omega)
    ((missing.filter fun gap => gap.1 = index).map (·.2))
  exact sorted.imp fun level => of_decide_eq_true level

theorem length_before (missing : List (Nat × Block)) (index : Nat) :
    (before missing index).length = missing.countP fun gap => gap.1 = index := by
  rw [before, List.length_mergeSort, List.length_map, List.countP_eq_length_filter]

theorem front_zero (missing : List (Nat × Block)) : front missing 0 = 0 := by
  simp [front]

theorem front_add_length (missing : List (Nat × Block)) (index : Nat) :
    front missing index + (before missing index).length = moved missing index := by
  rw [length_before, front, moved]
  induction missing with
  | nil => rfl
  | cons gap gaps induction =>
      simp only [List.countP_cons, decide_eq_true_eq]
      split <;> split <;> split <;> omega

theorem front_succ (missing : List (Nat × Block)) (index : Nat) :
    front missing (index + 1) = moved missing index + 1 := by
  simp only [front, moved, Nat.lt_succ_iff]
  omega

theorem moved_lt_moved {first second : Nat} (order : first < second) :
    moved missing first < moved missing second := by
  have more : missing.countP (fun gap => gap.1 ≤ first) ≤
      missing.countP fun gap => gap.1 ≤ second := by
    apply List.countP_mono_left
    intro gap _ early
    simp only [decide_eq_true_eq] at early ⊢
    omega
  rw [moved, moved]
  omega

/-! ## Places in a filled row -/

theorem exists_fill_eq (missing : List (Nat × Block)) (rest : List Block) :
    ∀ (index count : Nat), count ≤ rest.length →
      ∃ earlier, fill missing index rest =
          earlier ++ fill missing (index + count) (rest.drop count) ∧
        front missing index + earlier.length = front missing (index + count) := by
  induction rest with
  | nil =>
      intro index count bound
      cases Nat.le_zero.mp bound
      exact ⟨[], rfl, rfl⟩
  | cons block rest induction =>
      intro index count bound
      cases count with
      | zero => exact ⟨[], rfl, rfl⟩
      | succ count =>
          rcases induction (index + 1) count (Nat.le_of_succ_le_succ bound) with
            ⟨earlier, filled, length⟩
          rw [Nat.add_assoc, Nat.add_comm 1] at filled length
          refine ⟨before missing index ++ block :: earlier, ?_, ?_⟩
          · rw [fill, filled, List.drop_succ_cons]
            simp
          · have group := front_add_length missing index
            have next := front_succ missing index
            rw [List.length_append, List.length_cons]
            omega

theorem exists_fill_cons {blocks : List Block} (missing : List (Nat × Block))
    (found : blocks[index]? = some block) :
    ∃ earlier, fill missing 0 blocks =
        earlier ++ block :: fill missing (index + 1) (blocks.drop (index + 1)) ∧
      earlier.length = moved missing index := by
  have bound := (List.getElem?_eq_some_iff.mp found).1
  rcases exists_fill_eq missing blocks 0 index (Nat.le_of_lt bound) with ⟨earlier, filled, length⟩
  rw [front_zero, Nat.zero_add, Nat.zero_add] at length
  have group := front_add_length missing index
  refine ⟨earlier ++ before missing index, ?_, ?_⟩
  · rw [filled, Nat.zero_add, drop_eq_cons found, fill, List.append_assoc]
  · rw [List.length_append, length, group]

theorem getElem?_moved {blocks : List Block} (missing : List (Nat × Block))
    (found : blocks[index]? = some block) :
    (fill missing 0 blocks)[moved missing index]? = some block := by
  rcases exists_fill_cons missing found with ⟨earlier, filled, length⟩
  rw [filled, ← length, List.getElem?_append_right (Nat.le_refl _), Nat.sub_self]
  rfl

theorem moved_or_missing {missing : List (Nat × Block)} (rest : List Block) :
    ∀ {index place : Nat}, (fill missing index rest)[place]? = some block →
      (∃ count, rest[count]? = some block ∧
        front missing index + place = moved missing (index + count)) ∨
      ∃ count offset, (before missing (index + count))[offset]? = some block ∧
        front missing index + place = front missing (index + count) + offset := by
  induction rest with
  | nil =>
      intro index place found
      exact .inr ⟨0, place, found, rfl⟩
  | cons head rest induction =>
      intro index place found
      have group := front_add_length missing index
      have next := front_succ missing index
      rw [fill] at found
      by_cases inGroup : place < (before missing index).length
      · rw [List.getElem?_append_left inGroup] at found
        exact .inr ⟨0, place, found, rfl⟩
      · rw [List.getElem?_append_right (Nat.le_of_not_lt inGroup)] at found
        cases rest_place : place - (before missing index).length with
        | zero =>
            rw [rest_place] at found
            refine .inl ⟨0, found, ?_⟩
            rw [Nat.add_zero]
            omega
        | succ later =>
            rw [rest_place, List.getElem?_cons_succ] at found
            have shifted : front missing index + place = front missing (index + 1) + later := by
              omega
            cases induction found with
            | inl fromRow =>
                rcases fromRow with ⟨count, foundCount, here⟩
                refine .inl ⟨count + 1, foundCount, ?_⟩
                rw [shifted, here, Nat.add_assoc, Nat.add_comm 1]
            | inr fromGroup =>
                rcases fromGroup with ⟨count, offset, foundOffset, here⟩
                rw [Nat.add_assoc, Nat.add_comm 1] at foundOffset here
                exact .inr ⟨count + 1, offset, foundOffset, by rw [shifted, here]⟩

end

/-! ## Searches in a filled row -/

def AllImplicit (missing : List (Nat × Block)) : Prop :=
  ∀ gap ∈ missing, gap.2.kind = .implicitElse

section

variable {base : Int} {block : Block}

theorem depthBehind?_implicitElse (implicit : block.kind = .implicitElse) (depth : Nat) :
    Extent.depthBehind? depth block = some depth := by
  simp [Extent.depthBehind?, Block.opensConditional, Block.isIfEnd, implicit]

theorem isBranch_implicitElse (implicit : block.kind = .implicitElse) : block.isBranch = true := by
  simp [Block.isBranch, implicit]

theorem within_implicitElse (implicit : block.kind = .implicitElse) (level : base ≤ block.level) :
    block.Within base :=
  ⟨by simp [implicit], level⟩

theorem markedConditional_group (depth : Nat) (rest : List Block) (group : List Block) :
    ∀ index, (∀ block ∈ group, block.kind = .implicitElse ∧ base ≤ block.level) →
      Extent.markedConditional base depth index (group ++ rest) =
        (Extent.markedConditional base depth (index + group.length) rest).map
          fun (branches, marker) =>
            ((if depth = 0 then List.range' index group.length else []) ++ branches, marker) := by
  induction group with
  | nil =>
      intro index _
      simp
  | cons block group induction =>
      intro index members
      rcases members block List.mem_cons_self with ⟨implicit, level⟩
      have later := induction (index + 1) fun other member =>
        members other (List.mem_cons_of_mem _ member)
      rw [List.cons_append,
        Extent.markedConditional_cons _ _ _ (within_implicitElse implicit level),
        depthBehind?_implicitElse implicit, isBranch_implicitElse implicit]
      simp only [later, Option.map_map, List.length_cons, Nat.add_assoc, Nat.add_comm 1]
      congr 1
      funext result
      rcases result with ⟨branches, marker⟩
      cases depth <;> simp [List.range'_succ]

theorem markedConditional_group_none {depth : Nat} {rest group : List Block}
    (implicit : ∀ block ∈ group, block.kind = .implicitElse)
    (unmarked : ∀ index, Extent.markedConditional base depth index rest = none) :
    ∀ index, Extent.markedConditional base depth index (group ++ rest) = none := by
  induction group with
  | nil => exact unmarked
  | cons block group induction =>
      intro index
      have later := induction (fun other member => implicit other (List.mem_cons_of_mem _ member))
        (index + 1)
      rw [List.cons_append]
      by_cases within : block.Within base
      · rw [Extent.markedConditional_cons _ _ _ within,
          depthBehind?_implicitElse (implicit block List.mem_cons_self)]
        simp only [later, Option.map_none]
      · exact Extent.markedConditional_of_not_within depth index _ within

theorem markedConditional_fill_none {missing : List (Nat × Block)} (implicit : AllImplicit missing)
    (rest : List Block) :
    ∀ {depth index : Nat}, Extent.markedConditional base depth index rest = none →
      ∀ position,
        Extent.markedConditional base depth position (fill missing index rest) = none := by
  have groups : ∀ index, ∀ block ∈ before missing index, block.kind = .implicitElse := by
    intro index block member
    exact implicit _ (mem_before.mp member)
  induction rest with
  | nil =>
      intro depth index _
      rw [fill, ← List.append_nil (before missing index)]
      apply markedConditional_group_none (groups index)
      intro position
      simp [Extent.markedConditional]
  | cons block rest induction =>
      intro depth index unmarked
      apply markedConditional_group_none (groups index)
      intro position
      by_cases within : block.Within base
      · rw [Extent.markedConditional_cons _ _ _ within] at unmarked ⊢
        cases behind : Extent.depthBehind? depth block with
        | none =>
            rw [behind] at unmarked
            cases unmarked
        | some next =>
            simp only [behind, Option.map_eq_none_iff] at unmarked ⊢
            exact induction unmarked (position + 1)
      · exact Extent.markedConditional_of_not_within depth position _ within

/-- A search that finds a marker in a row finds it in the filled row, if no branch before the marker
lies above the level or at depth zero. The group of the marker itself is at depth zero. -/
theorem markedConditional_fill {missing : List (Nat × Block)} (implicit : AllImplicit missing)
    (rest : List Block) :
    ∀ {depth index marker : Nat} {branches : List Nat},
      Extent.markedConditional base depth index rest = some (branches, marker) →
      (∀ gap ∈ missing, index ≤ gap.1 → gap.1 ≤ marker → base ≤ gap.2.level) →
      (∀ gap ∈ missing, index ≤ gap.1 → gap.1 < marker →
        Extent.depthThrough? depth (rest.take (gap.1 - index)) ≠ some 0) →
      Extent.markedConditional base depth (front missing index) (fill missing index rest) =
        some (branches.map (moved missing) ++
          List.range' (front missing marker) (before missing marker).length,
          moved missing marker) := by
  induction rest with
  | nil =>
      intro depth index marker branches found
      simp [Extent.markedConditional] at found
  | cons block rest induction =>
      intro depth index marker branches found levels covered
      rcases Extent.markedAt_of_markedConditional _ found with ⟨place, markerEq, marked, _⟩
      have within := marked.head_within
      have index_le : index ≤ marker := by omega
      rw [Extent.markedConditional_cons _ _ _ within] at found
      have group : ∀ other ∈ before missing index,
          other.kind = .implicitElse ∧ base ≤ other.level := by
        intro other member
        exact ⟨implicit _ (mem_before.mp member),
          levels _ (mem_before.mp member) (Nat.le_refl _) index_le⟩
      rw [fill, markedConditional_group depth _ _ _ group, front_add_length,
        Extent.markedConditional_cons _ _ _ within]
      cases behind : Extent.depthBehind? depth block with
      | none =>
          rcases Extent.depthBehind?_eq_none_iff.mp behind with ⟨rfl, _⟩
          simp only [behind, Option.some.injEq, Prod.mk.injEq] at found
          rcases found with ⟨rfl, rfl⟩
          simp
      | some next =>
          simp only [behind] at found
          rcases Option.map_eq_some_iff.mp found with ⟨⟨later, stop⟩, foundLater, equal⟩
          simp only [Prod.mk.injEq] at equal
          rcases equal with ⟨rfl, rfl⟩
          rcases Extent.markedAt_of_markedConditional rest foundLater with ⟨offset, rfl, _, _⟩
          have filled := induction foundLater
            (fun gap member after before => levels gap member (Nat.le_of_succ_le after) before)
            (fun gap member after before => by
              have deep := covered gap member (Nat.le_of_succ_le after) before
              rw [show gap.1 - index = gap.1 - (index + 1) + 1 by omega, List.take_succ_cons,
                Extent.depthThrough?_cons, behind, Option.bind_some] at deep
              exact deep)
          -- Before the marker a group stands at depth zero only if it is empty.
          have noGroup : depth = 0 → (before missing index).length = 0 := by
            intro atZero
            rw [List.length_eq_zero_iff, List.eq_nil_iff_forall_not_mem]
            intro other member
            apply covered _ (mem_before.mp member) (Nat.le_refl _) (by simp only; omega)
            rw [atZero]
            simp
          rw [front_succ] at filled
          simp only [filled, Option.map_some, Option.some.injEq, Prod.mk.injEq, and_true]
          have own : (if depth = 0 then List.range' (front missing index)
              (before missing index).length else []) = [] := by
            split
            · rename_i atZero
              rw [noGroup atZero]
              rfl
            · rfl
          rw [own, List.nil_append]
          split
          · rw [List.map_cons, List.cons_append]
          · rfl

/-! ## Searches by levels -/

theorem indentedConditional_group (rest group : List Block) :
    ∀ index, (∀ block ∈ group, block.kind = .implicitElse ∧ base < block.level) →
      Extent.indentedConditional base index (group ++ rest) =
        Extent.indentedConditional base (index + group.length) rest := by
  induction group with
  | nil =>
      intro index _
      rfl
  | cons block group induction =>
      intro index members
      rcases members block List.mem_cons_self with ⟨implicit, deeper⟩
      have passes : Extent.BelowOrBranch base block :=
        ⟨within_implicitElse implicit (Int.le_of_lt deeper),
          fun _ => isBranch_implicitElse implicit⟩
      have later := induction (index + 1) fun other member =>
        members other (List.mem_cons_of_mem _ member)
      rw [List.cons_append, Extent.indentedConditional_of_below _ _ passes, if_neg (by omega),
        later, List.length_cons, Nat.add_assoc, Nat.add_comm 1]

theorem branches_of_ended (rest group : List Block)
    (ended : ∀ block, rest.head? = some block → ¬Extent.BelowOrBranch base block) :
    ∀ index, (Extent.indentedConditional base index (group ++ rest)).1 =
      (Extent.indentedConditional base index group).1 := by
  induction group with
  | nil =>
      intro index
      cases rest with
      | nil => rfl
      | cons block rest =>
          rw [List.nil_append, Extent.indentedConditional_of_not_below _ _ (ended block rfl)]
          rfl
  | cons block group induction =>
      intro index
      rw [List.cons_append]
      by_cases passes : Extent.BelowOrBranch base block
      · rw [Extent.indentedConditional_of_below _ _ passes,
          Extent.indentedConditional_of_below _ _ passes]
        simp only [induction (index + 1)]
      · rw [Extent.indentedConditional_of_not_below _ _ passes,
          Extent.indentedConditional_of_not_below _ _ passes]

/-- A search by levels finds the branches of a row in the filled row, if all branches before the end
are deeper. Of the group at the end it finds more. -/
theorem indentedConditional_fill {missing : List (Nat × Block)} (implicit : AllImplicit missing)
    (rest : List Block) :
    ∀ {index offset : Nat}, Extent.IndentedTo base rest offset →
      (∀ gap ∈ missing, index ≤ gap.1 → gap.1 < index + offset → base < gap.2.level) →
      (Extent.indentedConditional base (front missing index) (fill missing index rest)).1 =
        (Extent.indentedConditional base index rest).1.map (moved missing) ++
          (Extent.indentedConditional base (front missing (index + offset))
            (before missing (index + offset))).1 := by
  induction rest with
  | nil =>
      intro index offset indented _
      cases Nat.le_zero.mp indented.bound
      rfl
  | cons block rest induction =>
      intro index offset indented deeper
      cases offset with
      | zero =>
          have ends := indented.ended block rfl
          rw [fill, branches_of_ended _ _ (fun head found => by cases found; exact ends),
            Extent.indentedConditional_of_not_below _ _ ends]
          rfl
      | succ offset =>
          rcases indented.inside 0 (Nat.succ_pos _) with ⟨head, found, passes⟩
          cases found
          have group : ∀ other ∈ before missing index,
              other.kind = .implicitElse ∧ base < other.level := by
            intro other member
            exact ⟨implicit _ (mem_before.mp member),
              deeper _ (mem_before.mp member) (Nat.le_refl _) (by simp only; omega)⟩
          have later : Extent.IndentedTo base rest offset := by
            refine ⟨Nat.le_of_succ_le_succ indented.bound, ?_, indented.ended⟩
            intro earlier before
            exact indented.inside (earlier + 1) (Nat.succ_lt_succ before)
          have filled := @induction (index + 1) offset later fun gap member after before =>
            deeper gap member (Nat.le_of_succ_le after) (by omega)
          rw [Nat.add_assoc, Nat.add_comm 1, front_succ] at filled
          rw [fill, indentedConditional_group _ _ _ group, front_add_length,
            Extent.indentedConditional_of_below _ _ passes,
            Extent.indentedConditional_of_below _ _ passes]
          simp only [filled]
          split
          · rw [List.map_cons, List.cons_append]
          · rfl

/-! ## Branches of a group -/

theorem mem_branches_of_group (group : List Block) :
    ∀ {index offset : Nat}, (∀ block ∈ group, block.kind = .implicitElse) →
      (group.Pairwise fun first second => second.level ≤ first.level) →
      group[offset]? = some block → block.level = base →
        index + offset ∈ (Extent.indentedConditional base index group).1 := by
  induction group with
  | nil =>
      intro index offset _ _ found
      cases found
  | cons head group induction =>
      intro index offset implicit sorted found level
      rcases List.pairwise_cons.mp sorted with ⟨above, sorted⟩
      have headLevel : base ≤ head.level := by
        cases offset with
        | zero =>
            cases found
            exact Int.le_of_eq level.symm
        | succ offset =>
            have lower := above block (List.mem_of_getElem? found)
            omega
      have headImplicit := implicit head List.mem_cons_self
      have passes : Extent.BelowOrBranch base head :=
        ⟨within_implicitElse headImplicit headLevel, fun _ => isBranch_implicitElse headImplicit⟩
      rw [Extent.indentedConditional_of_below _ _ passes]
      cases offset with
      | zero =>
          cases found
          rw [if_pos level]
          exact List.mem_cons_self
      | succ offset =>
          have later : index + 1 + offset ∈ (Extent.indentedConditional base (index + 1) group).1 :=
            induction (fun other member => implicit other (List.mem_cons_of_mem _ member)) sorted
              found level
          rw [Nat.add_assoc, Nat.add_comm 1] at later
          simp only
          split
          · exact List.mem_cons_of_mem _ later
          · exact later

theorem branches_eq_nil_of_group {group : List Block} (index : Nat)
    (other : ∀ block ∈ group, block.level ≠ base) :
    (Extent.indentedConditional base index group).1 = [] := by
  rw [List.eq_nil_iff_forall_not_mem]
  intro branch member
  rcases Extent.indentedTo_of_indentedConditional base group index with ⟨_, _, _, own⟩
  rcases own branch member with ⟨earlier, _, block, _, found, level⟩
  exact other block (List.mem_of_getElem? found) level

end

end Flowchart.ImplicitElse
