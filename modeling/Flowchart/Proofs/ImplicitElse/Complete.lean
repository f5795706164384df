import Flowchart.Proofs.ImplicitElse.Filled

/-!
Completing the conditionals of a row.

The branch that a conditional lacks goes directly before its end. Another conditional whose end lies
inside the first one opens inside it, so its branch is deeper or at a depth above zero and is not
taken for a branch of the first. A conditional therefore keeps its end marker and its branches, and
where it had none it finds its own. A completed row lacks nothing.
-/

namespace Flowchart

namespace ImplicitElse

section

variable {blocks : List Block} {index : Nat}

/-! ## Missing branches -/

theorem mem_missing {gap : Nat × Block} :
    gap ∈ missing blocks ↔
      ∃ index, IsConditional blocks index ∧ (conditionalExtent blocks index).branches = [] ∧
        gap = (conditionalEnd blocks index, block (levelAt blocks index)) := by
  rw [missing, List.mem_filterMap]
  constructor
  · rintro ⟨⟨opener, index⟩, member, made⟩
    have found := List.mem_zipIdx_iff_getElem?.mp member
    simp only [Option.ite_none_right_eq_some, List.isEmpty_iff, Option.some.injEq] at made
    rcases made with ⟨opens, empty, rfl⟩
    refine ⟨index, isConditional_iff.mpr ⟨opener, found, opens⟩, empty, ?_⟩
    rw [levelAt_eq found]
    rfl
  · rintro ⟨index, conditional, empty, rfl⟩
    rcases isConditional_iff.mp conditional with ⟨opener, found, opens⟩
    refine ⟨(opener, index), List.mem_zipIdx_iff_getElem?.mpr found, ?_⟩
    simp only [opens, empty, List.isEmpty_nil, if_true]
    rw [levelAt_eq found]
    rfl

theorem allImplicit_missing (blocks : List Block) : AllImplicit (missing blocks) := by
  intro gap member
  rcases mem_missing.mp member with ⟨index, _, _, rfl⟩
  rfl

theorem position_le_length {gap : Nat × Block} (member : gap ∈ missing blocks) :
    gap.1 ≤ blocks.length := by
  rcases mem_missing.mp member with ⟨index, conditional, _, rfl⟩
  exact conditionalEnd_le conditional.lt_length

/-! ## Ends inside a conditional -/

theorem opens_inside {other : Nat} (conditional : IsConditional blocks index)
    (otherConditional : IsConditional blocks other) (after : index < conditionalEnd blocks other)
    (before : conditionalEnd blocks other < conditionalEnd blocks index) :
    index < other ∧ other < conditionalEnd blocks index := by
  have otherBound := start_lt_conditionalEnd otherConditional.lt_length
  refine ⟨?_, by omega⟩
  rcases Nat.lt_trichotomy index other with order | same | order
  · exact order
  · rw [same] at before
    exact absurd before (Nat.lt_irrefl _)
  · have inside := conditionalEnd_le_of_nested otherConditional conditional order after
    omega

theorem eq_of_conditionalEnd_eq {other : Nat} (byMarker : EndsByMarker blocks index)
    (conditional : IsConditional blocks index) (otherConditional : IsConditional blocks other)
    (same : conditionalEnd blocks other = conditionalEnd blocks index) : other = index := by
  have bound := start_lt_conditionalEnd conditional.lt_length
  have otherBound := start_lt_conditionalEnd otherConditional.lt_length
  rcases Nat.lt_trichotomy index other with order | equal | order
  · have inside := (byMarker.nested otherConditional order (by omega)).1
    omega
  · exact equal.symm
  · have inside : index < conditionalEnd blocks other := by omega
    cases endsByMarker_or_endsByLevel otherConditional.lt_length with
    | inl otherMarked =>
        have earlier := (otherMarked.nested conditional order inside).1
        omega
    | inr otherLevel =>
        have earlier := (otherLevel.nested conditional order inside).2.2 byMarker.explicit
        omega

theorem levelAt_lt_of_conditionalEnd_eq {outer inner : Nat} (order : outer < inner)
    (outerConditional : IsConditional blocks outer) (innerConditional : IsConditional blocks inner)
    (same : conditionalEnd blocks outer = conditionalEnd blocks inner) :
    levelAt blocks outer < levelAt blocks inner := by
  have inside : inner < conditionalEnd blocks outer := by
    rw [same]
    exact start_lt_conditionalEnd innerConditional.lt_length
  cases endsByMarker_or_endsByLevel outerConditional.lt_length with
  | inl byMarker =>
      have earlier := (byMarker.nested innerConditional order inside).1
      omega
  | inr byLevel => exact (byLevel.nested innerConditional order inside).1

/-! ## Extents in the completed row -/

theorem conditionalExtent_moved {opener : Block} (found : blocks[index]? = some opener) :
    conditionalExtent (completeConditionals blocks) (moved (missing blocks) index) =
      Extent.ofConditional (moved (missing blocks) index) opener
        (fill (missing blocks) (index + 1) (blocks.drop (index + 1))) := by
  rw [completeConditionals_eq_fill, conditionalExtent_eq (getElem?_moved _ found)]
  rcases exists_fill_cons (missing blocks) found with ⟨earlier, filled, length⟩
  rw [filled, ← length, List.drop_append, List.drop_of_length_le (Nat.le_succ _),
    Nat.add_sub_cancel_left]
  rfl

/-- A conditional with an end marker keeps the marker and its branches. It gets the branches that
were put directly before the marker. -/
theorem conditionalExtent_of_endsByMarker (byMarker : EndsByMarker blocks index)
    (conditional : IsConditional blocks index) :
    conditionalExtent (completeConditionals blocks) (moved (missing blocks) index) =
      ⟨moved (missing blocks) index,
        (conditionalExtent blocks index).branches.map (moved (missing blocks)) ++
          List.range' (front (missing blocks) (conditionalEnd blocks index))
            (before (missing blocks) (conditionalEnd blocks index)).length,
        some (moved (missing blocks) (conditionalEnd blocks index)), true⟩ := by
  rcases isConditional_iff.mp conditional with ⟨opener, found, opens⟩
  have explicit := byMarker.explicit
  have stop := byMarker.stop
  rw [conditionalExtent_eq found, Extent.ofConditional] at explicit stop
  cases searched : Extent.markedConditional opener.level 0 (index + 1)
      (blocks.drop (index + 1)) with
  | none =>
      rw [searched] at explicit
      cases explicit
  | some result =>
      rcases result with ⟨branches, marker⟩
      have own : (conditionalExtent blocks index).branches = branches := by
        rw [conditionalExtent_eq found, Extent.ofConditional, searched]
      rw [searched] at stop
      cases stop
      have levels : ∀ gap ∈ missing blocks, index + 1 ≤ gap.1 →
          gap.1 ≤ conditionalEnd blocks index → opener.level ≤ gap.2.level := by
        intro gap member after before
        rcases mem_missing.mp member with ⟨other, otherConditional, _, rfl⟩
        rw [← levelAt_eq found]
        rcases Nat.lt_or_eq_of_le before with earlier | atMarker
        · rcases opens_inside conditional otherConditional after earlier with ⟨order, inside⟩
          exact (byMarker.nested otherConditional order inside).2.1
        · rw [eq_of_conditionalEnd_eq byMarker conditional otherConditional atMarker]
          exact Int.le_refl _
      have covered : ∀ gap ∈ missing blocks, index + 1 ≤ gap.1 →
          gap.1 < conditionalEnd blocks index → depthAt? blocks index gap.1 ≠ some 0 := by
        intro gap member after before atZero
        rcases mem_missing.mp member with ⟨other, otherConditional, _, rfl⟩
        rcases opens_inside conditional otherConditional after before with ⟨order, inside⟩
        rcases (byMarker.nested otherConditional order inside).2.2 _
          (start_lt_conditionalEnd otherConditional.lt_length) (Nat.le_refl _) with ⟨depth, above⟩
        cases above.symm.trans atZero
      have filled := markedConditional_fill (allImplicit_missing blocks) _ searched levels covered
      rw [conditionalExtent_moved found, Extent.ofConditional, ← front_succ, filled, own]

/-- A conditional without an end marker stays without one and keeps its branches. It may get some of
the branches that were put before its end. -/
theorem conditionalExtent_of_endsByLevel (byLevel : EndsByLevel blocks index)
    (conditional : IsConditional blocks index) :
    (conditionalExtent (completeConditionals blocks) (moved (missing blocks) index)).explicit =
        false ∧
      (conditionalExtent (completeConditionals blocks) (moved (missing blocks) index)).branches =
        (conditionalExtent blocks index).branches.map (moved (missing blocks)) ++
          (Extent.indentedConditional (levelAt blocks index)
            (front (missing blocks) (conditionalEnd blocks index))
            (before (missing blocks) (conditionalEnd blocks index))).1 := by
  rcases isConditional_iff.mp conditional with ⟨opener, found, opens⟩
  have implicit := byLevel.implicit
  rw [conditionalExtent_eq found, Extent.ofConditional] at implicit
  cases searched : Extent.markedConditional opener.level 0 (index + 1)
      (blocks.drop (index + 1)) with
  | some result =>
      rw [searched] at implicit
      cases implicit
  | none =>
      have own : (conditionalExtent blocks index).branches =
          (Extent.indentedConditional opener.level (index + 1) (blocks.drop (index + 1))).1 := by
        rw [conditionalExtent_eq found, Extent.ofConditional, searched]
      have after := start_lt_conditionalEnd conditional.lt_length
      have ends : index + 1 + (conditionalEnd blocks index - (index + 1)) =
          conditionalEnd blocks index := by omega
      have indented := byLevel.indented
      rw [← ends, indentedBy_iff found] at indented
      have deeper : ∀ gap ∈ missing blocks, index + 1 ≤ gap.1 →
          gap.1 < index + 1 + (conditionalEnd blocks index - (index + 1)) →
            opener.level < gap.2.level := by
        intro gap member after before
        rcases mem_missing.mp member with ⟨other, otherConditional, _, rfl⟩
        rw [ends] at before
        rcases opens_inside conditional otherConditional after before with ⟨order, inside⟩
        rw [← levelAt_eq found]
        exact (byLevel.nested otherConditional order inside).1
      have filled := indentedConditional_fill (allImplicit_missing blocks) _ indented deeper
      rw [ends] at filled
      have unmarked := markedConditional_fill_none (allImplicit_missing blocks) _ searched
        (moved (missing blocks) index + 1)
      rw [conditionalExtent_moved found, Extent.ofConditional, unmarked, own, ← front_succ,
        levelAt_eq found]
      exact ⟨rfl, filled⟩

theorem mem_branches_of_missing (conditional : IsConditional blocks index) {branch : Block}
    {offset : Nat}
    (found : (before (missing blocks) (conditionalEnd blocks index))[offset]? = some branch)
    (level : branch.level = levelAt blocks index) :
    front (missing blocks) (conditionalEnd blocks index) + offset ∈
      (conditionalExtent (completeConditionals blocks)
        (moved (missing blocks) index)).branches := by
  cases endsByMarker_or_endsByLevel conditional.lt_length with
  | inl byMarker =>
      rw [conditionalExtent_of_endsByMarker byMarker conditional]
      apply List.mem_append_right
      rw [List.mem_range'_1]
      have inGroup := (List.getElem?_eq_some_iff.mp found).1
      omega
  | inr byLevel =>
      rw [(conditionalExtent_of_endsByLevel byLevel conditional).2]
      apply List.mem_append_right
      apply mem_branches_of_group _ _ (before_sorted _ _) found level
      intro other member
      exact allImplicit_missing blocks _ (mem_before.mp member)

end

/-! ## Nothing is missing -/

section

variable {blocks : List Block} {place : Nat}

theorem exists_moved_of_isConditional
    (conditional : IsConditional (completeConditionals blocks) place) :
    ∃ index, IsConditional blocks index ∧ place = moved (missing blocks) index := by
  rcases isConditional_iff.mp conditional with ⟨opener, found, opens⟩
  rw [completeConditionals_eq_fill] at found
  have located := moved_or_missing blocks found
  rw [front_zero, Nat.zero_add] at located
  cases located with
  | inl fromRow =>
      rcases fromRow with ⟨index, foundIndex, here⟩
      rw [Nat.zero_add] at here
      exact ⟨index, isConditional_iff.mpr ⟨opener, foundIndex, opens⟩, here⟩
  | inr fromGroup =>
      rcases fromGroup with ⟨index, offset, foundOffset, _⟩
      have member := mem_before.mp (List.mem_of_getElem? foundOffset)
      have implicit := allImplicit_missing blocks _ member
      simp only [Block.opensConditional, Bool.and_eq_true, beq_iff_eq] at opens
      cases implicit.symm.trans opens.1

theorem isConditional_moved {index : Nat} (conditional : IsConditional blocks index) :
    IsConditional (completeConditionals blocks) (moved (missing blocks) index) := by
  rcases isConditional_iff.mp conditional with ⟨opener, found, opens⟩
  rw [completeConditionals_eq_fill]
  exact isConditional_iff.mpr ⟨opener, getElem?_moved _ found, opens⟩

theorem branches_ne_nil (completed : IsConditional (completeConditionals blocks) place) :
    (conditionalExtent (completeConditionals blocks) place).branches ≠ [] := by
  rcases exists_moved_of_isConditional completed with ⟨index, conditional, rfl⟩
  by_cases empty : (conditionalExtent blocks index).branches = []
  · have member : block (levelAt blocks index) ∈
        before (missing blocks) (conditionalEnd blocks index) :=
      mem_before.mpr (mem_missing.mpr ⟨index, conditional, empty, rfl⟩)
    rcases List.getElem?_of_mem member with ⟨offset, found⟩
    exact List.ne_nil_of_mem (mem_branches_of_missing conditional found rfl)
  · have kept : (conditionalExtent blocks index).branches.map (moved (missing blocks)) ≠ [] :=
      mt List.map_eq_nil_iff.mp empty
    cases endsByMarker_or_endsByLevel conditional.lt_length with
    | inl byMarker =>
        rw [conditionalExtent_of_endsByMarker byMarker conditional]
        exact List.append_ne_nil_of_left_ne_nil kept _
    | inr byLevel =>
        rw [(conditionalExtent_of_endsByLevel byLevel conditional).2]
        exact List.append_ne_nil_of_left_ne_nil kept _

theorem exists_owner {branch : Block} (found : (completeConditionals blocks)[place]? = some branch)
    (added : branch ∉ blocks) :
    ∃ index, IsConditional (completeConditionals blocks) index ∧
      place ∈ (conditionalExtent (completeConditionals blocks) index).branches := by
  rw [completeConditionals_eq_fill] at found
  have located := moved_or_missing blocks found
  rw [front_zero, Nat.zero_add] at located
  cases located with
  | inl fromRow =>
      rcases fromRow with ⟨index, foundIndex, _⟩
      exact absurd (List.mem_of_getElem? foundIndex) added
  | inr fromGroup =>
      rcases fromGroup with ⟨position, offset, foundOffset, rfl⟩
      rw [Nat.zero_add] at foundOffset ⊢
      have member := mem_before.mp (List.mem_of_getElem? foundOffset)
      rcases mem_missing.mp member with ⟨index, conditional, _, same⟩
      cases same
      exact ⟨_, isConditional_moved conditional,
        mem_branches_of_missing conditional foundOffset rfl⟩

theorem fill_nil (index : Nat) (rest : List Block) : fill [] index rest = rest := by
  have nothing : ∀ position, before [] position = [] := by
    intro position
    simp [before]
  induction rest generalizing index with
  | nil => exact nothing index
  | cons block rest induction => rw [fill, nothing, induction, List.nil_append]

theorem completeConditionals_eq_self
    (whole : ∀ index, IsConditional blocks index → (conditionalExtent blocks index).branches ≠ []) :
    completeConditionals blocks = blocks := by
  have nothing : missing blocks = [] := by
    rw [List.eq_nil_iff_forall_not_mem]
    intro gap member
    rcases mem_missing.mp member with ⟨index, conditional, empty, _⟩
    exact whole index conditional empty
  rw [completeConditionals_eq_fill, nothing, fill_nil]

end

/-! ## What is kept -/

section

variable {blocks : List Block} {index : Nat}

theorem branches_of_ne_nil (conditional : IsConditional blocks index)
    (some : (conditionalExtent blocks index).branches ≠ []) :
    (conditionalExtent (completeConditionals blocks) (moved (missing blocks) index)).branches =
      (conditionalExtent blocks index).branches.map (moved (missing blocks)) := by
  have others : ∀ branch ∈ before (missing blocks) (conditionalEnd blocks index),
      ∃ other, IsConditional blocks other ∧ other ≠ index ∧
        conditionalEnd blocks other = conditionalEnd blocks index ∧
        branch.level = levelAt blocks other := by
    intro branch member
    rcases mem_missing.mp (mem_before.mp member) with ⟨other, otherConditional, empty, same⟩
    rcases Prod.mk.inj same with ⟨atEnd, rfl⟩
    refine ⟨other, otherConditional, fun equal => ?_, atEnd.symm, rfl⟩
    rw [equal] at empty
    exact some empty
  cases endsByMarker_or_endsByLevel conditional.lt_length with
  | inl byMarker =>
      have nothing : before (missing blocks) (conditionalEnd blocks index) = [] := by
        rw [List.eq_nil_iff_forall_not_mem]
        intro branch member
        rcases others branch member with ⟨other, otherConditional, differs, atEnd, _⟩
        exact differs (eq_of_conditionalEnd_eq byMarker conditional otherConditional atEnd)
      rw [conditionalExtent_of_endsByMarker byMarker conditional, nothing]
      exact List.append_nil _
  | inr byLevel =>
      rw [(conditionalExtent_of_endsByLevel byLevel conditional).2, branches_eq_nil_of_group,
        List.append_nil]
      intro branch member level
      rcases others branch member with ⟨other, otherConditional, differs, atEnd, otherLevel⟩
      cases Nat.lt_or_gt_of_ne differs with
      | inl order =>
          have deeper :=
            levelAt_lt_of_conditionalEnd_eq order otherConditional conditional atEnd
          omega
      | inr order =>
          have deeper :=
            levelAt_lt_of_conditionalEnd_eq order conditional otherConditional atEnd.symm
          omega

theorem explicit_moved (conditional : IsConditional blocks index) :
    (conditionalExtent (completeConditionals blocks) (moved (missing blocks) index)).explicit =
      (conditionalExtent blocks index).explicit := by
  cases endsByMarker_or_endsByLevel conditional.lt_length with
  | inl byMarker =>
      rw [conditionalExtent_of_endsByMarker byMarker conditional, byMarker.explicit]
  | inr byLevel =>
      rw [(conditionalExtent_of_endsByLevel byLevel conditional).1, byLevel.implicit]

theorem stop_moved (conditional : IsConditional blocks index)
    (explicit : (conditionalExtent blocks index).explicit = true) :
    (conditionalExtent (completeConditionals blocks) (moved (missing blocks) index)).stop =
      (conditionalExtent blocks index).stop.map (moved (missing blocks)) := by
  have byMarker := endsByMarker_of_explicit conditional.lt_length explicit
  rw [conditionalExtent_of_endsByMarker byMarker conditional, byMarker.stop]
  rfl

end

def plainPlaces (blocks : List Block) : List (Block × Nat) :=
  blocks.zipIdx.filter fun (block, _) => block.kind ≠ .implicitElse

section

variable {missing : List (Nat × Block)}

/-- The blocks of a row that are not implicit elses are found at their new places, and nothing else
is. -/
theorem plain_fill (implicit : AllImplicit missing) {rest : List Block} :
    ∀ {index : Nat}, (∀ block ∈ rest, block.kind ≠ .implicitElse) →
      ((fill missing index rest).zipIdx (front missing index)).filter
          (fun (block, _) => block.kind ≠ .implicitElse) =
        (rest.zipIdx index).map fun (block, position) => (block, moved missing position) := by
  have group : ∀ index start, ((before missing index).zipIdx start).filter
      (fun (block, _) => block.kind ≠ .implicitElse) = [] := by
    intro index start
    rw [List.filter_eq_nil_iff]
    intro ⟨block, position⟩ member
    have kind := implicit _ (mem_before.mp (List.fst_mem_of_mem_zipIdx member))
    simpa using kind
  induction rest with
  | nil =>
      intro index _
      exact group index _
  | cons block rest induction =>
      intro index plain
      have later := @induction (index + 1) fun other member =>
        plain other (List.mem_cons_of_mem _ member)
      rw [fill, List.zipIdx_append, List.filter_append, group, List.nil_append, List.zipIdx_cons,
        front_add_length, ← front_succ, List.filter_cons_of_pos
          (by simpa using plain block List.mem_cons_self), later]
      rfl

theorem length_fill (missing : List (Nat × Block)) (blocks : List Block) :
    (fill missing 0 blocks).length = moved missing blocks.length := by
  rcases exists_fill_eq missing blocks 0 blocks.length (Nat.le_refl _) with
    ⟨earlier, filled, length⟩
  have group := front_add_length missing blocks.length
  rw [front_zero, Nat.zero_add, Nat.zero_add] at length
  rw [filled, Nat.zero_add, List.drop_length, List.length_append, fill]
  omega

end

theorem plainPlaces_completeConditionals {blocks : List Block}
    (plain : ∀ block ∈ blocks, block.kind ≠ .implicitElse) :
    plainPlaces (completeConditionals blocks) =
      blocks.zipIdx.map fun (block, index) => (block, moved (missing blocks) index) := by
  have found := @plain_fill _ (allImplicit_missing blocks) _ 0 plain
  rw [front_zero] at found
  rw [completeConditionals_eq_fill]
  exact found

theorem filter_completeConditionals {blocks : List Block}
    (plain : ∀ block ∈ blocks, block.kind ≠ .implicitElse) :
    (completeConditionals blocks).filter (fun block => block.kind ≠ .implicitElse) = blocks := by
  have places := congrArg (List.map Prod.fst) (plainPlaces_completeConditionals plain)
  rw [List.map_map] at places
  have named : (completeConditionals blocks).filter (fun block => block.kind ≠ .implicitElse) =
      (plainPlaces (completeConditionals blocks)).map Prod.fst := by
    rw [← List.zipIdx_map_fst 0 (completeConditionals blocks), List.filter_map, List.zipIdx_map_fst]
    rfl
  rw [named, places]
  exact List.zipIdx_map_fst 0 blocks

theorem length_completeConditionals (blocks : List Block) :
    (completeConditionals blocks).length = blocks.length + (missing blocks).length := by
  rw [completeConditionals_eq_fill, length_fill, moved, List.countP_eq_length.mpr]
  intro gap member
  exact decide_eq_true (position_le_length member)

theorem length_missing (blocks : List Block) :
    (missing blocks).length = (List.range blocks.length).countP fun index =>
      IsConditional blocks index ∧ (conditionalExtent blocks index).branches = [] := by
  rw [missing, List.length_filterMap_eq_countP, List.range_eq_range', ← List.zipIdx_map_snd 0,
    List.countP_map]
  apply List.countP_congr
  intro ⟨opener, index⟩ member
  have found := List.mem_zipIdx_iff_getElem?.mp member
  have opens : IsConditional blocks index ↔ opener.opensConditional = true := by
    rw [IsConditional, found, Option.any_some]
  simp only [Function.comp_apply, decide_eq_true_eq, opens, List.isEmpty_iff]
  split
  · rename_i conditional
    split
    · rename_i empty
      simp [conditional, empty]
    · rename_i some
      simp [some]
  · rename_i other
    simp [other]

end ImplicitElse

/-- In a completed row every conditional has a branch, and completing it again changes nothing. -/
theorem completeConditionals_complete (blocks : List Block) :
    (∀ index, IsConditional (completeConditionals blocks) index →
      (conditionalExtent (completeConditionals blocks) index).branches ≠ []) ∧
    completeConditionals (completeConditionals blocks) = completeConditionals blocks := by
  constructor
  · intro index conditional
    exact ImplicitElse.branches_ne_nil conditional
  · apply ImplicitElse.completeConditionals_eq_self
    intro index conditional
    exact ImplicitElse.branches_ne_nil conditional

/-- Completing a row without implicit elses only adds implicit elses, one for each conditional
without a branch. The row is found in the completed row at places in order; there a conditional has
an end marker where it had one, at the new place of the marker, and if it had branches, it has these
at their new places and no other. -/
theorem completeConditionals_conservative (blocks : List Block)
    (plain : ∀ block ∈ blocks, block.kind ≠ .implicitElse) :
    (completeConditionals blocks).filter (fun block => block.kind ≠ .implicitElse) = blocks ∧
    (completeConditionals blocks).countP (fun block => block.kind = .implicitElse) =
      (List.range blocks.length).countP (fun index =>
        IsConditional blocks index ∧ (conditionalExtent blocks index).branches = []) ∧
    ∃ place : Nat → Nat,
      ImplicitElse.plainPlaces (completeConditionals blocks) =
        blocks.zipIdx.map (fun (block, index) => (block, place index)) ∧
      (∀ first second, first < second → place first < place second) ∧
      ∀ index, IsConditional blocks index →
        (conditionalExtent (completeConditionals blocks) (place index)).explicit =
          (conditionalExtent blocks index).explicit ∧
        ((conditionalExtent blocks index).explicit = true →
          (conditionalExtent (completeConditionals blocks) (place index)).stop =
            (conditionalExtent blocks index).stop.map place) ∧
        ((conditionalExtent blocks index).branches ≠ [] →
          (conditionalExtent (completeConditionals blocks) (place index)).branches =
            (conditionalExtent blocks index).branches.map place) := by
  refine ⟨ImplicitElse.filter_completeConditionals plain, ?_,
    ImplicitElse.moved (ImplicitElse.missing blocks),
    ImplicitElse.plainPlaces_completeConditionals plain,
    fun first second order => ImplicitElse.moved_lt_moved order, ?_⟩
  · have kept := congrArg List.length (ImplicitElse.filter_completeConditionals plain)
    have whole := ImplicitElse.length_completeConditionals blocks
    have split := List.length_eq_countP_add_countP
      (fun block : Block => decide (block.kind = .implicitElse)) (l := completeConditionals blocks)
    rw [← List.countP_eq_length_filter] at kept
    simp only [decide_eq_true_eq, ne_eq] at split kept ⊢
    rw [← ImplicitElse.length_missing]
    omega
  · intro index conditional
    exact ⟨ImplicitElse.explicit_moved conditional, ImplicitElse.stop_moved conditional,
      ImplicitElse.branches_of_ne_nil conditional⟩

theorem completeConditionals_conservative_nestedRow :
    (∀ block ∈ nestedRow, block.kind ≠ .implicitElse) ∧
    (completeConditionals nestedRow).filter (fun block => block.kind ≠ .implicitElse) =
      nestedRow ∧
    (completeConditionals nestedRow).countP (fun block => block.kind = .implicitElse) = 1 ∧
    ∃ place : Nat → Nat,
      ImplicitElse.plainPlaces (completeConditionals nestedRow) =
        nestedRow.zipIdx.map (fun (block, index) => (block, place index)) ∧
      (∀ first second, first < second → place first < place second) ∧
      (conditionalExtent (completeConditionals nestedRow) (place 0)).branches = [place 4] ∧
      (conditionalExtent (completeConditionals nestedRow) (place 1)).explicit = true ∧
      (conditionalExtent (completeConditionals nestedRow) (place 1)).stop = some (place 3) := by
  have plain : ∀ block ∈ nestedRow, block.kind ≠ .implicitElse := by decide
  have outer : conditionalExtent nestedRow 0 = ⟨0, [4], none, false⟩ := by decide +kernel
  have inner : conditionalExtent nestedRow 1 = ⟨1, [], some 3, true⟩ := by decide +kernel
  rcases completeConditionals_conservative nestedRow plain with
    ⟨same, added, place, kept, order, extents⟩
  rcases extents 0 (by decide) with ⟨_, _, branches⟩
  rcases extents 1 (by decide) with ⟨explicit, stop, _⟩
  rw [outer] at branches
  rw [inner] at explicit stop
  refine ⟨plain, same, ?_, place, kept, order, branches (by simp), explicit, stop rfl⟩
  rw [added]
  decide +kernel

end Flowchart
