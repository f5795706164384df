import Flowchart.Proofs.Extent.Depth

/-!
How the extents of conditionals lie to each other.

A conditional that opens inside another one ends no later than that. Where the outer one has an end
marker of its own, the inner one ends before the marker, and everything up to its end lies at a
depth above zero. Where levels alone decide, the inner one is deeper. So no block is a branch of two
conditionals.
-/

namespace Flowchart

/-! ## Conditionals by position -/

def IsConditional (blocks : List Block) (index : Nat) : Prop :=
  blocks[index]?.any Block.opensConditional = true

instance (blocks : List Block) (index : Nat) : Decidable (IsConditional blocks index) :=
  inferInstanceAs (Decidable (_ = true))

theorem isConditional_iff {blocks : List Block} {index : Nat} :
    IsConditional blocks index ↔
      ∃ opener, blocks[index]? = some opener ∧ opener.opensConditional = true := by
  simp [IsConditional, Option.any_eq_true]

theorem IsConditional.lt_length {blocks : List Block} {index : Nat}
    (conditional : IsConditional blocks index) : index < blocks.length := by
  rcases isConditional_iff.mp conditional with ⟨opener, found, _⟩
  exact (List.getElem?_eq_some_iff.mp found).1

def levelAt (blocks : List Block) (index : Nat) : Int := (blocks[index]?.map Block.level).getD 0

def conditionalEnd (blocks : List Block) (index : Nat) : Nat :=
  (conditionalExtent blocks index).stop.getD blocks.length

theorem conditionalExtent_eq {blocks : List Block} {index : Nat} {opener : Block}
    (found : blocks[index]? = some opener) :
    conditionalExtent blocks index =
      Extent.ofConditional index opener (blocks.drop (index + 1)) := by
  rw [conditionalExtent, drop_eq_cons found]

section

variable (blocks : List Block)

def between (first last : Nat) : List Block := (blocks.drop (first + 1)).take (last - (first + 1))

def depthAt? (first index : Nat) : Option Nat := Extent.depthThrough? 0 (between blocks first index)

variable {blocks} {first middle last : Nat}

theorem between_append (order : first < middle) (later : middle < last) {block : Block}
    (found : blocks[middle]? = some block) :
    between blocks first last =
      between blocks first middle ++ block :: between blocks middle last := by
  have position : middle - (first + 1) + (last - middle) = last - (first + 1) := by omega
  have same : first + 1 + (middle - (first + 1)) = middle := by omega
  have rest : last - middle = last - (middle + 1) + 1 := by omega
  rw [between, ← position, List.take_add, List.drop_drop, same, drop_eq_cons found, rest,
    List.take_succ_cons]
  rfl

theorem exists_depthAt?_of_le {depth : Nat} (order : middle ≤ last)
    (known : depthAt? blocks first last = some depth) :
    ∃ before, depthAt? blocks first middle = some before := by
  have split : between blocks first last =
      between blocks first middle ++ (between blocks first last).drop (middle - (first + 1)) := by
    have front : between blocks first middle =
        (between blocks first last).take (middle - (first + 1)) := by
      rw [between, between, List.take_take, Nat.min_eq_left (by omega)]
    rw [front, List.take_append_drop]
  rw [depthAt?, split, Extent.depthThrough?_append, Option.bind_eq_some_iff] at known
  rcases known with ⟨before, known, _⟩
  exact ⟨before, known⟩

theorem depthAt?_of_opens {before depth : Nat} (order : first < middle) (later : middle < last)
    (conditional : IsConditional blocks middle)
    (known : depthAt? blocks first middle = some before)
    (inside : depthAt? blocks middle last = some depth) :
    depthAt? blocks first last = some (before + 1 + depth) := by
  rcases isConditional_iff.mp conditional with ⟨opener, found, opens⟩
  have opened : Extent.depthBehind? before opener = some (before + 1 + 0) :=
    Extent.depthBehind?_of_opens opens
  rw [depthAt?] at known
  rw [depthAt?, between_append order later found, Extent.depthThrough?_append, known,
    Option.bind_some, Extent.depthThrough?_cons, opened, Option.bind_some]
  exact Extent.depthThrough?_add inside

theorem between_succ (order : first < middle) {block : Block}
    (found : blocks[middle]? = some block) :
    between blocks first (middle + 1) = between blocks first middle ++ [block] := by
  rw [between_append order (Nat.lt_succ_self middle) found]
  simp [between]

end

/-! ## The two ways to end -/

section

variable (blocks : List Block) (start : Nat)

structure MarkedBy (marker : Nat) : Prop where
  after : start < marker
  marks : ∃ closer, blocks[marker]? = some closer ∧ closer.isIfEnd = true
  depth_eq : depthAt? blocks start marker = some 0
  within : ∀ place, start < place → place ≤ marker →
    ∃ block, blocks[place]? = some block ∧ block.Within (levelAt blocks start)

structure IndentedBy (last : Nat) : Prop where
  after : start < last
  bound : last ≤ blocks.length
  inside : ∀ place, start < place → place < last →
    ∃ block, blocks[place]? = some block ∧
      Extent.BelowOrBranch (levelAt blocks start) block
  ended : ∀ block, blocks[last]? = some block →
    ¬Extent.BelowOrBranch (levelAt blocks start) block

structure EndsByMarker : Prop where
  explicit : (conditionalExtent blocks start).explicit = true
  stop : (conditionalExtent blocks start).stop = some (conditionalEnd blocks start)
  marked : MarkedBy blocks start (conditionalEnd blocks start)
  branches : ∀ branch ∈ (conditionalExtent blocks start).branches,
    branch < conditionalEnd blocks start ∧ depthAt? blocks start branch = some 0

/-- A conditional without a marker that ends where the levels say, with branches on its own
level. -/
structure EndsByLevel : Prop where
  implicit : (conditionalExtent blocks start).explicit = false
  unmarked : ∀ marker, ¬MarkedBy blocks start marker
  indented : IndentedBy blocks start (conditionalEnd blocks start)
  branches : ∀ branch ∈ (conditionalExtent blocks start).branches,
    branch < conditionalEnd blocks start ∧ levelAt blocks branch = levelAt blocks start

end

section

variable {blocks : List Block} {start : Nat} {opener : Block}

theorem levelAt_eq (found : blocks[start]? = some opener) :
    levelAt blocks start = opener.level := by
  simp [levelAt, found]

theorem markedBy_iff (found : blocks[start]? = some opener) (offset : Nat) :
    MarkedBy blocks start (start + 1 + offset) ↔
      Extent.MarkedAt opener.level 0 (blocks.drop (start + 1)) offset := by
  have size : start + 1 + offset - (start + 1) = offset := by omega
  constructor
  · intro marked
    refine ⟨?_, ?_, ?_⟩
    · rw [List.getElem?_drop]
      exact marked.marks
    · have depth_eq := marked.depth_eq
      rwa [depthAt?, between, size] at depth_eq
    · intro earlier bound
      rw [List.getElem?_drop, ← levelAt_eq found]
      exact marked.within _ (by omega) (by omega)
  · intro marked
    refine ⟨by omega, ?_, ?_, ?_⟩
    · rw [← List.getElem?_drop]
      exact marked.marks
    · rw [depthAt?, between, size]
      exact marked.depth_eq
    · intro place after bound
      have here : start + 1 + (place - (start + 1)) = place := by omega
      rw [levelAt_eq found, ← here, ← List.getElem?_drop]
      exact marked.within _ (by omega)

theorem indentedBy_iff (found : blocks[start]? = some opener) (offset : Nat) :
    IndentedBy blocks start (start + 1 + offset) ↔
      Extent.IndentedTo opener.level (blocks.drop (start + 1)) offset := by
  have inRow := (List.getElem?_eq_some_iff.mp found).1
  constructor
  · intro indented
    have bound := indented.bound
    refine ⟨by rw [List.length_drop]; omega, ?_, ?_⟩
    · intro earlier before
      rw [List.getElem?_drop, ← levelAt_eq found]
      exact indented.inside _ (by omega) (by omega)
    · intro block
      rw [List.getElem?_drop, ← levelAt_eq found]
      exact indented.ended block
  · intro indented
    have bound := indented.bound
    rw [List.length_drop] at bound
    refine ⟨by omega, by omega, ?_, ?_⟩
    · intro place after before
      have here : start + 1 + (place - (start + 1)) = place := by omega
      rw [levelAt_eq found, ← here, ← List.getElem?_drop]
      exact indented.inside _ (by omega)
    · intro block
      rw [levelAt_eq found, ← List.getElem?_drop]
      exact indented.ended block

theorem endsByMarker_of_marked (found : blocks[start]? = some opener) {branches : List Nat}
    {marker : Nat} (searched : Extent.markedConditional opener.level 0 (start + 1)
      (blocks.drop (start + 1)) = some (branches, marker)) : EndsByMarker blocks start := by
  rcases Extent.markedAt_of_markedConditional _ searched with ⟨offset, rfl, marked, own⟩
  have extent : conditionalExtent blocks start =
      ⟨start, branches, some (start + 1 + offset), true⟩ := by
    rw [conditionalExtent_eq found, Extent.ofConditional, searched]
  have ends : conditionalEnd blocks start = start + 1 + offset := by
    rw [conditionalEnd, extent, Option.getD_some]
  refine ⟨by rw [extent], by rw [ends, extent], ?_, ?_⟩
  · rw [ends]
    exact (markedBy_iff found offset).mpr marked
  · rw [extent, ends]
    intro branch member
    rcases own branch member with ⟨earlier, before, rfl, depth_eq⟩
    have size : start + 1 + earlier - (start + 1) = earlier := by omega
    refine ⟨by omega, ?_⟩
    rw [depthAt?, between, size]
    exact depth_eq

theorem endsByLevel_of_unmarked (found : blocks[start]? = some opener)
    (searched : Extent.markedConditional opener.level 0 (start + 1)
      (blocks.drop (start + 1)) = none) : EndsByLevel blocks start := by
  have bound := (List.getElem?_eq_some_iff.mp found).1
  rcases Extent.indentedTo_of_indentedConditional opener.level (blocks.drop (start + 1))
    (start + 1) with ⟨offset, stop, indented, own⟩
  have inside := indented.bound
  rw [List.length_drop] at inside
  have extent : conditionalExtent blocks start =
      ⟨start, (Extent.indentedConditional opener.level (start + 1)
          (blocks.drop (start + 1))).1,
        if offset < (blocks.drop (start + 1)).length then some (start + 1 + offset) else none,
        false⟩ := by
    rw [conditionalExtent_eq found, Extent.ofConditional, searched, ← stop]
  have ends : conditionalEnd blocks start = start + 1 + offset := by
    rw [conditionalEnd, extent, List.length_drop]
    simp only
    split
    · rfl
    · rw [Option.getD_none]
      omega
  refine ⟨by rw [extent], ?_, ?_, ?_⟩
  · intro marker marked
    have here : start + 1 + (marker - (start + 1)) = marker := by
      have after := marked.after
      omega
    rw [← here, markedBy_iff found] at marked
    rcases marked.exists_branches (start + 1) with ⟨branches, again⟩
    rw [searched] at again
    cases again
  · rw [ends]
    exact (indentedBy_iff found offset).mpr indented
  · rw [extent, ends]
    intro branch member
    rcases own branch member with ⟨earlier, before, block, rfl, foundBranch, level⟩
    rw [List.getElem?_drop] at foundBranch
    exact ⟨by omega, by rw [levelAt_eq foundBranch, levelAt_eq found, level]⟩

theorem endsByMarker_or_endsByLevel (bound : start < blocks.length) :
    EndsByMarker blocks start ∨ EndsByLevel blocks start := by
  have found : blocks[start]? = some blocks[start] := List.getElem?_eq_getElem bound
  cases searched : Extent.markedConditional blocks[start].level 0 (start + 1)
      (blocks.drop (start + 1)) with
  | some result => exact .inl (endsByMarker_of_marked found searched)
  | none => exact .inr (endsByLevel_of_unmarked found searched)

theorem endsByMarker_of_explicit (bound : start < blocks.length)
    (explicit : (conditionalExtent blocks start).explicit = true) : EndsByMarker blocks start := by
  cases endsByMarker_or_endsByLevel bound with
  | inl byMarker => exact byMarker
  | inr byLevel =>
      rw [byLevel.implicit] at explicit
      cases explicit

/-! ## Inside a conditional -/

theorem start_lt_conditionalEnd (bound : start < blocks.length) :
    start < conditionalEnd blocks start := by
  cases endsByMarker_or_endsByLevel bound with
  | inl byMarker => exact byMarker.marked.after
  | inr byLevel => exact byLevel.indented.after

theorem conditionalEnd_le (bound : start < blocks.length) :
    conditionalEnd blocks start ≤ blocks.length := by
  cases endsByMarker_or_endsByLevel bound with
  | inl byMarker =>
      rcases byMarker.marked.marks with ⟨closer, found, _⟩
      exact Nat.le_of_lt (List.getElem?_eq_some_iff.mp found).1
  | inr byLevel => exact byLevel.indented.bound

theorem within_of_lt_conditionalEnd (bound : start < blocks.length) {place : Nat}
    (after : start < place) (before : place < conditionalEnd blocks start) :
    ∃ block, blocks[place]? = some block ∧ block.Within (levelAt blocks start) := by
  cases endsByMarker_or_endsByLevel bound with
  | inl byMarker => exact byMarker.marked.within place after (Nat.le_of_lt before)
  | inr byLevel =>
      rcases byLevel.indented.inside place after before with ⟨block, found, below⟩
      exact ⟨block, found, below.within⟩

theorem exists_depthAt?_of_le_conditionalEnd (bound : start < blocks.length) {place : Nat}
    (before : place ≤ conditionalEnd blocks start) :
    ∃ depth, depthAt? blocks start place = some depth := by
  cases endsByMarker_or_endsByLevel bound with
  | inl byMarker => exact exists_depthAt?_of_le before byMarker.marked.depth_eq
  | inr byLevel =>
      have indented := byLevel.indented
      induction place with
      | zero => exact ⟨0, by simp [depthAt?, between]⟩
      | succ place induction =>
          by_cases after : start < place
          · rcases induction (Nat.le_of_succ_le before) with ⟨depth, known⟩
            rcases indented.inside place after before with ⟨block, found, below⟩
            rw [depthAt?] at known
            rw [depthAt?, between_succ after found, Extent.depthThrough?_append, known,
              Option.bind_some, Extent.depthThrough?_cons]
            cases behind : Extent.depthBehind? depth block with
            | some next => exact ⟨next, rfl⟩
            | none =>
                rcases Extent.depthBehind?_eq_none_iff.mp behind with ⟨rfl, ends⟩
                refine absurd ⟨after, ⟨block, found, ends⟩, known, ?_⟩ (byLevel.unmarked place)
                intro earlier afterStart notLater
                rcases indented.inside earlier afterStart (by omega) with
                  ⟨other, foundOther, passes⟩
                exact ⟨other, foundOther, passes.within⟩
          · refine ⟨0, ?_⟩
            rw [depthAt?, between, show place + 1 - (start + 1) = 0 by omega, List.take_zero]
            rfl

end

/-! ## One conditional inside another -/

section

variable {blocks : List Block} {outer inner : Nat}

/-- Inside a conditional with a marker, another one ends before the marker and keeps the depth above
zero up to its end. -/
theorem EndsByMarker.nested (byMarker : EndsByMarker blocks outer)
    (innerOpens : IsConditional blocks inner) (order : outer < inner)
    (inside : inner < conditionalEnd blocks outer) :
    conditionalEnd blocks inner < conditionalEnd blocks outer ∧
      levelAt blocks outer ≤ levelAt blocks inner ∧
      ∀ place, inner < place → place ≤ conditionalEnd blocks inner →
        ∃ depth, depthAt? blocks outer place = some (depth + 1) := by
  have marked := byMarker.marked
  have innerBound := innerOpens.lt_length
  rcases exists_depthAt?_of_le (Nat.le_of_lt inside) marked.depth_eq with ⟨before, known⟩
  have above : ∀ place, inner < place → place ≤ conditionalEnd blocks inner →
      ∃ depth, depthAt? blocks outer place = some (depth + 1) := by
    intro place after within
    rcases exists_depthAt?_of_le_conditionalEnd innerBound within with ⟨depth, inInner⟩
    refine ⟨before + depth, ?_⟩
    rw [depthAt?_of_opens order after innerOpens known inInner]
    simp only [Option.some.injEq]
    omega
  refine ⟨?_, ?_, above⟩
  · apply Nat.lt_of_not_le
    intro late
    rcases above _ inside late with ⟨depth, positive⟩
    rw [marked.depth_eq] at positive
    cases positive
  · rcases marked.within inner order (Nat.le_of_lt inside) with ⟨block, found, within⟩
    rw [levelAt_eq found]
    exact within.level_le

/-- Inside a conditional without a marker, another one is deeper and ends no later, and before the
end of the outer one if it has a marker. -/
theorem EndsByLevel.nested (byLevel : EndsByLevel blocks outer)
    (innerOpens : IsConditional blocks inner) (order : outer < inner)
    (inside : inner < conditionalEnd blocks outer) :
    levelAt blocks outer < levelAt blocks inner ∧
      conditionalEnd blocks inner ≤ conditionalEnd blocks outer ∧
      ((conditionalExtent blocks inner).explicit = true →
        conditionalEnd blocks inner < conditionalEnd blocks outer) := by
  have indented := byLevel.indented
  have innerBound := innerOpens.lt_length
  have deeper : levelAt blocks outer < levelAt blocks inner := by
    rcases isConditional_iff.mp innerOpens with ⟨opener, found, opens⟩
    rcases indented.inside inner order inside with ⟨block, foundBlock, below⟩
    cases found.symm.trans foundBlock
    rw [levelAt_eq found]
    refine Int.lt_iff_le_and_ne.mpr ⟨below.within.level_le, fun level => ?_⟩
    have branch := below.branch level.symm
    rw [Block.not_isBranch_of_opensConditional opens] at branch
    cases branch
  -- A block within the deeper level does not end the outer conditional.
  have goesOn : ∀ block, blocks[conditionalEnd blocks outer]? = some block →
      ¬block.Within (levelAt blocks inner) := by
    intro block found within
    have level := within.level_le
    refine indented.ended block found ⟨⟨within.running, by omega⟩, fun same => ?_⟩
    omega
  refine ⟨deeper, ?_, ?_⟩
  · apply Nat.le_of_not_lt
    intro late
    rcases within_of_lt_conditionalEnd innerBound inside late with ⟨block, found, within⟩
    exact goesOn block found within
  · intro explicit
    apply Nat.lt_of_not_le
    intro late
    have marked := (endsByMarker_of_explicit innerBound explicit).marked
    rcases marked.within _ inside late with ⟨block, found, within⟩
    exact goesOn block found within

theorem conditionalEnd_le_of_nested (outerOpens : IsConditional blocks outer)
    (innerOpens : IsConditional blocks inner) (order : outer < inner)
    (inside : inner < conditionalEnd blocks outer) :
    conditionalEnd blocks inner ≤ conditionalEnd blocks outer := by
  cases endsByMarker_or_endsByLevel outerOpens.lt_length with
  | inl byMarker => exact Nat.le_of_lt (byMarker.nested innerOpens order inside).1
  | inr byLevel => exact (byLevel.nested innerOpens order inside).2.1

/-! ## Branches -/

theorem branch_between {start branch : Nat}
    (member : branch ∈ (conditionalExtent blocks start).branches) :
    start < branch ∧ branch < conditionalEnd blocks start := by
  have after := (conditionalExtent_ordered blocks start).first_le branch member
  rw [conditionalExtent_start] at after
  by_cases bound : start < blocks.length
  · cases endsByMarker_or_endsByLevel bound with
    | inl byMarker => exact ⟨after, (byMarker.branches branch member).1⟩
    | inr byLevel => exact ⟨after, (byLevel.branches branch member).1⟩
  · rw [conditionalExtent, List.drop_eq_nil_of_le (Nat.le_of_not_lt bound)] at member
    cases member

theorem not_mem_branches_of_mem (outerOpens : IsConditional blocks outer)
    (innerOpens : IsConditional blocks inner) (order : outer < inner) {branch : Nat}
    (member : branch ∈ (conditionalExtent blocks outer).branches) :
    branch ∉ (conditionalExtent blocks inner).branches := by
  intro inInner
  rcases branch_between inInner with ⟨after, before⟩
  cases endsByMarker_or_endsByLevel outerOpens.lt_length with
  | inl byMarker =>
      rcases byMarker.branches branch member with ⟨within, atZero⟩
      rcases (byMarker.nested innerOpens order (Nat.lt_trans after within)).2.2 branch after
        (Nat.le_of_lt before) with ⟨depth, above⟩
      rw [atZero] at above
      cases above
  | inr byLevel =>
      rcases byLevel.branches branch member with ⟨within, sameLevel⟩
      have deeper := (byLevel.nested innerOpens order (Nat.lt_trans after within)).1
      rcases within_of_lt_conditionalEnd innerOpens.lt_length after before with
        ⟨block, found, inside⟩
      have level := inside.level_le
      rw [levelAt_eq found] at sameLevel
      omega

end

/-- Conditionals are nested or apart, and no block is a branch of two of them. The branches of a
conditional lie in order between it and its end. -/
theorem conditionalExtents_nested (blocks : List Block) :
    (∀ outer inner, outer < inner → IsConditional blocks outer → IsConditional blocks inner →
      (inner < conditionalEnd blocks outer →
        conditionalEnd blocks inner ≤ conditionalEnd blocks outer) ∧
      ∀ branch ∈ (conditionalExtent blocks outer).branches,
        branch ∉ (conditionalExtent blocks inner).branches) ∧
    ∀ start, (conditionalExtent blocks start).branches.Pairwise (· < ·) ∧
      ∀ branch ∈ (conditionalExtent blocks start).branches,
        start < branch ∧ branch < conditionalEnd blocks start := by
  constructor
  · intro outer inner order outerOpens innerOpens
    constructor
    · exact conditionalEnd_le_of_nested outerOpens innerOpens order
    · intro branch member
      exact not_mem_branches_of_mem outerOpens innerOpens order member
  · intro start
    constructor
    · exact (conditionalExtent_ordered blocks start).sorted
    · intro branch member
      exact branch_between member

def nestedRow : List Block :=
  [{ content := "If a", kind := .condition },
    { content := "If b", level := 1, kind := .condition },
    { content := "Output x", level := 2, kind := .output },
    { content := "End if", level := 1, kind := .process },
    { content := "Else", kind := .condition, closing := true },
    { content := "Output y", level := 1, kind := .output }]

example : conditionalExtent nestedRow 0 = ⟨0, [4], none, false⟩ ∧
    conditionalExtent nestedRow 1 = ⟨1, [], some 3, true⟩ := by decide

end Flowchart
