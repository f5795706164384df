import Flowchart.Diagnosis
import Flowchart.Proofs.ImplicitElse.Complete
import Mathlib

/-!
Conditionals and end markers in pairs, and what the count of both says about it.

The diagnosis counts the conditionals that are opened and the markers that close one. The search of
a conditional looks for its own marker, and gives up at the end of the program or above its level.
Both agree where no marker comes too early and no conditional is left before its marker.
-/

namespace Flowchart

open Diagnosis

def Finding.isOfConditionals : Finding → Bool
  | .unclosedConditionals _ _ => true
  | .strayEndMarkers _ _ => true
  | _ => false

def IsIfEnd (blocks : List Block) (index : Nat) : Prop :=
  blocks[index]?.any Block.isIfEnd = true

theorem isIfEnd_iff {blocks : List Block} {index : Nat} :
    IsIfEnd blocks index ↔ ∃ closer, blocks[index]? = some closer ∧ closer.isIfEnd = true := by
  simp [IsIfEnd, Option.any_eq_true]

structure EndsInPairs (blocks : List Block) : Prop where
  explicit : ∀ index, IsConditional blocks index →
    (conditionalExtent blocks index).explicit = true
  owned : ∀ marker, IsIfEnd blocks marker →
    ∃! index, IsConditional blocks index ∧ (conditionalExtent blocks index).stop = some marker

/-- At no place more conditionals have been closed than opened. -/
def ClosesWhatOpens (blocks : List Block) : Prop :=
  ∀ count, 0 ≤ conditionalBalance (blocks.take count)

/-- No conditional is left by the end of the program or by its level before it is closed. The depth
behind a conditional is known up to the marker that closes it. -/
def StaysUntilClosed (blocks : List Block) : Prop :=
  ∀ index place block, IsConditional blocks index → index < place →
    (depthAt? blocks index place).isSome = true → blocks[place]? = some block →
      block.Within (levelAt blocks index)

/-! ## The balance and the depth -/

section

variable {depth next : Nat} {block : Block} {blocks : List Block}

@[simp] theorem conditionalBalance_nil : conditionalBalance [] = 0 := rfl

theorem conditionalBalance_cons (block : Block) (rest : List Block) :
    conditionalBalance (block :: rest) =
      (if block.opensConditional then 1 else if block.isIfEnd then -1 else 0) +
        conditionalBalance rest := by
  rw [conditionalBalance, conditionalBalance, List.countP_cons, List.countP_cons]
  cases opens : block.opensConditional with
  | true =>
      simp only [if_true, Bool.not_true, Bool.false_and, Bool.false_eq_true, if_false]
      omega
  | false =>
      cases ends : block.isIfEnd with
      | true =>
          simp only [Bool.false_eq_true, if_false, Bool.not_false, Bool.and_self, if_true]
          omega
      | false =>
          simp only [Bool.false_eq_true, if_false, Bool.not_false, Bool.and_false]
          omega

theorem depthBehind?_cases (depth : Nat) (block : Block) :
    (Extent.depthBehind? depth block = none ∧ depth = 0 ∧
      ∀ rest, conditionalBalance (block :: rest) = conditionalBalance rest - 1) ∨
    ∃ next : Nat, Extent.depthBehind? depth block = some next ∧
      ∀ rest, depth + conditionalBalance (block :: rest) = next + conditionalBalance rest := by
  simp only [conditionalBalance_cons, Extent.depthBehind?]
  cases block.opensConditional with
  | true =>
      right
      exists depth + 1
      simp only [if_true, true_and]
      omega
  | false =>
      cases block.isIfEnd with
      | true =>
          cases depth with
          | zero =>
              left
              simp only [Bool.false_eq_true, if_false, if_true, true_and]
              omega
          | succ depth =>
              right
              exists depth
              simp only [Bool.false_eq_true, if_false, if_true, true_and]
              omega
      | false =>
          right
          exists depth
          simp only [Bool.false_eq_true, if_false, true_and]
          omega

/-- The depth behind a row is the balance, as long as that has never been below zero. -/
theorem depthThrough?_eq_some_iff :
    Extent.depthThrough? depth blocks = some next ↔
      depth + conditionalBalance blocks = next ∧
        ∀ count, 0 ≤ depth + conditionalBalance (blocks.take count) := by
  induction blocks generalizing depth with
  | nil =>
      simp only [Extent.depthThrough?_nil, Option.some.injEq, conditionalBalance_nil,
        List.take_nil, Int.add_zero, Int.natCast_inj, Int.natCast_nonneg, implies_true, and_true]
  | cons block rest induction =>
      rw [Extent.depthThrough?_cons]
      rcases depthBehind?_cases depth block with ⟨behind, rfl, balance⟩ | ⟨later, behind, balance⟩
      · rw [behind, Option.bind_none]
        constructor
        · nofun
        · intro counted
          have first := counted.2 1
          rw [List.take_succ_cons, balance, List.take_zero, conditionalBalance_nil] at first
          omega
      · rw [behind, Option.bind_some, induction, balance]
        apply and_congr_right'
        constructor
        · intro counted count
          cases count with
          | zero => simp
          | succ count =>
              rw [List.take_succ_cons, balance]
              exact counted count
        · intro counted count
          have own := counted (count + 1)
          rwa [List.take_succ_cons, balance] at own

end

theorem isOfConditionals_of_mem_ofStartEnd {blocks : List Block} {finding : Finding}
    (member : finding ∈ ofStartEnd blocks) : finding.isOfConditionals = false := by
  rw [ofStartEnd, List.mem_append] at member
  rcases member with starts | stops
  · split at starts
    · cases List.mem_singleton.mp starts
      rfl
    split at starts
    · cases List.mem_singleton.mp starts
      rfl
    · cases starts
  · split at stops
    · cases List.mem_singleton.mp stops
      rfl
    split at stops
    · cases List.mem_singleton.mp stops
      rfl
    · cases stops

theorem ofConditionals_eq_nil_iff (place : String) (blocks : List Block) :
    ofConditionals place blocks = [] ↔ conditionalBalance blocks = 0 := by
  simp only [ofConditionals]
  split
  case isTrue unclosed =>
    constructor
    · intro none
      cases none
    · omega
  case isFalse =>
    split
    case isTrue stray =>
      constructor
      · intro none
        cases none
      · omega
    case isFalse =>
      constructor
      · omega
      · intro _
        rfl

theorem isOfConditionals_of_mem_ofConditionals {place : String} {blocks : List Block}
    {finding : Finding} (member : finding ∈ ofConditionals place blocks) :
    finding.isOfConditionals = true := by
  simp only [ofConditionals] at member
  split at member
  · cases List.mem_singleton.mp member
    rfl
  split at member
  · cases List.mem_singleton.mp member
    rfl
  · cases member

theorem errors_isOfConditionals_iff (blocks : List Block) (startEnd : Bool) (place : String) :
    (∀ finding ∈ (Diagnosis.ofBlocks blocks startEnd place).errors,
        finding.isOfConditionals = false) ↔ conditionalBalance blocks = 0 := by
  have others : ∀ finding ∈ (if startEnd then ofStartEnd blocks else []),
      finding.isOfConditionals = false := by
    intro finding member
    cases startEnd with
    | false => cases member
    | true => exact isOfConditionals_of_mem_ofStartEnd member
  have own : (∀ finding ∈ ofConditionals place blocks, finding.isOfConditionals = false) ↔
      ofConditionals place blocks = [] := by
    constructor
    · intro none
      apply List.eq_nil_iff_forall_not_mem.mpr
      intro finding member
      have both := none finding member
      rw [isOfConditionals_of_mem_ofConditionals member] at both
      cases both
    · intro none finding member
      rw [none] at member
      cases member
  rw [← ofConditionals_eq_nil_iff place, ← own, Diagnosis.ofBlocks]
  simp only [List.forall_mem_append]
  exact and_iff_right others

/-! ## Open conditionals -/

def depthBefore? (blocks : List Block) (index : Nat) : Option Nat :=
  Extent.depthThrough? 0 (blocks.take index)

section

variable {blocks : List Block} {index place before depth : Nat}

theorem depthBefore?_succ {block : Block} (found : blocks[place]? = some block) :
    depthBefore? blocks (place + 1) =
      (depthBefore? blocks place).bind fun depth => Extent.depthBehind? depth block := by
  have split : blocks.take (place + 1) = blocks.take place ++ [block] := by
    rw [List.take_add_one, found, Option.toList_some]
  rw [depthBefore?, split, Extent.depthThrough?_append]
  apply Option.bind_congr
  intro depth _
  rw [Extent.depthThrough?_cons]
  cases Extent.depthBehind? depth block <;> rfl

theorem depthAt?_succ (order : index < place) {block : Block}
    (found : blocks[place]? = some block) :
    depthAt? blocks index (place + 1) =
      (depthAt? blocks index place).bind fun depth => Extent.depthBehind? depth block := by
  rw [depthAt?, between_succ order found, Extent.depthThrough?_append]
  apply Option.bind_congr
  intro depth _
  rw [Extent.depthThrough?_cons]
  cases Extent.depthBehind? depth block <;> rfl

theorem depthAt?_behind (blocks : List Block) (index : Nat) :
    depthAt? blocks index (index + 1) = some 0 := by
  rw [depthAt?, between, Nat.sub_self, List.take_zero]
  rfl

/-- A block does the same to the conditionals that are open inside another one as to all, unless it
opens that other one or ends it. -/
theorem depthBehind?_inside {block : Block} {behind : Nat}
    (known : Extent.depthBehind? depth block = some behind) (less : before < behind)
    (other : ¬(block.opensConditional = true ∧ before = depth)) :
    before < depth ∧
      Extent.depthBehind? (depth - 1 - before) block = some (behind - 1 - before) := by
  simp only [Extent.depthBehind?] at known ⊢
  cases opens : block.opensConditional with
  | true =>
      simp only [opens, true_and] at other
      simp only [opens, if_true, Option.some.injEq] at known ⊢
      omega
  | false =>
      cases ends : block.isIfEnd with
      | true =>
          cases depth with
          | zero => simp [opens, ends] at known
          | succ depth =>
              simp only [opens, ends, Bool.false_eq_true, if_false, if_true,
                Option.some.injEq] at known
              subst behind
              have deeper : depth + 1 - 1 - before = (depth - 1 - before) + 1 := by omega
              rw [deeper]
              exact ⟨by omega, rfl⟩
      | false =>
          simp only [opens, ends, Bool.false_eq_true, if_false, Option.some.injEq] at known ⊢
          omega

theorem depthBefore?_succ_of_length_le (bound : blocks.length ≤ place) :
    depthBefore? blocks (place + 1) = depthBefore? blocks place := by
  rw [depthBefore?, depthBefore?, List.take_of_length_le (Nat.le_succ_of_le bound),
    List.take_of_length_le bound]

theorem depthAt?_succ_of_length_le (bound : blocks.length ≤ place) (index : Nat) :
    depthAt? blocks index (place + 1) = depthAt? blocks index place := by
  have shorter : (blocks.drop (index + 1)).length ≤ place - (index + 1) := by
    rw [List.length_drop]
    exact Nat.sub_le_sub_right bound _
  rw [depthAt?, depthAt?, between, between, List.take_of_length_le shorter,
    List.take_of_length_le (shorter.trans (Nat.sub_le_sub_right (Nat.le_succ place) _))]

/-- Before each place every conditional that is open was opened at some depth, and has the others
inside it. -/
theorem exists_open_of_depthBefore? (known : depthBefore? blocks place = some depth)
    (less : before < depth) :
    ∃ index < place, IsConditional blocks index ∧ depthBefore? blocks index = some before ∧
      depthAt? blocks index place = some (depth - 1 - before) := by
  induction place generalizing depth with
  | zero =>
      cases known
      cases less
  | succ place induction =>
      cases found : blocks[place]? with
      | none =>
          have bound := List.getElem?_eq_none_iff.mp found
          rw [depthBefore?_succ_of_length_le bound] at known
          obtain ⟨index, order, conditional, opened, inside⟩ := induction known less
          rw [← depthAt?_succ_of_length_le bound] at inside
          exact ⟨index, Nat.lt_succ_of_lt order, conditional, opened, inside⟩
      | some block =>
          rw [depthBefore?_succ found] at known
          obtain ⟨earlier, atPlace, behind⟩ := Option.bind_eq_some_iff.mp known
          -- The block itself opens the innermost conditional, or the conditional was open before.
          by_cases own : block.opensConditional = true ∧ before = earlier
          · rw [Extent.depthBehind?_of_opens own.1] at behind
            cases behind
            have none : earlier + 1 - 1 - before = 0 := by omega
            exact ⟨place, Nat.lt_succ_self place, isConditional_iff.mpr ⟨block, found, own.1⟩,
              own.2 ▸ atPlace, none ▸ depthAt?_behind blocks place⟩
          · obtain ⟨outside, inside⟩ := depthBehind?_inside behind less own
            obtain ⟨index, order, conditional, opened, known⟩ := induction atPlace outside
            refine ⟨index, Nat.lt_succ_of_lt order, conditional, opened, ?_⟩
            rw [depthAt?_succ order found, known, Option.bind_some, inside]

theorem depthBefore?_of_opens (conditional : IsConditional blocks index) (order : index < place)
    (opened : depthBefore? blocks index = some before)
    (inside : depthAt? blocks index place = some depth) :
    depthBefore? blocks place = some (before + 1 + depth) := by
  obtain ⟨opener, found, opens⟩ := isConditional_iff.mp conditional
  have split : blocks.take place = blocks.take index ++ opener :: between blocks index place := by
    have parts : place = index + (place - (index + 1) + 1) := by omega
    conv_lhs => rw [parts, List.take_add, drop_eq_cons found, List.take_succ_cons]
    rfl
  have behind : Extent.depthBehind? before opener = some (before + 1 + 0) :=
    Extent.depthBehind?_of_opens opens
  rw [depthBefore?] at opened ⊢
  rw [split, Extent.depthThrough?_append, opened, Option.bind_some, Extent.depthThrough?_cons,
    behind, Option.bind_some]
  exact Extent.depthThrough?_add inside

theorem exists_depthBefore?_of_le {last : Nat} (order : place ≤ last)
    (known : depthBefore? blocks last = some depth) :
    ∃ before, depthBefore? blocks place = some before := by
  have split : blocks.take last = blocks.take place ++ (blocks.take last).drop place := by
    conv_lhs => rw [← List.take_append_drop place (blocks.take last)]
    rw [List.take_take, Nat.min_eq_left order]
  rw [depthBefore?, split, Extent.depthThrough?_append, Option.bind_eq_some_iff] at known
  obtain ⟨before, known, _⟩ := known
  exact ⟨before, known⟩

/-! ## Markers -/

theorem MarkedBy.depthAt?_eq_none {marker : Nat} (marked : MarkedBy blocks index marker)
    (behind : marker < place) : depthAt? blocks index place = none := by
  obtain ⟨closer, found, ends⟩ := marked.marks
  have closed : depthAt? blocks index (marker + 1) = none := by
    rw [depthAt?_succ marked.after found, marked.depth_eq, Option.bind_some]
    exact Extent.depthBehind?_eq_none_iff.mpr ⟨rfl, ends⟩
  cases known : depthAt? blocks index place with
  | none => rfl
  | some depth =>
      obtain ⟨before, impossible⟩ := exists_depthAt?_of_le behind known
      rw [closed] at impossible
      cases impossible

theorem MarkedBy.unique {first second : Nat} (left : MarkedBy blocks index first)
    (right : MarkedBy blocks index second) : first = second := by
  have own {marker other : Nat} (marked : MarkedBy blocks index marker)
      (otherMarked : MarkedBy blocks index other) : ¬marker < other := by
    intro order
    have none := marked.depthAt?_eq_none order
    rw [otherMarked.depth_eq] at none
    cases none
  have notLess := own left right
  have notGreater := own right left
  omega

theorem MarkedBy.endsByMarker {marker : Nat} (marked : MarkedBy blocks index marker)
    (conditional : IsConditional blocks index) :
    EndsByMarker blocks index ∧ conditionalEnd blocks index = marker := by
  cases endsByMarker_or_endsByLevel conditional.lt_length with
  | inl byMarker => exact ⟨byMarker, byMarker.marked.unique marked⟩
  | inr byLevel => exact absurd marked (byLevel.unmarked marker)

theorem exists_marker_of_depthThrough?_eq_none {rest : List Block}
    (none : Extent.depthThrough? depth rest = none) :
    ∃ offset closer, rest[offset]? = some closer ∧ closer.isIfEnd = true ∧
      Extent.depthThrough? depth (rest.take offset) = some 0 := by
  induction rest generalizing depth with
  | nil => cases none
  | cons block rest induction =>
      rw [Extent.depthThrough?_cons] at none
      cases behind : Extent.depthBehind? depth block with
      | none =>
          obtain ⟨rfl, ends⟩ := Extent.depthBehind?_eq_none_iff.mp behind
          exact ⟨0, block, rfl, ends, rfl⟩
      | some next =>
          rw [behind, Option.bind_some] at none
          obtain ⟨offset, closer, found, ends, through⟩ := induction none
          refine ⟨offset + 1, closer, found, ends, ?_⟩
          rw [List.take_succ_cons, Extent.depthThrough?_cons, behind, Option.bind_some, through]

end

/-! ## Pairs -/

section

variable {blocks : List Block} {index marker : Nat}

theorem EndsInPairs.endsByMarker (pairs : EndsInPairs blocks)
    (conditional : IsConditional blocks index) : EndsByMarker blocks index :=
  endsByMarker_of_explicit conditional.lt_length (pairs.explicit index conditional)

theorem EndsInPairs.depthThrough? (pairs : EndsInPairs blocks) :
    Extent.depthThrough? 0 blocks = some 0 := by
  have whole : depthBefore? blocks blocks.length = Extent.depthThrough? 0 blocks := by
    rw [depthBefore?, List.take_length]
  cases through : Extent.depthThrough? 0 blocks with
  | none =>
      obtain ⟨marker, closer, found, ends, known⟩ := exists_marker_of_depthThrough?_eq_none through
      obtain ⟨index, ⟨conditional, stop⟩, _⟩ :=
        pairs.owned marker (isIfEnd_iff.mpr ⟨closer, found, ends⟩)
      have byMarker := pairs.endsByMarker conditional
      have isEnd : conditionalEnd blocks index = marker := by
        rw [conditionalEnd, stop, Option.getD_some]
      have marked := byMarker.marked
      rw [isEnd] at marked
      obtain ⟨before, opened⟩ := exists_depthBefore?_of_le (Nat.le_of_lt marked.after) known
      have open' := depthBefore?_of_opens conditional marked.after opened marked.depth_eq
      rw [depthBefore?, known, Option.some.injEq] at open'
      omega
  | some depth =>
      cases depth with
      | zero => rfl
      | succ depth =>
          obtain ⟨index, order, conditional, _, inside⟩ :=
            exists_open_of_depthBefore? (whole.trans through) (Nat.lt_succ_self depth)
          have marked := (pairs.endsByMarker conditional).marked
          obtain ⟨closer, found, _⟩ := marked.marks
          have none := marked.depthAt?_eq_none (List.getElem?_eq_some_iff.mp found).1
          rw [inside] at none
          cases none

theorem EndsInPairs.staysUntilClosed (pairs : EndsInPairs blocks) : StaysUntilClosed blocks := by
  intro index place block conditional after known found
  have marked := (pairs.endsByMarker conditional).marked
  by_cases inside : place ≤ conditionalEnd blocks index
  · obtain ⟨other, foundOther, within⟩ := marked.within place after inside
    cases found.symm.trans foundOther
    exact within
  · rw [marked.depthAt?_eq_none (Nat.lt_of_not_le inside)] at known
    cases known

/-- A closing block at depth zero is the marker of a conditional that is not left before. -/
theorem StaysUntilClosed.markedBy (stays : StaysUntilClosed blocks)
    (conditional : IsConditional blocks index) (order : index < marker)
    (ends : IsIfEnd blocks marker) (known : depthAt? blocks index marker = some 0) :
    MarkedBy blocks index marker where
  after := order
  marks := isIfEnd_iff.mp ends
  depth_eq := known
  within place after notLater := by
    obtain ⟨closer, found, _⟩ := isIfEnd_iff.mp ends
    have bound := (List.getElem?_eq_some_iff.mp found).1
    have here : blocks[place]? = some blocks[place] := List.getElem?_eq_getElem (by omega)
    obtain ⟨depth, before⟩ := exists_depthAt?_of_le notLater known
    exact ⟨_, here, stays index place _ conditional after (by rw [before]; rfl) here⟩

theorem exists_markedBy_of_depthThrough? (through : Extent.depthThrough? 0 blocks = some 0)
    (stays : StaysUntilClosed blocks) (conditional : IsConditional blocks index) :
    ∃ marker, MarkedBy blocks index marker := by
  have whole : depthBefore? blocks blocks.length = some 0 := by
    rw [depthBefore?, List.take_length, through]
  have inside : Extent.depthThrough? 0 (blocks.drop (index + 1)) = none := by
    have all : blocks.drop (index + 1) = between blocks index blocks.length := by
      rw [between, List.take_of_length_le (Nat.le_of_eq List.length_drop)]
    rw [all]
    cases known : depthAt? blocks index blocks.length with
    | none => exact known
    | some depth =>
        obtain ⟨before, opened⟩ :=
          exists_depthBefore?_of_le (Nat.le_of_lt conditional.lt_length) whole
        have open' := depthBefore?_of_opens conditional conditional.lt_length opened known
        rw [whole, Option.some.injEq] at open'
        omega
  obtain ⟨offset, closer, found, ends, known⟩ := exists_marker_of_depthThrough?_eq_none inside
  rw [List.getElem?_drop] at found
  have size : index + 1 + offset - (index + 1) = offset := by omega
  exists index + 1 + offset
  apply stays.markedBy conditional (by omega) (isIfEnd_iff.mpr ⟨closer, found, ends⟩)
  rw [depthAt?, between, size]
  exact known

theorem exists_markedBy_of_isIfEnd (through : Extent.depthThrough? 0 blocks = some 0)
    (stays : StaysUntilClosed blocks) (ends : IsIfEnd blocks marker) :
    ∃ index, IsConditional blocks index ∧ MarkedBy blocks index marker := by
  have whole : depthBefore? blocks blocks.length = some 0 := by
    rw [depthBefore?, List.take_length, through]
  obtain ⟨closer, found, isEnd⟩ := isIfEnd_iff.mp ends
  have bound := (List.getElem?_eq_some_iff.mp found).1
  obtain ⟨after, behind⟩ := exists_depthBefore?_of_le (Nat.succ_le_of_lt bound) whole
  rw [depthBefore?_succ found] at behind
  obtain ⟨depth, known, closes⟩ := Option.bind_eq_some_iff.mp behind
  cases depth with
  | zero =>
      rw [Extent.depthBehind?_eq_none_iff.mpr ⟨rfl, isEnd⟩] at closes
      cases closes
  | succ depth =>
      obtain ⟨index, order, conditional, _, inside⟩ :=
        exists_open_of_depthBefore? known (Nat.lt_succ_self depth)
      have zero : depth + 1 - 1 - depth = 0 := by omega
      rw [zero] at inside
      exact ⟨index, conditional, stays.markedBy conditional order ends inside⟩

theorem endsInPairs_of_depthThrough? (through : Extent.depthThrough? 0 blocks = some 0)
    (stays : StaysUntilClosed blocks) : EndsInPairs blocks where
  explicit index conditional := by
    obtain ⟨marker, marked⟩ := exists_markedBy_of_depthThrough? through stays conditional
    exact (marked.endsByMarker conditional).1.explicit
  owned marker ends := by
    obtain ⟨index, conditional, marked⟩ := exists_markedBy_of_isIfEnd through stays ends
    obtain ⟨byMarker, isEnd⟩ := marked.endsByMarker conditional
    refine ⟨index, ⟨conditional, isEnd ▸ byMarker.stop⟩, ?_⟩
    rintro other ⟨otherConditional, stop⟩
    apply ImplicitElse.eq_of_conditionalEnd_eq byMarker conditional otherConditional
    rw [isEnd, conditionalEnd, stop, Option.getD_some]

end

/-- Conditionals and end markers come in pairs just if the diagnosis finds no fault with them, no
marker comes too early, and no conditional is left before its marker. -/
theorem endsInPairs_iff (blocks : List Block) (startEnd : Bool) (place : String) :
    EndsInPairs blocks ↔
      (∀ finding ∈ (Diagnosis.ofBlocks blocks startEnd place).errors,
        finding.isOfConditionals = false) ∧
      ClosesWhatOpens blocks ∧ StaysUntilClosed blocks := by
  have counted : Extent.depthThrough? 0 blocks = some 0 ↔
      conditionalBalance blocks = 0 ∧ ClosesWhatOpens blocks := by
    simp only [depthThrough?_eq_some_iff, ClosesWhatOpens, Int.natCast_zero, Int.zero_add]
  rw [errors_isOfConditionals_iff, ← and_assoc, ← counted]
  constructor
  · intro pairs
    exact ⟨pairs.depthThrough?, pairs.staysUntilClosed⟩
  · rintro ⟨through, stays⟩
    exact endsInPairs_of_depthThrough? through stays

def markerFirst : List Block :=
  outline "Start\nEnd if\nIf a\n    Output x\nEnd".toList

/-- A balanced count does not make pairs of conditionals and markers. -/
theorem exists_silent_unpaired : ¬∀ (blocks : List Block) (startEnd : Bool) (place : String),
    (∀ finding ∈ (Diagnosis.ofBlocks blocks startEnd place).errors,
      finding.isOfConditionals = false) ↔ EndsInPairs blocks := by
  intro all
  have silent : ∀ finding ∈ (Diagnosis.ofBlocks markerFirst true "").errors,
      finding.isOfConditionals = false := by
    decide +kernel
  have conditional : IsConditional markerFirst 2 := by decide +kernel
  have unmarked : (conditionalExtent markerFirst 2).explicit = false := by decide +kernel
  have explicit := ((all markerFirst true "").mp silent).explicit 2 conditional
  rw [unmarked] at explicit
  cases explicit

end Flowchart
