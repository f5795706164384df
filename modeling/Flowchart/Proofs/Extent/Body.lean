import Flowchart.Extent

/-!
Where the bodies of loops lie.

A body is the longest run of deeper blocks behind its loop. Two bodies are therefore disjoint, or
one of them lies inside the other.
-/

namespace Flowchart

namespace Extent

theorem lt_bodyLength_iff (base : Int) (rest : List Block) (offset : Nat) :
    offset < bodyLength base rest ↔
      ∀ earlier ≤ offset, ∃ block,
        rest[earlier]? = some block ∧ base < block.level ∧ block.kind ≠ .stop := by
  induction rest generalizing offset with
  | nil => simpa [bodyLength] using ⟨0, Nat.zero_le offset⟩
  | cons head tail induction =>
      by_cases nested : base < head.level ∧ head.kind ≠ .stop
      · have unfolded : bodyLength base (head :: tail) = bodyLength base tail + 1 := by
          simp [bodyLength, nested]
        rw [unfolded]
        cases offset with
        | zero => simpa using nested
        | succ offset =>
            rw [Nat.succ_lt_succ_iff, induction]
            constructor
            · intro deeper earlier bound
              cases earlier with
              | zero => exact ⟨head, rfl, nested⟩
              | succ earlier => exact deeper earlier (by omega)
            · intro deeper earlier bound
              exact deeper (earlier + 1) (by omega)
      · have unfolded : bodyLength base (head :: tail) = 0 := by
          simp only [bodyLength, List.takeWhile_cons]
          simpa using nested
        rw [unfolded]
        constructor
        · intro impossible
          omega
        · intro deeper
          rcases deeper 0 (Nat.zero_le _) with ⟨block, found, deep⟩
          cases found
          exact absurd deep nested

theorem bodyLength_le (base : Int) (rest : List Block) : bodyLength base rest ≤ rest.length :=
  (List.takeWhile_sublist _).length_le

end Extent

/-! ## Extents by the block that opens them -/

theorem drop_eq_cons {blocks : List Block} {index : Nat} {block : Block}
    (found : blocks[index]? = some block) :
    blocks.drop index = block :: blocks.drop (index + 1) := by
  rcases List.getElem?_eq_some_iff.mp found with ⟨bound, rfl⟩
  exact List.drop_eq_getElem_cons bound

theorem loopExtent_eq {blocks : List Block} {index : Nat} {opener : Block}
    (found : blocks[index]? = some opener) :
    loopExtent blocks index = Extent.ofLoop index opener (blocks.drop (index + 1)) := by
  rw [loopExtent, drop_eq_cons found]

/-! ## Bodies of loops -/

/-- The last block that a loop repeats, the loop itself if its body is empty. A block that is no
loop stands for itself. -/
def bodyEnd (blocks : List Block) (index : Nat) : Nat :=
  match blocks[index]? with
  | some opener =>
      if opener.kind = .loop then
        index + Extent.bodyLength opener.level (blocks.drop (index + 1))
      else index
  | none => index

def IsLoop (blocks : List Block) (index : Nat) : Prop :=
  blocks[index]?.map Block.kind = some .loop

instance (blocks : List Block) (index : Nat) : Decidable (IsLoop blocks index) :=
  inferInstanceAs (Decidable (_ = _))

structure InBody (blocks : List Block) (loop index : Nat) : Prop where
  isLoop : IsLoop blocks loop
  after : loop < index
  within : index ≤ bodyEnd blocks loop

instance (blocks : List Block) (loop index : Nat) : Decidable (InBody blocks loop index) :=
  decidable_of_iff (IsLoop blocks loop ∧ loop < index ∧ index ≤ bodyEnd blocks loop)
    ⟨fun ⟨isLoop, after, within⟩ => ⟨isLoop, after, within⟩,
      fun inside => ⟨inside.isLoop, inside.after, inside.within⟩⟩

section

variable {blocks : List Block} {loop index inner outer : Nat}

theorem isLoop_iff :
    IsLoop blocks index ↔ ∃ opener, blocks[index]? = some opener ∧ opener.kind = .loop := by
  simp [IsLoop]

theorem bodyEnd_of_loop {opener : Block} (found : blocks[loop]? = some opener)
    (kind : opener.kind = .loop) :
    bodyEnd blocks loop =
      loop + Extent.bodyLength opener.level (blocks.drop (loop + 1)) := by
  simp [bodyEnd, found, kind]

theorem bodyEnd_of_not_loop (other : ¬IsLoop blocks index) : bodyEnd blocks index = index := by
  unfold bodyEnd
  cases found : blocks[index]? with
  | none => rfl
  | some block =>
      have different : block.kind ≠ .loop := fun kind => other (isLoop_iff.mpr ⟨block, found, kind⟩)
      simp [different]

theorem le_bodyEnd (blocks : List Block) (index : Nat) : index ≤ bodyEnd blocks index := by
  unfold bodyEnd
  split
  · split <;> omega
  · omega

theorem InBody.of_le_bodyEnd (after : loop < index) (within : index ≤ bodyEnd blocks loop) :
    InBody blocks loop index := by
  by_cases isLoop : IsLoop blocks loop
  · exact ⟨isLoop, after, within⟩
  · rw [bodyEnd_of_not_loop isLoop] at within
    omega

theorem bodyEnd_lt (bound : index < blocks.length) : bodyEnd blocks index < blocks.length := by
  have length := Extent.bodyLength_le blocks[index].level (blocks.drop (index + 1))
  rw [List.length_drop] at length
  simp only [bodyEnd, List.getElem?_eq_getElem bound]
  split <;> omega

/-- A position belongs to the body of a loop when everything from the loop to it is deeper than the
loop and no end. -/
theorem le_bodyEnd_iff {opener : Block} (found : blocks[loop]? = some opener)
    (kind : opener.kind = .loop) (after : loop < index) :
    index ≤ bodyEnd blocks loop ↔
      ∀ between, loop < between → between ≤ index → ∃ block,
        blocks[between]? = some block ∧ opener.level < block.level ∧ block.kind ≠ .stop := by
  have shifted : index ≤ bodyEnd blocks loop ↔
      index - loop - 1 < Extent.bodyLength opener.level (blocks.drop (loop + 1)) := by
    rw [bodyEnd_of_loop found kind]
    omega
  rw [shifted, Extent.lt_bodyLength_iff]
  constructor
  · intro deeper between above below
    have nested := deeper (between - loop - 1) (by omega)
    rw [List.getElem?_drop, show loop + 1 + (between - loop - 1) = between by omega] at nested
    exact nested
  · intro deeper earlier bound
    rw [List.getElem?_drop]
    exact deeper (loop + 1 + earlier) (by omega) (by omega)

theorem InBody.deeper {opener block : Block} (inside : InBody blocks loop index)
    (found : blocks[loop]? = some opener) (foundBlock : blocks[index]? = some block) :
    opener.level < block.level ∧ block.kind ≠ .stop := by
  rcases isLoop_iff.mp inside.isLoop with ⟨known, knownFound, kind⟩
  cases knownFound.symm.trans found
  have nested := (le_bodyEnd_iff found kind inside.after).mp inside.within
    index inside.after (Nat.le_refl index)
  rw [foundBlock] at nested
  rcases nested with ⟨_, same, deep⟩
  cases same
  exact deep

theorem InBody.bodyEnd_le (inside : InBody blocks outer inner) :
    bodyEnd blocks inner ≤ bodyEnd blocks outer := by
  by_cases innerLoop : IsLoop blocks inner
  · rcases isLoop_iff.mp inside.isLoop with ⟨opener, found, kind⟩
    rcases isLoop_iff.mp innerLoop with ⟨innerOpener, innerFound, innerKind⟩
    have deep := (inside.deeper found innerFound).1
    rcases Nat.lt_or_ge inner (bodyEnd blocks inner) with nonempty | empty
    · apply (le_bodyEnd_iff found kind (Nat.lt_trans inside.after nonempty)).mpr
      intro between above below
      rcases Nat.lt_or_ge inner between with late | early
      · rcases (le_bodyEnd_iff innerFound innerKind nonempty).mp (Nat.le_refl _) between late below
          with ⟨block, foundBlock, deeper, running⟩
        exact ⟨block, foundBlock, Int.lt_trans deep deeper, running⟩
      · exact (le_bodyEnd_iff found kind inside.after).mp inside.within between above early
    · exact Nat.le_trans empty inside.within
  · rw [bodyEnd_of_not_loop innerLoop]
    exact inside.within

theorem bodyEnd_le_bodyEnd (after : outer ≤ inner) (within : inner ≤ bodyEnd blocks outer) :
    bodyEnd blocks inner ≤ bodyEnd blocks outer := by
  rcases Nat.lt_or_eq_of_le after with later | same
  · exact (InBody.of_le_bodyEnd later within).bodyEnd_le
  · exact Nat.le_of_eq (congrArg (bodyEnd blocks) same.symm)

theorem InBody.trans (outside : InBody blocks outer inner) (inside : InBody blocks inner index) :
    InBody blocks outer index where
  isLoop := outside.isLoop
  after := Nat.lt_trans outside.after inside.after
  within := Nat.le_trans inside.within outside.bodyEnd_le

theorem InBody.nested (outside : InBody blocks outer index) (inside : InBody blocks inner index)
    (order : outer < inner) : InBody blocks outer inner where
  isLoop := outside.isLoop
  after := order
  within := Nat.le_trans (Nat.le_of_lt inside.after) outside.within

/-! ## The extent of a loop -/

theorem loopExtent_start (blocks : List Block) (index : Nat) :
    (loopExtent blocks index).start = index := by
  unfold loopExtent
  split <;> rfl

theorem loopExtent_last (isLoop : IsLoop blocks loop) :
    (loopExtent blocks loop).last =
      if bodyEnd blocks loop = loop then none else some (bodyEnd blocks loop) := by
  rcases isLoop_iff.mp isLoop with ⟨opener, found, kind⟩
  rw [loopExtent_eq found, bodyEnd_of_loop found kind]
  simp [Extent.ofLoop]

theorem loopExtent_last_getD (isLoop : IsLoop blocks loop) :
    (loopExtent blocks loop).last.getD loop = bodyEnd blocks loop := by
  rw [loopExtent_last isLoop]
  split
  · rename_i empty
    exact empty.symm
  · rfl

theorem loopExtent_close (isLoop : IsLoop blocks loop) :
    (loopExtent blocks loop).close =
      if bodyEnd blocks loop + 1 < blocks.length then some (bodyEnd blocks loop + 1) else none := by
  rcases isLoop_iff.mp isLoop with ⟨opener, found, kind⟩
  rcases List.getElem?_eq_some_iff.mp found with ⟨bound, _⟩
  rw [loopExtent_eq found, bodyEnd_of_loop found kind]
  simp only [Extent.ofLoop, List.length_drop]
  by_cases room :
      loop + Extent.bodyLength opener.level (blocks.drop (loop + 1)) + 1 < blocks.length
  · rw [if_pos room, if_pos (by omega), Nat.add_right_comm]
  · rw [if_neg room, if_neg (by omega)]

theorem loopExtent_close_getD (isLoop : IsLoop blocks loop) :
    (loopExtent blocks loop).close.getD blocks.length = bodyEnd blocks loop + 1 := by
  rcases isLoop_iff.mp isLoop with ⟨opener, found, _⟩
  have bound := bodyEnd_lt (List.getElem?_eq_some_iff.mp found).1
  rw [loopExtent_close isLoop]
  split
  · rfl
  · simp only [Option.getD_none]
    omega

end

end Flowchart
