import Flowchart.Proofs.Extent.Body
import Flowchart.Proofs.Structured.Shaped

/-!
Trees of constructs that are closed by lines of their own, and how far the constructs reach.

The search for the lines of one form of constructs passes over every part of a tree at once, so that
it finds the headers and the end line that belong to a construct in the tree.
-/

namespace Flowchart.Structured

/-! ## Trees -/

inductive Region
  | statements
  | arms (form : Form)
deriving DecidableEq, Repr

/-- A row of statements, each of them a line or a construct with an end line of its own. What a line
is, a text or a block, is left open. -/
inductive Tree (α : Type) : Region → Type
  | done : Tree α .statements
  | simple (line : α) (rest : Tree α .statements) : Tree α .statements
  | construct (form : Form) (opener : α) (body : Tree α .statements) (arms : Tree α (.arms form))
      (closer : α) (rest : Tree α .statements) : Tree α .statements
  | noArm (form : Form) : Tree α (.arms form)
  | arm (form : Form) (header : α) (body : Tree α .statements) (arms : Tree α (.arms form)) :
      Tree α (.arms form)

namespace Tree

variable {α : Type} {region : Region}

def lines {region : Region} : Tree α region → List α
  | .done => []
  | .simple line rest => line :: rest.lines
  | .construct _ opener body arms closer rest =>
      opener :: (body.lines ++ (arms.lines ++ closer :: rest.lines))
  | .noArm _ => []
  | .arm _ header body arms => header :: (body.lines ++ arms.lines)

def size {region : Region} : Tree α region → Nat
  | .done => 0
  | .simple _ rest => 1 + rest.size
  | .construct _ _ body arms _ rest => 1 + body.size + arms.size + 1 + rest.size
  | .noArm _ => 0
  | .arm _ _ body arms => 1 + body.size + arms.size

theorem length_lines (tree : Tree α region) : tree.lines.length = tree.size := by
  induction tree with
  | done => rfl
  | simple line rest induction =>
      rw [lines, size, List.length_cons, induction, Nat.add_comm]
  | construct form opener body arms closer rest bodyInd armsInd restInd =>
      simp only [lines, size, List.length_cons, List.length_append, bodyInd, armsInd, restInd]
      omega
  | noArm form => rfl
  | arm form header body arms bodyInd armsInd =>
      simp only [lines, size, List.length_cons, List.length_append, bodyInd, armsInd]
      omega

theorem eq_done_of_size {tree : Tree α .statements} (none : tree.size = 0) : tree = .done := by
  cases tree with
  | done => rfl
  | simple line rest =>
      rw [size] at none
      omega
  | construct form opener body arms closer rest =>
      rw [size] at none
      omega

def heads {region : Region} (index : Nat) : Tree α region → List Nat
  | .arm _ _ body arms => index :: arms.heads (index + 1 + body.size)
  | _ => []

theorem drop_add_size {all more : List α} {index : Nat} {tree : Tree α region}
    (suffix : all.drop index = tree.lines ++ more) : all.drop (index + tree.size) = more := by
  rw [← List.drop_drop, suffix, ← tree.length_lines, List.drop_left]

def Shaped {region : Region} (level : Int) : Tree Block region → Prop
  | .done => True
  | .simple line rest => line.IsPlain ∧ line.level = level ∧ rest.Shaped level
  | .construct form opener body arms closer rest =>
      form.opens opener = true ∧ opener.level = level ∧ body.Shaped (level + 1) ∧
        arms.Shaped level ∧ form.closes closer = true ∧ closer.level = level ∧ rest.Shaped level
  | .noArm _ => True
  | .arm form header body arms =>
      form.heads header = true ∧ header.level = level ∧ body.Shaped (level + 1) ∧
        arms.Shaped level

end Tree

/-! ## Searching a tree -/

namespace Tree

section

variable {region : Region} {tree : Tree Block region} {level base : Int} {form : Form}

theorem search_lines (marked : form ≠ .loop) (shaped : tree.Shaped level) (above : base ≤ level)
    (depth index : Nat) (more : List Block) :
    search form base depth index (tree.lines ++ more) =
      collected (if region = .arms form ∧ depth = 0 then tree.heads index else [])
        (search form base depth (index + tree.size) more) := by
  induction tree generalizing level depth index more with
  | done => simp [lines, size]
  | simple line rest restInd =>
      obtain ⟨plain, rfl, restShaped⟩ := shaped
      rw [lines, size, List.cons_append, search_simple depth index _ plain marked above,
        restInd restShaped above, Nat.add_assoc]
      rfl
  | construct own opener body arms closer rest bodyInd armsInd restInd =>
      obtain ⟨opens, rfl, bodyShaped, armsShaped, ends, sameLevel, restShaped⟩ := shaped
      have inside : ∀ depth, search form base depth (index + 1)
          (body.lines ++ (arms.lines ++ closer :: (rest.lines ++ more))) =
          collected (if own = form ∧ depth = 0 then arms.heads (index + 1 + body.size) else [])
            (search form base depth (index + 1 + body.size + arms.size)
              (closer :: (rest.lines ++ more))) := by
        intro depth
        rw [bodyInd bodyShaped (Int.le_add_one above), armsInd armsShaped above]
        simp
      simp only [lines, size, List.cons_append, List.append_assoc]
      rw [search_construct depth index marked opens ends above (by omega) inside,
        restInd restShaped above]
      simp [Nat.add_assoc]
  | noArm own => simp [lines, size, heads]
  | arm own header body arms bodyInd armsInd =>
      obtain ⟨isHeader, rfl, bodyShaped, armsShaped⟩ := shaped
      have inside : search form base depth (index + 1) (body.lines ++ (arms.lines ++ more)) =
          collected (if own = form ∧ depth = 0 then arms.heads (index + 1 + body.size) else [])
            (search form base depth (index + 1 + body.size + arms.size) more) := by
        rw [bodyInd bodyShaped (Int.le_add_one above), armsInd armsShaped above]
        simp
      simp only [lines, List.cons_append, List.append_assoc]
      rw [search_arm depth index isHeader above inside]
      simp only [heads, size, Region.arms.injEq, Nat.add_assoc]

theorem within_of_mem (shaped : tree.Shaped level) {block : Block} (member : block ∈ tree.lines) :
    block.Within level := by
  induction tree generalizing level with
  | done => cases member
  | simple line rest restInd =>
      obtain ⟨plain, rfl, restShaped⟩ := shaped
      cases member with
      | head => exact ⟨Block.ne_of_plain plain.kind (by decide), Int.le_refl _⟩
      | tail _ later => exact restInd restShaped later
  | construct own opener body arms closer rest bodyInd armsInd restInd =>
      obtain ⟨opens, rfl, bodyShaped, armsShaped, ends, sameLevel, restShaped⟩ := shaped
      simp only [lines, List.mem_cons, List.mem_append] at member
      obtain rfl | inBody | inArms | rfl | later := member
      · have running :=
          Form.ne_process_and_ne_stop_of_mem_kinds own _ (Form.kind_mem_of_opens opens)
        exact ⟨running.2, Int.le_refl _⟩
      · have inside := bodyInd bodyShaped inBody
        exact ⟨inside.running, by have := inside.level_le; omega⟩
      · exact armsInd armsShaped inArms
      · exact ⟨by simp [Form.kind_of_closes ends], Int.le_of_eq sameLevel.symm⟩
      · exact restInd restShaped later
  | noArm own => cases member
  | arm own header body arms bodyInd armsInd =>
      obtain ⟨isHeader, rfl, bodyShaped, armsShaped⟩ := shaped
      simp only [lines, List.mem_cons, List.mem_append] at member
      obtain rfl | inBody | inArms := member
      · have running :=
          Form.ne_process_and_ne_stop_of_mem_kinds own _ (Form.kind_mem_of_heads isHeader)
        exact ⟨running.2, Int.le_refl _⟩
      · have inside := bodyInd bodyShaped inBody
        exact ⟨inside.running, by have := inside.level_le; omega⟩
      · exact armsInd armsShaped inArms

end

end Tree

/-! ## Extents -/

namespace Tree

def Recovered {region : Region} (blocks : List Block) (index : Nat) : Tree Block region → Prop
  | .done => True
  | .simple _ rest => rest.Recovered blocks (index + 1)
  | .construct form _ body arms _ rest =>
      let armsAt := index + 1 + body.size
      let stop := armsAt + arms.size
      form.Reaches blocks index body.size (arms.heads armsAt) stop ∧
        body.Recovered blocks (index + 1) ∧ arms.Recovered blocks armsAt ∧
        rest.Recovered blocks (stop + 1)
  | .noArm _ => True
  | .arm _ _ body arms =>
      body.Recovered blocks (index + 1) ∧ arms.Recovered blocks (index + 1 + body.size)

section

variable {blocks more : List Block} {index : Nat} {level : Int} {opener closer : Block}

theorem reaches_loop {body : Tree Block .statements} (shaped : body.Shaped (opener.level + 1))
    (sameLevel : closer.level = opener.level)
    (suffix : blocks.drop index = opener :: (body.lines ++ closer :: more)) (heads : List Nat) :
    Form.loop.Reaches blocks index body.size heads (index + 1 + body.size) := by
  have inside : ∀ block ∈ body.lines,
      (opener.level < block.level && block.kind != .stop) = true := by
    intro block member
    have within := within_of_mem shaped member
    have deeper := within.level_le
    simp only [Bool.and_eq_true, decide_eq_true_eq, bne_iff_ne]
    exact ⟨by omega, within.running⟩
  have length : Extent.bodyLength opener.level (body.lines ++ closer :: more) = body.size := by
    rw [Extent.bodyLength, List.takeWhile_append_of_pos inside]
    simp [sameLevel, length_lines]
  have room : body.size < (body.lines ++ closer :: more).length := by
    rw [List.length_append, List.length_cons, length_lines]
    omega
  simp only [Form.Reaches, loopExtent, suffix, Extent.ofLoop, length, if_pos room]

theorem reaches_of_lines {form : Form} {body rest : Tree Block .statements}
    {arms : Tree Block (.arms form)}
    (shaped : (construct form opener body arms closer rest).Shaped level)
    (suffix : blocks.drop index = (construct form opener body arms closer rest).lines ++ more) :
    form.Reaches blocks index body.size (arms.heads (index + 1 + body.size))
      (index + 1 + body.size + arms.size) := by
  obtain ⟨opens, rfl, bodyShaped, armsShaped, ends, sameLevel, _⟩ := shaped
  simp only [lines, List.cons_append, List.append_assoc] at suffix
  by_cases isLoop : form = .loop
  · subst isLoop
    cases arms with
    | arm _ header armBody others => cases armsShaped.1
    | noArm => exact reaches_loop bodyShaped sameLevel suffix _
  · apply Form.reaches_of_search isLoop suffix
    rw [search_lines isLoop bodyShaped (Int.le_add_one (Int.le_refl _)),
      search_lines isLoop armsShaped (Int.le_refl _),
      search_marker _ _ isLoop ends (Int.le_of_eq sameLevel.symm)]
    simp [collected]

/-- In a row in which a tree stands, all its constructs have the extents that it shows. -/
theorem Shaped.recovered {region : Region} {tree : Tree Block region} (shaped : tree.Shaped level)
    (suffix : blocks.drop index = tree.lines ++ more) : tree.Recovered blocks index := by
  induction tree generalizing level index more with
  | done => trivial
  | simple line rest restInd =>
      exact restInd shaped.2.2 (Part.StandsAt.getElem?_of_drop suffix).2
  | construct form opener body arms closer rest bodyInd armsInd restInd =>
      have reaches := reaches_of_lines shaped suffix
      obtain ⟨_, _, bodyShaped, armsShaped, _, _, restShaped⟩ := shaped
      simp only [lines, List.cons_append, List.append_assoc] at suffix
      have inBody := (Part.StandsAt.getElem?_of_drop suffix).2
      have inArms := drop_add_size inBody
      have behind := (Part.StandsAt.getElem?_of_drop (drop_add_size inArms)).2
      exact ⟨reaches, bodyInd bodyShaped inBody, armsInd armsShaped inArms,
        restInd restShaped behind⟩
  | noArm form => trivial
  | arm form header body arms bodyInd armsInd =>
      obtain ⟨_, _, bodyShaped, armsShaped⟩ := shaped
      simp only [lines, List.cons_append, List.append_assoc] at suffix
      have inBody := (Part.StandsAt.getElem?_of_drop suffix).2
      exact ⟨bodyInd bodyShaped inBody, armsInd armsShaped (drop_add_size inBody)⟩

end

end Tree

end Flowchart.Structured
