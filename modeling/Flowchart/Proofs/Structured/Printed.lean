import Flowchart.Proofs.Outline.Seen
import Flowchart.Proofs.Structured.Layout
import Flowchart.Proofs.Structured.Tree

/-!
Printing trees of statements, and reading the printed text.

Every line is printed on a line of its own, indented by one fixed unit for each level of bodies and
once more below a switch. The outline of the printed text is the tree again: a part is printed from
a ladder on which its place is open, and leaves a ladder on which it is open once more.
-/

namespace Flowchart.Structured

open Text

/-! ## Printing -/

def indented (unit : List Char) (depth : Nat) (text : List Char) : List Char :=
  (List.replicate depth unit).flatten ++ text

def Form.armDepth (form : Form) (depth : Nat) : Nat :=
  match form with
  | .switch => depth + 1
  | _ => depth

def Tree.printed {region : Region} (unit : List Char) (depth : Nat) :
    Tree (List Char) region → List (List Char)
  | .done => []
  | .simple text rest => indented unit depth text :: rest.printed unit depth
  | .construct form opener body arms closer rest =>
      indented unit depth opener ::
        (body.printed unit (depth + 1) ++ (arms.printed unit (form.armDepth depth) ++
          indented unit depth closer :: rest.printed unit depth))
  | .noArm _ => []
  | .arm _ header body arms =>
      indented unit depth header :: (body.printed unit (depth + 1) ++ arms.printed unit depth)

structure IsUnit (unit : List Char) : Prop where
  nonempty : unit ≠ []
  indents : unit.all isIndent = true

instance (unit : List Char) : Decidable (IsUnit unit) :=
  decidable_of_iff (unit ≠ [] ∧ unit.all isIndent = true)
    ⟨fun ⟨nonempty, indents⟩ => ⟨nonempty, indents⟩,
      fun isUnit => ⟨isUnit.nonempty, isUnit.indents⟩⟩

structure IsEntry (text : List Char) : Prop where
  filled : Outline.content text ≠ []
  flush : text.head?.any isIndent = false
  unbroken : text.any isLineBreak = false

instance (text : List Char) : Decidable (IsEntry text) :=
  decidable_of_iff (Outline.content text ≠ [] ∧ text.head?.any isIndent = false ∧
      text.any isLineBreak = false)
    ⟨fun ⟨filled, flush, unbroken⟩ => ⟨filled, flush, unbroken⟩,
      fun isEntry => ⟨isEntry.filled, isEntry.flush, isEntry.unbroken⟩⟩

instance (words : List Phrase) (line : List Char) : Decidable (IsSimple words line) :=
  decidable_of_iff ((blockAt 0 line).kind ∈ Block.Kind.plain ∧ (blockAt 0 line).isIfEnd = false ∧
      (blockAt 0 line).isSwitchEnd = false ∧
      Phrase.anyBegins fold words (Outline.content line) = false)
    ⟨fun ⟨kind, noIfEnd, noSwitchEnd, noWord⟩ => ⟨⟨kind, noIfEnd, noSwitchEnd⟩, noWord⟩,
      fun simple => ⟨simple.plain.kind, simple.plain.noIfEnd, simple.plain.noSwitchEnd,
        simple.noWord⟩⟩

namespace Tree

/-- The texts of a tree are such as their places ask for. Nothing stands between a switch and its
first case. -/
def Formed {region : Region} (words : List Phrase) : Tree (List Char) region → Prop
  | .done => True
  | .simple text rest => IsEntry text ∧ IsSimple words text ∧ rest.Formed words
  | .construct form opener body arms closer rest =>
      IsEntry opener ∧ form.opens (blockAt 0 opener) = true ∧ (form = .switch → body.size = 0) ∧
        body.Formed words ∧ arms.Formed words ∧
        IsEntry closer ∧ form.closes (blockAt 0 closer) = true ∧ rest.Formed words
  | .noArm _ => True
  | .arm form header body arms =>
      IsEntry header ∧ form.heads (blockAt 0 header) = true ∧ body.Formed words ∧ arms.Formed words

instance decidableFormed {region : Region} (words : List Phrase) :
    (tree : Tree (List Char) region) → Decidable (tree.Formed words)
  | .done => inferInstanceAs (Decidable True)
  | .simple _ rest =>
      have := decidableFormed words rest
      inferInstanceAs (Decidable (_ ∧ _ ∧ _))
  | .construct _ _ body arms _ rest =>
      have := decidableFormed words body
      have := decidableFormed words arms
      have := decidableFormed words rest
      inferInstanceAs (Decidable (_ ∧ _ ∧ (_ → _) ∧ _ ∧ _ ∧ _ ∧ _ ∧ _))
  | .noArm _ => inferInstanceAs (Decidable True)
  | .arm _ _ body arms =>
      have := decidableFormed words body
      have := decidableFormed words arms
      inferInstanceAs (Decidable (_ ∧ _ ∧ _ ∧ _))

def outlined {region : Region} (level : Nat) : Tree (List Char) region → Tree Block region
  | .done => .done
  | .simple text rest => .simple (blockAt level text) (rest.outlined level)
  | .construct form opener body arms closer rest =>
      .construct form (blockAt level opener) (body.outlined (level + 1)) (arms.outlined level)
        (blockAt level closer) (rest.outlined level)
  | .noArm form => .noArm form
  | .arm form header body arms =>
      .arm form (blockAt level header) (body.outlined (level + 1)) (arms.outlined level)

theorem Formed.shaped {region : Region} {words : List Phrase} {tree : Tree (List Char) region}
    (formed : tree.Formed words) (level : Nat) : (tree.outlined level).Shaped (level : Int) := by
  induction tree generalizing level with
  | done => trivial
  | simple text rest restInd =>
      obtain ⟨_, simple, rest⟩ := formed
      exact ⟨isPlain_blockAt _ simple.plain, rfl, restInd rest level⟩
  | construct form opener body arms closer rest bodyInd armsInd restInd =>
      obtain ⟨_, opens, _, body, arms, _, closes, rest⟩ := formed
      refine ⟨?_, rfl, bodyInd body (level + 1), armsInd arms level, ?_, rfl, restInd rest level⟩
      · cases form <;> exact opens
      · cases form <;> exact closes
  | noArm form => trivial
  | arm form header body arms bodyInd armsInd =>
      obtain ⟨_, heads, body, arms⟩ := formed
      refine ⟨?_, rfl, bodyInd body (level + 1), armsInd arms level⟩
      cases form <;> exact heads

end Tree

/-! ## Printed lines -/

section

variable {unit text : List Char}

theorem columns_replicate (unit : List Char) (depth : Nat) :
    Outline.columns (List.replicate depth unit).flatten = depth * Outline.columns unit := by
  induction depth with
  | zero => exact (Nat.zero_mul _).symm
  | succ depth induction =>
      rw [List.replicate_succ, List.flatten_cons, Outline.columns_append, induction, Nat.succ_mul,
        Nat.add_comm]

theorem IsUnit.columns_pos (isUnit : IsUnit unit) : 0 < Outline.columns unit := by
  cases unit with
  | nil => exact absurd rfl isUnit.nonempty
  | cons c rest =>
      rw [Outline.columns]
      split <;> omega

theorem IsUnit.isIndent_of_mem (isUnit : IsUnit unit) (depth : Nat) :
    ∀ c ∈ (List.replicate depth unit).flatten, isIndent c = true := by
  intro c member
  obtain ⟨copy, isCopy, inside⟩ := List.mem_flatten.mp member
  exact List.all_eq_true.mp isUnit.indents c (List.eq_of_mem_replicate isCopy ▸ inside)

theorem content_indented (isUnit : IsUnit unit) (depth : Nat) (text : List Char) :
    Outline.content (indented unit depth text) = Outline.content text :=
  Outline.content_append_of_isBlank
    (fun c member => isBlank_of_isIndent (isUnit.isIndent_of_mem depth c member)) text

theorem IsEntry.isIndented (isEntry : IsEntry text) (isUnit : IsUnit unit) (depth : Nat) :
    IsIndented (depth * Outline.columns unit) (indented unit depth text) where
  width := by
    have none : text.takeWhile isIndent = [] := by
      cases text with
      | nil => rfl
      | cons c rest => exact List.takeWhile_cons_of_neg (by simpa using isEntry.flush)
    rw [Outline.indentation, indented,
      List.takeWhile_append_of_pos (isUnit.isIndent_of_mem depth), none, List.append_nil,
      columns_replicate]
  filled := by
    rw [content_indented isUnit]
    exact isEntry.filled

theorem IsEntry.unbroken_indented (isEntry : IsEntry text) (isUnit : IsUnit unit) (depth : Nat) :
    ∀ c ∈ indented unit depth text, isLineBreak c = false := by
  intro c member
  obtain inUnit | inText := List.mem_append.mp member
  · have indents := isUnit.isIndent_of_mem depth c inUnit
    simp only [isIndent, Bool.or_eq_true, decide_eq_true_eq] at indents
    obtain rfl | rfl := indents <;> rfl
  · exact Bool.eq_false_iff.mpr (List.any_eq_false.mp isEntry.unbroken c inText)

theorem Form.not_isBranchLine_of_opens {form : Form}
    (opens : form.opens (blockAt 0 text) = true) :
    isBranchLine (Outline.content text) = false := by
  have trimmed := Outline.trimmed_content text
  cases form with
  | conditional => exact not_isBranchLine_of_not_closing trimmed (closing_of_opensConditional opens)
  | loop => exact Block.Kind.not_isBranchLine_of_opens trimmed (.inl (eq_of_beq opens))
  | switch => exact Block.Kind.not_isBranchLine_of_opens trimmed (.inr (eq_of_beq opens))

end

/-! ## The levels of printed lines -/

def Outlines (rows : List (List Char)) (blocks : List Block)
    (ladder after : Outline.Ladder) : Prop :=
  ∀ more, Outline.blocksFrom ladder (rows ++ more) = blocks ++ Outline.blocksFrom after more

/-- The place of a part is open on a ladder. Statements open it by their first line, cases by their
first branch line, and the arms of other constructs find it open. -/
def Region.Open (region : Region) (ladder base : Outline.Ladder) (width : Nat) : Prop :=
  match region with
  | .statements => ladder.place width false = base
  | .arms .switch => ladder.place width true = base
  | .arms _ => ladder.cut width = base

section

variable {ladder middle after base : Outline.Ladder} {width level : Nat} {unit : List Char}

theorem Outlines.nil (ladder : Outline.Ladder) : Outlines [] [] ladder ladder := fun _ => rfl

theorem Outlines.append {rows others : List (List Char)} {blocks later : List Block}
    (first : Outlines rows blocks ladder middle) (second : Outlines others later middle after) :
    Outlines (rows ++ others) (blocks ++ later) ladder after := by
  intro more
  rw [List.append_assoc, first, second, List.append_assoc]

theorem Outlines.cons {row : List Char} {rows : List (List Char)} {block : Block}
    {blocks : List Block} (first : Outlines [row] [block] ladder middle)
    (second : Outlines rows blocks middle after) :
    Outlines (row :: rows) (block :: blocks) ladder after :=
  first.append second

theorem IsEntry.outlines {text : List Char} (isEntry : IsEntry text) (isUnit : IsUnit unit)
    {depth : Nat} (top : base.top = ⟨depth * Outline.columns unit, level⟩)
    (placed : ladder.place (depth * Outline.columns unit)
      (isBranchLine (Outline.content text)) = base) :
    Outlines [indented unit depth text] [blockAt level text] ladder base := by
  intro more
  have same := content_indented isUnit depth text
  rw [← same] at placed
  have block := blocksFrom_line (isEntry.isIndented isUnit depth) placed top more
  rw [blockAt, same] at block
  exact block

theorem cut_of_place (top : base.top = ⟨width, level⟩) {deeper inner : Nat} {branch : Bool}
    (wider : width < deeper) (left : after.place deeper branch = ⟨deeper, inner⟩ :: base) :
    after.cut width = base := by
  have within : base.top.width ≤ width := Nat.le_of_eq (congrArg Outline.Rung.width top)
  rw [← Outline.Ladder.cut_place wider branch, left]
  exact Outline.Ladder.cut_cons inner within wider

theorem Region.open_arms (form : Form) (top : base.top = ⟨width, level⟩)
    (closed : ladder.cut width = base) : (Region.arms form).Open ladder base width := by
  cases form with
  | conditional => exact closed
  | loop => exact closed
  | switch => exact place_closed top closed true

theorem Region.place_header {form : Form} {header : List Char} (top : base.top = ⟨width, level⟩)
    (heads : form.heads (blockAt 0 header) = true)
    (opened : (Region.arms form).Open ladder base width) :
    ladder.place width (isBranchLine (Outline.content header)) = base := by
  cases form with
  | conditional => exact place_closed top opened _
  | loop => cases heads
  | switch =>
      have isCase : Block.Kind.ofLine (Outline.content header) = .case := eq_of_beq heads
      rw [Block.Kind.isBranchLine_of_case (Outline.trimmed_content header) isCase]
      exact opened

def Tree.IsOutlined {region : Region} (unit : List Char) (tree : Tree (List Char) region) : Prop :=
  ∀ (depth level : Nat) (ladder base : Outline.Ladder),
    base.top = ⟨depth * Outline.columns unit, level⟩ →
      region.Open ladder base (depth * Outline.columns unit) →
        ∃ after, region.Open after base (depth * Outline.columns unit) ∧
          Outlines (tree.printed unit depth) (tree.outlined level).lines ladder after

namespace Tree.IsOutlined

variable {depth : Nat}

/-- A part one unit deeper opens a rung of its own, and the next line of the construct closes it. -/
theorem deeper (isUnit : IsUnit unit) {region : Region} {tree : Tree (List Char) region}
    (inside : tree.IsOutlined unit) (branch : Bool)
    (opens : ∀ {ladder base : Outline.Ladder} {width : Nat},
      region.Open ladder base width ↔ ladder.place width branch = base)
    (top : base.top = ⟨depth * Outline.columns unit, level⟩) :
    ∃ after, after.cut (depth * Outline.columns unit) = base ∧
      Outlines (tree.printed unit (depth + 1))
        (tree.outlined (if branch then level else level + 1)).lines base after := by
  have wider : depth * Outline.columns unit < (depth + 1) * Outline.columns unit := by
    rw [Nat.succ_mul]
    exact Nat.lt_add_of_pos_right isUnit.columns_pos
  have within : base.top.width < (depth + 1) * Outline.columns unit := by
    rw [top]
    exact wider
  have placed := Outline.Ladder.place_deeper within branch
  rw [top] at placed
  obtain ⟨after, left, outlines⟩ := inside _ _ _ _ rfl (opens.mpr placed)
  exact ⟨after, cut_of_place top wider (opens.mp left), outlines⟩

theorem body (isUnit : IsUnit unit) {body : Tree (List Char) .statements}
    (inside : body.IsOutlined unit) (top : base.top = ⟨depth * Outline.columns unit, level⟩) :
    ∃ after, after.cut (depth * Outline.columns unit) = base ∧
      Outlines (body.printed unit (depth + 1)) (body.outlined (level + 1)).lines base after :=
  inside.deeper isUnit false Iff.rfl top

theorem inner (isUnit : IsUnit unit) {form : Form} {body : Tree (List Char) .statements}
    {arms : Tree (List Char) (.arms form)} (bodyInside : body.IsOutlined unit)
    (armsInside : arms.IsOutlined unit) (bare : form = .switch → body.size = 0)
    (top : base.top = ⟨depth * Outline.columns unit, level⟩) :
    ∃ middle after, after.cut (depth * Outline.columns unit) = base ∧
      Outlines (body.printed unit (depth + 1)) (body.outlined (level + 1)).lines base middle ∧
      Outlines (arms.printed unit (form.armDepth depth)) (arms.outlined level).lines
        middle after := by
  by_cases isSwitch : form = .switch
  · subst isSwitch
    rw [Tree.eq_done_of_size (bare rfl)]
    obtain ⟨after, closed, outlines⟩ := armsInside.deeper isUnit true Iff.rfl top
    exact ⟨base, after, closed, Outlines.nil base, outlines⟩
  · obtain ⟨middle, bodyClosed, bodyOutlines⟩ := bodyInside.body isUnit top
    obtain ⟨after, left, outlines⟩ := armsInside _ _ _ _ top (Region.open_arms form top bodyClosed)
    refine ⟨middle, after, ?_, bodyOutlines, ?_⟩
    · cases form with
      | conditional => exact left
      | loop => exact left
      | switch => exact absurd rfl isSwitch
    · cases form with
      | conditional => exact outlines
      | loop => exact outlines
      | switch => exact absurd rfl isSwitch

end Tree.IsOutlined

theorem Tree.Formed.isOutlined (isUnit : IsUnit unit) {region : Region}
    {tree : Tree (List Char) region} (formed : tree.Formed branchPhrases) :
    tree.IsOutlined unit := by
  induction tree with
  | done => exact fun _ _ _ _ _ opened => ⟨_, opened, Outlines.nil _⟩
  | simple text rest restInd =>
      intro depth level ladder base top opened
      obtain ⟨isEntry, simple, rest⟩ := formed
      have placed : ladder.place (depth * Outline.columns unit)
          (isBranchLine (Outline.content text)) = base := by
        rw [isBranchLine, simple.noWord]
        exact opened
      obtain ⟨after, left, outlines⟩ := restInd rest _ _ _ _ top (place_same top false)
      exact ⟨after, left, (isEntry.outlines isUnit top placed).cons outlines⟩
  | construct form opener body arms closer rest bodyInd armsInd restInd =>
      intro depth level ladder base top opened
      obtain ⟨isOpener, opens, bare, body, arms, isCloser, _, rest⟩ := formed
      have placed : ladder.place (depth * Outline.columns unit)
          (isBranchLine (Outline.content opener)) = base := by
        rw [Form.not_isBranchLine_of_opens opens]
        exact opened
      obtain ⟨middle, inner, closed, bodyOutlines, armsOutlines⟩ :=
        (bodyInd body).inner isUnit (armsInd arms) bare top
      obtain ⟨after, left, outlines⟩ := restInd rest _ _ _ _ top (place_same top false)
      refine ⟨after, left, ?_⟩
      apply (isOpener.outlines isUnit top placed).cons
      apply bodyOutlines.append
      apply armsOutlines.append
      exact (isCloser.outlines isUnit top (place_closed top closed _)).cons outlines
  | noArm form => exact fun _ _ _ _ _ opened => ⟨_, opened, Outlines.nil _⟩
  | arm form header body arms bodyInd armsInd =>
      intro depth level ladder base top opened
      obtain ⟨isHeader, heads, body, arms⟩ := formed
      obtain ⟨middle, closed, bodyOutlines⟩ := (bodyInd body).body isUnit top
      obtain ⟨after, left, outlines⟩ := armsInd arms _ _ _ _ top (Region.open_arms form top closed)
      refine ⟨after, left, ?_⟩
      apply (isHeader.outlines isUnit top (Region.place_header top heads opened)).cons
      exact bodyOutlines.append outlines

end

/-! ## The printed text -/

theorem Tree.Formed.unbroken {words : List Phrase} {unit : List Char} (isUnit : IsUnit unit)
    {region : Region} {tree : Tree (List Char) region} (formed : tree.Formed words) (depth : Nat) :
    ∀ line ∈ tree.printed unit depth, ∀ c ∈ line, isLineBreak c = false := by
  induction tree generalizing depth with
  | done => exact fun _ member => nomatch member
  | simple text rest restInd =>
      obtain ⟨isEntry, _, rest⟩ := formed
      intro line member
      cases member with
      | head => exact isEntry.unbroken_indented isUnit depth
      | tail _ later => exact restInd rest depth line later
  | construct form opener body arms closer rest bodyInd armsInd restInd =>
      obtain ⟨isOpener, _, _, body, arms, isCloser, _, rest⟩ := formed
      intro line member
      simp only [printed, List.mem_cons, List.mem_append] at member
      obtain rfl | inBody | inArms | rfl | later := member
      · exact isOpener.unbroken_indented isUnit depth
      · exact bodyInd body (depth + 1) line inBody
      · exact armsInd arms (form.armDepth depth) line inArms
      · exact isCloser.unbroken_indented isUnit depth
      · exact restInd rest depth line later
  | noArm form => exact fun _ member => nomatch member
  | arm form header body arms bodyInd armsInd =>
      obtain ⟨isHeader, _, body, arms⟩ := formed
      intro line member
      simp only [printed, List.mem_cons, List.mem_append] at member
      obtain rfl | inBody | inArms := member
      · exact isHeader.unbroken_indented isUnit depth
      · exact bodyInd body (depth + 1) line inBody
      · exact armsInd arms depth line inArms

/-- What is printed is read back: the blocks are those of the tree, and every construct has the
extent that the tree shows. -/
theorem Tree.Formed.outline_printed {tree : Tree (List Char) .statements}
    (formed : tree.Formed branchPhrases) {unit : List Char} (isUnit : IsUnit unit) :
    outline (joinLines (tree.printed unit 0)) = (tree.outlined 0).lines ∧
      (tree.outlined 0).Recovered (outline (joinLines (tree.printed unit 0))) 0 := by
  have root : Outline.Ladder.top [] = ⟨0 * Outline.columns unit, 0⟩ := by
    rw [Nat.zero_mul]
    rfl
  have kept := filter_lines_joinLines (fun line => !(Outline.content line).isEmpty) (by decide)
    (tree.printed unit 0) (formed.unbroken isUnit 0)
  obtain ⟨after, _, outlines⟩ := formed.isOutlined isUnit _ _ _ _ root (place_same root false)
  have whole := outlines []
  rw [List.append_nil, Outline.blocksFrom, List.append_nil] at whole
  have isOutline : outline (joinLines (tree.printed unit 0)) = (tree.outlined 0).lines := by
    rw [outline, ← Outline.blocksFrom_filter, kept, Outline.blocksFrom_filter, whole]
  refine ⟨isOutline, ?_⟩
  rw [isOutline]
  exact (formed.shaped 0).recovered (List.append_nil _).symm

def mixedTree : Tree (List Char) .statements :=
  .construct .loop "While y".toList
    (.construct .switch "Switch z".toList .done
      (.arm .switch "Case 1".toList (.simple "Input b".toList .done)
        (.arm .switch "Default".toList .done (.noArm .switch)))
      "End switch".toList .done)
    (.noArm .loop) "End while".toList
    (.construct .conditional "If x > 1 ::".toList (.simple "Output x".toList .done)
      (.arm .conditional "Else if y".toList .done
        (.arm .conditional "Else".toList
          (.construct .loop "For i".toList .done (.noArm .loop) "End for".toList .done)
          (.noArm .conditional)))
      "End if".toList .done)

theorem outline_printed_mixedTree :
    mixedTree.Formed branchPhrases ∧ IsUnit "\t".toList ∧
      outline (joinLines (mixedTree.printed "\t".toList 0)) = (mixedTree.outlined 0).lines ∧
      (mixedTree.outlined 0).Recovered
        (outline (joinLines (mixedTree.printed "\t".toList 0))) 0 :=
  have formed : mixedTree.Formed branchPhrases := by decide +kernel
  have isUnit : IsUnit "\t".toList := by decide
  ⟨formed, isUnit, formed.outline_printed isUnit⟩

def longCaseTree : Tree (List Char) .statements :=
  .construct .loop "While x".toList (.simple "caſe 1".toList .done) (.noArm .loop)
    "End while".toList .done

/-- It is not enough that no simple line begins with an else. -/
theorem exists_printed_otherwise :
    ¬∀ (tree : Tree (List Char) .statements) (unit : List Char),
      tree.Formed [[.text "else", .edge]] → IsUnit unit →
        outline (joinLines (tree.printed unit 0)) = (tree.outlined 0).lines ∧
          (tree.outlined 0).Recovered (outline (joinLines (tree.printed unit 0))) 0 := by
  intro always
  have formed : longCaseTree.Formed [[.text "else", .edge]] := by decide +kernel
  have isUnit : IsUnit "    ".toList := by decide
  have same := (always longCaseTree "    ".toList formed isUnit).1
  have levels : (outline (joinLines (longCaseTree.printed "    ".toList 0))).map (·.level) =
      [0, 0, 0] := by
    decide +kernel
  rw [same] at levels
  exact absurd levels (by decide +kernel)

end Flowchart.Structured
