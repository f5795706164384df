import Flowchart.Proofs.Block.Keyword
import Flowchart.Proofs.Outline.Ladder
import Flowchart.Proofs.Structured.Shaped

/-!
Structured programs as rows of lines, and their outlines.

What belongs to a line is indented further than it, by any width, and the arms and the end line of a
construct are indented as it is. The indentations decide the level of every line, as long as no
simple line looks like the branch of a construct.
-/

namespace Flowchart

open Text

namespace Outline

theorem blocksFrom_cons (ladder : Ladder) {line : List Char} (rest : List (List Char))
    {base : Ladder} (filled : content line ≠ [])
    (placed : ladder.place (indentation line) (isBranchLine (content line)) = base) :
    blocksFrom ladder (line :: rest) =
      block (content line) base.top.level :: blocksFrom base rest := by
  simp only [blocksFrom, List.isEmpty_iff, if_neg filled, placed]

end Outline

namespace Structured

def blockAt (level : Nat) (line : List Char) : Block := Outline.block (Outline.content line) level

structure IsIndented (width : Nat) (line : List Char) : Prop where
  width : Outline.indentation line = width
  filled : Outline.content line ≠ []

structure IsSimple (words : List Phrase) (line : List Char) : Prop where
  plain : (blockAt 0 line).IsPlain
  noWord : Phrase.anyBegins fold words (Outline.content line) = false

namespace Part

/-- A part of a program text. The arms and the end line of a construct are indented as far as its
first line, bodies and cases further. A loop is ended by a process line that is no end of something
else. -/
def Written (words : List Phrase) {role : Role} (width : Nat) : Part (List Char) role → Prop
  | .done => True
  | .simple line rest => IsIndented width line ∧ IsSimple words line ∧ rest.Written words width
  | .conditional opener body arms closer rest =>
      IsIndented width opener ∧ (blockAt 0 opener).opensConditional = true ∧
        (∃ deeper > width, body.Written words deeper) ∧ arms.Written words width ∧
        IsIndented width closer ∧ (blockAt 0 closer).isIfEnd = true ∧ rest.Written words width
  | .loop opener body closer rest =>
      IsIndented width opener ∧ (blockAt 0 opener).kind = .loop ∧
        (∃ deeper > width, body.Written words deeper) ∧ IsIndented width closer ∧
        ((blockAt 0 closer).kind = .process ∧ (blockAt 0 closer).isIfEnd = false ∧
          (blockAt 0 closer).isSwitchEnd = false) ∧ rest.Written words width
  | .switch opener cases closer rest =>
      IsIndented width opener ∧ (blockAt 0 opener).kind = .switch ∧
        (∃ deeper > width, cases.Written words deeper) ∧ IsIndented width closer ∧
        (blockAt 0 closer).isSwitchEnd = true ∧ rest.Written words width
  | .noArm => True
  | .elseIf header body arms =>
      IsIndented width header ∧ (blockAt 0 header).kind = .elseIf ∧
        (∃ deeper > width, body.Written words deeper) ∧ arms.Written words width
  | .otherwise header body =>
      IsIndented width header ∧ (blockAt 0 header).isElse = true ∧
        ∃ deeper > width, body.Written words deeper
  | .lastCase header body =>
      IsIndented width header ∧ (blockAt 0 header).kind = .case ∧
        ∃ deeper > width, body.Written words deeper
  | .case header body cases =>
      IsIndented width header ∧ (blockAt 0 header).kind = .case ∧
        (∃ deeper > width, body.Written words deeper) ∧ cases.Written words width

def outlined {role : Role} (level : Nat) : Part (List Char) role → Part Block role
  | .done => .done
  | .simple line rest => .simple (blockAt level line) (rest.outlined level)
  | .conditional opener body arms closer rest =>
      .conditional (blockAt level opener) (body.outlined (level + 1)) (arms.outlined level)
        (blockAt level closer) (rest.outlined level)
  | .loop opener body closer rest =>
      .loop (blockAt level opener) (body.outlined (level + 1)) (blockAt level closer)
        (rest.outlined level)
  | .switch opener cases closer rest =>
      .switch (blockAt level opener) (cases.outlined level) (blockAt level closer)
        (rest.outlined level)
  | .noArm => .noArm
  | .elseIf header body arms =>
      .elseIf (blockAt level header) (body.outlined (level + 1)) (arms.outlined level)
  | .otherwise header body => .otherwise (blockAt level header) (body.outlined (level + 1))
  | .lastCase header body => .lastCase (blockAt level header) (body.outlined (level + 1))
  | .case header body cases =>
      .case (blockAt level header) (body.outlined (level + 1)) (cases.outlined level)

end Part

/-! ## The shapes of blocks -/

section

variable {line : List Char} (level : Nat)

theorem blockAt_kind : (blockAt level line).kind = (blockAt 0 line).kind := rfl

theorem isPlain_blockAt (plain : (blockAt 0 line).IsPlain) : (blockAt level line).IsPlain :=
  ⟨plain.kind, plain.noIfEnd, plain.noSwitchEnd⟩

theorem closing_of_opensConditional (opens : (blockAt 0 line).opensConditional = true) :
    isClosingLine (Outline.content line) = false := by
  simp only [Block.opensConditional, Bool.and_eq_true, Bool.not_eq_true'] at opens
  exact opens.2

end

theorem Part.Written.shaped {role : Role} {part : Part (List Char) role} {words : List Phrase}
    {width : Nat} (written : part.Written words width) (level : Nat) :
    (part.outlined level).Shaped (level : Int) := by
  induction part generalizing width level with
  | done => trivial
  | simple line rest induction =>
      rcases written with ⟨_, simple, rest⟩
      exact ⟨isPlain_blockAt _ simple.plain, rfl, induction rest level⟩
  | conditional opener body arms closer rest bodyInd armsInd restInd =>
      rcases written with ⟨_, opens, ⟨deeper, _, body⟩, arms, _, ends, rest⟩
      exact ⟨opens, rfl, bodyInd body (level + 1), armsInd arms level, ends,
        Block.not_isSwitchEnd_of_isIfEnd ends, rfl, restInd rest level⟩
  | loop opener body closer rest bodyInd restInd =>
      rcases written with ⟨_, opens, ⟨deeper, _, body⟩, _, ⟨kind, noIfEnd, noSwitchEnd⟩, rest⟩
      have plain : (blockAt level closer).IsPlain :=
        ⟨by rw [blockAt_kind, kind]; decide, noIfEnd, noSwitchEnd⟩
      exact ⟨opens, rfl, bodyInd body (level + 1), plain, rfl, restInd rest level⟩
  | switch opener cases closer rest casesInd restInd =>
      rcases written with ⟨_, opens, ⟨deeper, _, cases⟩, _, ends, rest⟩
      exact ⟨opens, rfl, casesInd cases level, Block.not_isIfEnd_of_isSwitchEnd ends, ends, rfl,
        restInd rest level⟩
  | noArm => trivial
  | elseIf header body arms bodyInd armsInd =>
      rcases written with ⟨_, kind, ⟨deeper, _, body⟩, arms⟩
      exact ⟨kind, rfl, bodyInd body (level + 1), armsInd arms level⟩
  | otherwise header body bodyInd =>
      rcases written with ⟨_, isElse, deeper, _, body⟩
      exact ⟨.inl isElse, rfl, bodyInd body (level + 1)⟩
  | lastCase header body bodyInd =>
      rcases written with ⟨_, kind, deeper, _, body⟩
      exact ⟨kind, rfl, bodyInd body (level + 1)⟩
  | case header body cases bodyInd casesInd =>
      rcases written with ⟨_, kind, ⟨deeper, _, body⟩, cases⟩
      exact ⟨kind, rfl, bodyInd body (level + 1), casesInd cases level⟩

/-! ## The levels of lines

A row of statements opens its level with its first line and may leave it open, together with the
levels inside. The arms of a conditional find the levels inside it open, and the cases of a switch
open a rung on the level of the switch. -/

namespace Role

def Enters (role : Role) (ladder base : Outline.Ladder) (width : Nat) : Prop :=
  match role with
  | .statements => ladder.place width false = base
  | .arms => ladder.cut width = base
  | .cases => ladder.place width true = base

def Leaves (role : Role) (ladder base : Outline.Ladder) (width : Nat) : Prop :=
  match role with
  | .statements => ladder.place width false = base
  | .arms => ladder.cut width = base
  | .cases => ladder.cut width = base

end Role

def Part.Outlines {role : Role} (part : Part (List Char) role) (level : Nat)
    (ladder after : Outline.Ladder) : Prop :=
  ∀ more, Outline.blocksFrom ladder (part.lines ++ more) =
    (part.outlined level).lines ++ Outline.blocksFrom after more

section

variable {ladder base : Outline.Ladder} {width level : Nat}

theorem blocksFrom_line {line : List Char} (indented : IsIndented width line)
    (placed : ladder.place width (isBranchLine (Outline.content line)) = base)
    (top : base.top = ⟨width, level⟩) (more : List (List Char)) :
    Outline.blocksFrom ladder (line :: more) =
      blockAt level line :: Outline.blocksFrom base more := by
  rw [← indented.width] at placed
  rw [Outline.blocksFrom_cons ladder more indented.filled placed, top]
  rfl

def Gives (lines : List (List Char)) (blocks : List Block) (ladder after : Outline.Ladder) : Prop :=
  ∀ more, Outline.blocksFrom ladder (lines ++ more) = blocks ++ Outline.blocksFrom after more

theorem Gives.append {lines others : List (List Char)} {blocks further : List Block}
    {after last : Outline.Ladder} (first : Gives lines blocks ladder after)
    (second : Gives others further after last) :
    Gives (lines ++ others) (blocks ++ further) ladder last := by
  intro more
  rw [List.append_assoc, first, second, List.append_assoc]

theorem Gives.line {line : List Char} {lines : List (List Char)} {blocks : List Block}
    {after : Outline.Ladder} (indented : IsIndented width line)
    (placed : ladder.place width (isBranchLine (Outline.content line)) = base)
    (top : base.top = ⟨width, level⟩) (rest : Gives lines blocks base after) :
    Gives (line :: lines) (blockAt level line :: blocks) ladder after := by
  intro more
  rw [List.cons_append, blocksFrom_line indented placed top, rest, List.cons_append]

theorem place_same (top : base.top = ⟨width, level⟩) (branch : Bool) :
    base.place width branch = base := by
  have own : base.top.width = width := congrArg Outline.Rung.width top
  exact Outline.Ladder.place_of_cut (Outline.Ladder.cut_of_top (Nat.le_of_eq own)) own branch

theorem place_closed (top : base.top = ⟨width, level⟩) (closed : ladder.cut width = base)
    (branch : Bool) : ladder.place width branch = base :=
  Outline.Ladder.place_of_cut closed (congrArg Outline.Rung.width top) branch

theorem exists_outlines_deeper {role : Role} {part : Part (List Char) role} {deeper inner : Nat}
    (branch : Bool) (top : base.top = ⟨width, level⟩) (wider : width < deeper)
    (isInner : (if branch then level else level + 1) = inner)
    (inside : ∀ {own : Outline.Ladder}, own.top = ⟨deeper, inner⟩ →
      base.place deeper branch = own →
        ∃ after, role.Leaves after own deeper ∧ part.Outlines inner base after) :
    ∃ after, after.cut width = base ∧ part.Outlines inner base after := by
  have within : base.top.width ≤ width := Nat.le_of_eq (congrArg Outline.Rung.width top)
  have placed : base.place deeper branch = ⟨deeper, inner⟩ :: base := by
    rw [Outline.Ladder.place_deeper (Nat.lt_of_le_of_lt within wider), top, isInner]
  have closed := Outline.Ladder.cut_cons inner within wider
  rcases inside rfl placed with ⟨after, leaves, outlines⟩
  refine ⟨after, ?_, outlines⟩
  cases role with
  | statements =>
      have left : after.place deeper false = ⟨deeper, inner⟩ :: base := leaves
      rw [← Outline.Ladder.cut_place wider, left, closed]
  | arms =>
      have left : after.cut deeper = ⟨deeper, inner⟩ :: base := leaves
      rw [← Outline.Ladder.cut_cut (Nat.le_of_lt wider), left, closed]
  | cases =>
      have left : after.cut deeper = ⟨deeper, inner⟩ :: base := leaves
      rw [← Outline.Ladder.cut_cut (Nat.le_of_lt wider), left, closed]

theorem exists_outlines_body {body : Part (List Char) .statements} {deeper : Nat}
    (top : base.top = ⟨width, level⟩) (wider : width < deeper)
    (inside : ∀ {own : Outline.Ladder}, own.top = ⟨deeper, level + 1⟩ →
      base.place deeper false = own →
        ∃ after, Role.statements.Leaves after own deeper ∧ body.Outlines (level + 1) base after) :
    ∃ after, after.cut width = base ∧ body.Outlines (level + 1) base after :=
  exists_outlines_deeper false top wider rfl inside

/-- Levels follow from indentations as the structure of a part asks for. -/
theorem Part.Written.exists_outlines {role : Role} {part : Part (List Char) role}
    (written : part.Written branchPhrases width) (top : base.top = ⟨width, level⟩)
    (enters : role.Enters ladder base width) :
    ∃ after, role.Leaves after base width ∧ part.Outlines level ladder after := by
  induction part generalizing ladder base width level with
  | done => exact ⟨ladder, enters, fun _ => rfl⟩
  | simple line rest induction =>
      rcases written with ⟨indented, simple, rest⟩
      have placed : ladder.place width (isBranchLine (Outline.content line)) = base := by
        rw [isBranchLine, simple.noWord]
        exact enters
      rcases induction rest top (place_same top false) with ⟨after, leaves, outlines⟩
      exact ⟨after, leaves, Gives.line indented placed top outlines⟩
  | conditional opener body arms closer rest bodyInd armsInd restInd =>
      rcases written with ⟨indented, opens, ⟨deeper, wider, body⟩, arms, closes, _, rest⟩
      have placed : ladder.place width (isBranchLine (Outline.content opener)) = base := by
        rw [not_isBranchLine_of_not_closing (Outline.trimmed_content opener)
          (closing_of_opensConditional opens)]
        exact enters
      rcases exists_outlines_body top wider (bodyInd body) with
        ⟨inner, innerClosed, bodyOutlines⟩
      rcases armsInd arms top innerClosed with ⟨outer, closed, armsOutlines⟩
      rcases restInd rest top (place_same top false) with ⟨after, leaves, restOutlines⟩
      have ending := Gives.line closes (place_closed top closed _) top restOutlines
      exact ⟨after, leaves,
        Gives.line indented placed top ((Gives.append bodyOutlines armsOutlines).append ending)⟩
  | loop opener body closer rest bodyInd restInd =>
      rcases written with ⟨indented, opens, ⟨deeper, wider, body⟩, closes, _, rest⟩
      have placed : ladder.place width (isBranchLine (Outline.content opener)) = base := by
        rw [Block.Kind.not_isBranchLine_of_opens (Outline.trimmed_content opener) (.inl opens)]
        exact enters
      rcases exists_outlines_body top wider (bodyInd body) with
        ⟨inner, closed, bodyOutlines⟩
      rcases restInd rest top (place_same top false) with ⟨after, leaves, restOutlines⟩
      have ending := Gives.line closes (place_closed top closed _) top restOutlines
      exact ⟨after, leaves, Gives.line indented placed top (Gives.append bodyOutlines ending)⟩
  | switch opener cases closer rest casesInd restInd =>
      rcases written with ⟨indented, opens, ⟨deeper, wider, cases⟩, closes, _, rest⟩
      have placed : ladder.place width (isBranchLine (Outline.content opener)) = base := by
        rw [Block.Kind.not_isBranchLine_of_opens (Outline.trimmed_content opener) (.inr opens)]
        exact enters
      rcases exists_outlines_deeper true top wider (if_pos rfl) (casesInd cases) with
        ⟨inner, closed, casesOutlines⟩
      rcases restInd rest top (place_same top false) with ⟨after, leaves, restOutlines⟩
      have ending := Gives.line closes (place_closed top closed _) top restOutlines
      exact ⟨after, leaves, Gives.line indented placed top (Gives.append casesOutlines ending)⟩
  | noArm => exact ⟨ladder, enters, fun _ => rfl⟩
  | elseIf header body arms bodyInd armsInd =>
      rcases written with ⟨indented, _, ⟨deeper, wider, body⟩, arms⟩
      rcases exists_outlines_body top wider (bodyInd body) with
        ⟨inner, innerClosed, bodyOutlines⟩
      rcases armsInd arms top innerClosed with ⟨after, closed, armsOutlines⟩
      exact ⟨after, closed, Gives.line indented (place_closed top enters _) top
        (Gives.append bodyOutlines armsOutlines)⟩
  | otherwise header body bodyInd =>
      rcases written with ⟨indented, _, deeper, wider, body⟩
      rcases exists_outlines_body top wider (bodyInd body) with
        ⟨after, closed, bodyOutlines⟩
      exact ⟨after, closed, Gives.line indented (place_closed top enters _) top bodyOutlines⟩
  | lastCase header body bodyInd =>
      rcases written with ⟨indented, kind, deeper, wider, body⟩
      have placed : ladder.place width (isBranchLine (Outline.content header)) = base := by
        rw [Block.Kind.isBranchLine_of_case (Outline.trimmed_content header) kind]
        exact enters
      rcases exists_outlines_body top wider (bodyInd body) with
        ⟨after, closed, bodyOutlines⟩
      exact ⟨after, closed, Gives.line indented placed top bodyOutlines⟩
  | case header body cases bodyInd casesInd =>
      rcases written with ⟨indented, kind, ⟨deeper, wider, body⟩, cases⟩
      have placed : ladder.place width (isBranchLine (Outline.content header)) = base := by
        rw [Block.Kind.isBranchLine_of_case (Outline.trimmed_content header) kind]
        exact enters
      rcases exists_outlines_body top wider (bodyInd body) with
        ⟨inner, innerClosed, bodyOutlines⟩
      rcases casesInd cases top (place_closed top innerClosed true) with
        ⟨after, closed, casesOutlines⟩
      exact ⟨after, closed, Gives.line indented placed top
        (Gives.append bodyOutlines casesOutlines)⟩

end

/-! ## Program texts -/

/-- Statements between a first and a last line, none of them indented. Blank lines may stand
anywhere. -/
structure IsText (words : List Phrase) (source : String) (start : List Char)
    (body : Part (List Char) .statements) (stop : List Char) : Prop where
  rows : (lines source.toList).filter (fun line => !(Outline.content line).isEmpty) =
    start :: body.lines ++ [stop]
  first : IsIndented 0 start
  starts : (blockAt 0 start).kind = .start
  written : body.Written words 0
  last : IsIndented 0 stop
  stops : (blockAt 0 stop).kind = .stop

theorem IsText.outline_eq {source : String} {start stop : List Char}
    {body : Part (List Char) .statements} (isText : IsText branchPhrases source start body stop) :
    outline (joinLines (lines source.toList)) =
      blockAt 0 start :: (body.outlined 0).lines ++ [blockAt 0 stop] := by
  have root : Outline.Ladder.top [] = ⟨0, 0⟩ := rfl
  have kept := filter_lines_joinLines (fun line => !(Outline.content line).isEmpty) (by decide)
    (lines source.toList) fun line member => not_isLineBreak_of_mem_lines member
  rcases isText.written.exists_outlines root (place_same root false) with
    ⟨after, leaves, outlines⟩
  have closed : after.cut 0 = [] := by
    rw [← Outline.Ladder.place_zero]
    exact leaves
  rw [outline, ← Outline.blocksFrom_filter, kept, isText.rows, List.cons_append, List.cons_append,
    blocksFrom_line isText.first (place_same root _) root, outlines,
    blocksFrom_line isText.last (place_closed root closed _) root]
  rfl

end Structured

end Flowchart
