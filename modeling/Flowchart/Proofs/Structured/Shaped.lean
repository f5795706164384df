import Flowchart.Proofs.Structured.Search
import Flowchart.Proofs.Structured.Syntax

/-!
Structured programs as rows of blocks: what reaches how far.

In a structured row every conditional and every switch has an end marker of its own, so that their
branches are the headers of their arms and cases. The body of a loop ends before the block that
closes it.
-/

namespace Flowchart

namespace Structured

namespace Part

/-- The blocks of a part are of the kinds that their places ask for, and bodies are one level
deeper than what they belong to. Cases stand on the level of their switch. -/
def Shaped {role : Role} (level : Int) : Part Block role → Prop
  | .done => True
  | .simple line rest => line.IsPlain ∧ line.level = level ∧ rest.Shaped level
  | .conditional opener body arms closer rest =>
      opener.opensConditional = true ∧ opener.level = level ∧ body.Shaped (level + 1) ∧
        arms.Shaped level ∧ closer.isIfEnd = true ∧ closer.isSwitchEnd = false ∧
        closer.level = level ∧ rest.Shaped level
  | .loop opener body closer rest =>
      opener.kind = .loop ∧ opener.level = level ∧ body.Shaped (level + 1) ∧
        closer.IsPlain ∧ closer.level = level ∧ rest.Shaped level
  | .switch opener cases closer rest =>
      opener.kind = .switch ∧ opener.level = level ∧ cases.Shaped level ∧
        closer.isIfEnd = false ∧ closer.isSwitchEnd = true ∧ closer.level = level ∧
        rest.Shaped level
  | .noArm => True
  | .elseIf header body arms =>
      header.kind = .elseIf ∧ header.level = level ∧ body.Shaped (level + 1) ∧ arms.Shaped level
  | .otherwise header body =>
      (header.isElse = true ∨ header.kind = .implicitElse ∧ body = .done) ∧
        header.level = level ∧ body.Shaped (level + 1)
  | .lastCase header body =>
      header.kind = .case ∧ header.level = level ∧ body.Shaped (level + 1)
  | .case header body cases =>
      header.kind = .case ∧ header.level = level ∧ body.Shaped (level + 1) ∧ cases.Shaped level

end Part

/-! ## Whole parts -/

def Form.role : Form → Role
  | .conditional => .arms
  | .loop => .statements
  | .switch => .cases

theorem Form.role_ne_statements {form : Form} (marked : form ≠ .loop) :
    form.role ≠ .statements := by
  cases form with
  | conditional | switch => decide
  | loop => exact absurd rfl marked

theorem Form.role_eq_arms {form : Form} : form.role = .arms ↔ .conditional = form := by
  cases form <;> decide

theorem Form.role_eq_cases {form : Form} : form.role = .cases ↔ .switch = form := by
  cases form <;> decide

section

variable {role : Role} {part : Part Block role} {level base : Int}

theorem kind_of_otherwise {header : Block} {body : Part Block .statements}
    (isElse : header.isElse = true ∨ header.kind = .implicitElse ∧ body = .done) :
    header.kind = .condition ∨ header.kind = .implicitElse := by
  rcases isElse with isElse | ⟨kind, _⟩
  · exact .inl (Block.kind_of_isElse isElse)
  · exact .inr kind

theorem heads_of_otherwise {header : Block} {body : Part Block .statements}
    (isElse : header.isElse = true ∨ header.kind = .implicitElse ∧ body = .done) :
    Form.conditional.heads header = true := by
  rcases isElse with isElse | ⟨kind, _⟩
  · simp [Form.heads, Block.isBranch, isElse]
  · simp [Form.heads, Block.isBranch, kind]

/-- A search passes over a part and collects the headers of its form if it began before them. -/
theorem search_lines {form : Form} (marked : form ≠ .loop) (shaped : part.Shaped level)
    (above : base ≤ level) (depth index : Nat) (more : List Block) :
    search form base depth index (part.lines ++ more) =
      collected (if form.role = role ∧ depth = 0 then part.heads index else [])
        (search form base depth (index + part.size) more) := by
  have others := Form.role_ne_statements marked
  induction part generalizing level depth index more with
  | done => simp [Part.lines, Part.size, Part.heads]
  | simple line rest restInd =>
      rcases shaped with ⟨plain, rfl, restShaped⟩
      simp only [Part.lines, Part.size, List.cons_append]
      rw [search_simple depth index _ plain marked above, restInd restShaped above]
      simp [others, Nat.add_assoc]
  | conditional opener body arms closer rest bodyInd armsInd restInd =>
      rcases shaped with ⟨opens, rfl, bodyShaped, armsShaped, ends, _, sameLevel, restShaped⟩
      have isOpener : Form.conditional.opens opener = true := opens
      have isEnd : Form.conditional.closes closer = true := ends
      have inside : ∀ depth, search form base depth (index + 1)
          (body.lines ++ (arms.lines ++ closer :: (rest.lines ++ more))) =
          collected (if .conditional = form ∧ depth = 0 then arms.heads (index + 1 + body.size)
            else [])
            (search form base depth (index + 1 + body.size + arms.size)
              (closer :: (rest.lines ++ more))) := by
        intro depth
        rw [bodyInd bodyShaped (Int.le_add_one above), armsInd armsShaped above]
        simp [others, Form.role_eq_arms]
      simp only [Part.lines, Part.size, List.cons_append, List.append_assoc]
      rw [search_construct depth index marked isOpener isEnd above (by omega) inside,
        restInd restShaped above]
      simp [others, Nat.add_assoc]
  | loop opener body closer rest bodyInd restInd =>
      rcases shaped with ⟨kind, rfl, bodyShaped, plain, sameLevel, restShaped⟩
      have isLoop : opener.kind ∈ Form.loop.kinds := by simp [Form.kinds, kind]
      simp only [Part.lines, Part.size, List.cons_append, List.append_assoc]
      rw [search_foreign depth index _ isLoop marked.symm above,
        bodyInd bodyShaped (Int.le_add_one above), search_simple depth _ _ plain marked (by omega),
        restInd restShaped above]
      simp [others, Nat.add_assoc]
  | switch opener cases closer rest casesInd restInd =>
      rcases shaped with ⟨kind, rfl, casesShaped, _, ends, sameLevel, restShaped⟩
      have isOpener : Form.switch.opens opener = true := by simp [Form.opens, kind]
      have isEnd : Form.switch.closes closer = true := ends
      have inside : ∀ depth, search form base depth (index + 1)
          (cases.lines ++ closer :: (rest.lines ++ more)) =
          collected (if .switch = form ∧ depth = 0 then cases.heads (index + 1) else [])
            (search form base depth (index + 1 + cases.size) (closer :: (rest.lines ++ more))) := by
        intro depth
        rw [casesInd casesShaped above]
        simp [Form.role_eq_cases]
      simp only [Part.lines, Part.size, List.cons_append, List.append_assoc]
      rw [search_construct depth index marked isOpener isEnd above (by omega) inside,
        restInd restShaped above]
      simp [others, Nat.add_assoc]
  | noArm => simp [Part.lines, Part.size, Part.heads]
  | elseIf header body arms bodyInd armsInd =>
      rcases shaped with ⟨kind, rfl, bodyShaped, armsShaped⟩
      have isHeader : Form.conditional.heads header = true := by
        simp [Form.heads, Block.isBranch, kind]
      have inside : search form base depth (index + 1) (body.lines ++ (arms.lines ++ more)) =
          collected (if .conditional = form ∧ depth = 0 then arms.heads (index + 1 + body.size)
            else []) (search form base depth (index + 1 + body.size + arms.size) more) := by
        rw [bodyInd bodyShaped (Int.le_add_one above), armsInd armsShaped above]
        simp [others, Form.role_eq_arms]
      simp only [Part.lines, List.cons_append, List.append_assoc]
      rw [search_arm depth index isHeader above inside]
      simp only [Form.role_eq_arms, Part.heads, Part.size, Nat.add_assoc]
  | otherwise header body bodyInd =>
      rcases shaped with ⟨isElse, rfl, bodyShaped⟩
      have inside : search form base depth (index + 1) (body.lines ++ more) =
          collected (if .conditional = form ∧ depth = 0 then [] else [])
            (search form base depth (index + 1 + body.size) more) := by
        rw [bodyInd bodyShaped (Int.le_add_one above)]
        simp [others]
      rw [Part.lines, List.cons_append,
        search_arm depth index (heads_of_otherwise isElse) above inside]
      simp only [Form.role_eq_arms, Part.heads, Part.size, Nat.add_assoc]
  | lastCase header body bodyInd =>
      rcases shaped with ⟨kind, rfl, bodyShaped⟩
      have isHeader : Form.switch.heads header = true := by simp [Form.heads, kind]
      have inside : search form base depth (index + 1) (body.lines ++ more) =
          collected (if .switch = form ∧ depth = 0 then [] else [])
            (search form base depth (index + 1 + body.size) more) := by
        rw [bodyInd bodyShaped (Int.le_add_one above)]
        simp [others]
      rw [Part.lines, List.cons_append, search_arm depth index isHeader above inside]
      simp only [Form.role_eq_cases, Part.heads, Part.size, Nat.add_assoc]
  | case header body cases bodyInd casesInd =>
      rcases shaped with ⟨kind, rfl, bodyShaped, casesShaped⟩
      have isHeader : Form.switch.heads header = true := by simp [Form.heads, kind]
      have inside : search form base depth (index + 1) (body.lines ++ (cases.lines ++ more)) =
          collected (if .switch = form ∧ depth = 0 then cases.heads (index + 1 + body.size)
            else []) (search form base depth (index + 1 + body.size + cases.size) more) := by
        rw [bodyInd bodyShaped (Int.le_add_one above), casesInd casesShaped above]
        simp [others, Form.role_eq_cases]
      simp only [Part.lines, List.cons_append, List.append_assoc]
      rw [search_arm depth index isHeader above inside]
      simp only [Form.role_eq_cases, Part.heads, Part.size, Nat.add_assoc]

def Inside (level : Int) (block : Block) : Prop :=
  level ≤ block.level ∧ block.kind ∈ Block.Kind.structured

theorem inside_of_body {blocks : List Block} (deeper : ∀ block ∈ blocks, Inside (level + 1) block) :
    ∀ block ∈ blocks, Inside level block :=
  fun block member => ⟨by have deep := (deeper block member).1; omega, (deeper block member).2⟩

theorem inside_of_isPlain {block : Block} (plain : block.IsPlain) (same : block.level = level) :
    Inside level block :=
  ⟨Int.le_of_eq same.symm, List.mem_append_left _ plain.kind⟩

theorem inside_of_kind {block : Block} {kind : Block.Kind} (isKind : block.kind = kind)
    (same : block.level = level) (structured : kind ∈ Block.Kind.structured := by decide) :
    Inside level block :=
  ⟨Int.le_of_eq same.symm, isKind ▸ structured⟩

theorem Part.Shaped.inside (shaped : part.Shaped level) :
    ∀ block ∈ part.lines, Inside level block := by
  induction part generalizing level with
  | done => exact List.forall_mem_nil _
  | simple line rest restInd =>
      rcases shaped with ⟨plain, sameLevel, restShaped⟩
      exact List.forall_mem_cons.mpr ⟨inside_of_isPlain plain sameLevel, restInd restShaped⟩
  | conditional opener body arms closer rest bodyInd armsInd restInd =>
      rcases shaped with ⟨opens, ownLevel, bodyShaped, armsShaped, ends, _, sameLevel, restShaped⟩
      simp only [Part.lines, List.forall_mem_cons, List.forall_mem_append]
      exact ⟨inside_of_kind (Block.kind_of_opensConditional opens) ownLevel,
        ⟨inside_of_body (bodyInd bodyShaped), armsInd armsShaped⟩,
        inside_of_kind (Block.kind_of_isIfEnd ends) sameLevel, restInd restShaped⟩
  | loop opener body closer rest bodyInd restInd =>
      rcases shaped with ⟨kind, ownLevel, bodyShaped, plain, sameLevel, restShaped⟩
      simp only [Part.lines, List.forall_mem_cons, List.forall_mem_append]
      exact ⟨inside_of_kind kind ownLevel, inside_of_body (bodyInd bodyShaped),
        inside_of_isPlain plain sameLevel, restInd restShaped⟩
  | switch opener cases closer rest casesInd restInd =>
      rcases shaped with ⟨kind, ownLevel, casesShaped, _, ends, sameLevel, restShaped⟩
      simp only [Part.lines, List.forall_mem_cons, List.forall_mem_append]
      exact ⟨inside_of_kind kind ownLevel, casesInd casesShaped,
        inside_of_kind (Block.kind_of_isSwitchEnd ends) sameLevel, restInd restShaped⟩
  | noArm => exact List.forall_mem_nil _
  | elseIf header body arms bodyInd armsInd =>
      rcases shaped with ⟨kind, ownLevel, bodyShaped, armsShaped⟩
      simp only [Part.lines, List.forall_mem_cons, List.forall_mem_append]
      exact ⟨inside_of_kind kind ownLevel, inside_of_body (bodyInd bodyShaped), armsInd armsShaped⟩
  | otherwise header body bodyInd =>
      rcases shaped with ⟨isElse, ownLevel, bodyShaped⟩
      refine List.forall_mem_cons.mpr ⟨?_, inside_of_body (bodyInd bodyShaped)⟩
      rcases kind_of_otherwise isElse with kind | kind
      · exact inside_of_kind kind ownLevel
      · exact inside_of_kind kind ownLevel
  | lastCase header body bodyInd =>
      rcases shaped with ⟨kind, ownLevel, bodyShaped⟩
      exact List.forall_mem_cons.mpr
        ⟨inside_of_kind kind ownLevel, inside_of_body (bodyInd bodyShaped)⟩
  | case header body cases bodyInd casesInd =>
      rcases shaped with ⟨kind, ownLevel, bodyShaped, casesShaped⟩
      simp only [Part.lines, List.forall_mem_cons, List.forall_mem_append]
      exact ⟨inside_of_kind kind ownLevel, inside_of_body (bodyInd bodyShaped),
        casesInd casesShaped⟩

end

/-! ## Extents -/

section

variable {level : Int} {blocks : List Block} {index : Nat} {opener closer : Block}
variable {body rest : Part Block .statements} {arms : Part Block .arms} {cases : Part Block .cases}

theorem conditionalExtent_of_lines
    (shaped : (Part.conditional opener body arms closer rest).Shaped level)
    (stands : (Part.conditional opener body arms closer rest).StandsAt blocks index) :
    conditionalExtent blocks index =
      ⟨index, arms.heads (index + 1 + body.size), some (index + 1 + body.size + arms.size),
        true⟩ := by
  rcases shaped with ⟨opens, rfl, bodyShaped, armsShaped, ends, _, sameLevel, restShaped⟩
  rcases stands with ⟨more, suffix⟩
  have isEnd : Form.conditional.closes closer = true := ends
  have found : search .conditional opener.level 0 (index + 1)
      (body.lines ++ (arms.lines ++ closer :: (rest.lines ++ more))) =
      some (arms.heads (index + 1 + body.size), index + 1 + body.size + arms.size) := by
    rw [search_lines (by decide) bodyShaped (Int.le_add_one (Int.le_refl _)),
      search_lines (by decide) armsShaped (Int.le_refl _),
      search_marker _ _ (by decide) isEnd (Int.le_of_eq sameLevel.symm)]
    simp [collected, Form.role]
  simp only [Part.lines, List.cons_append, List.append_assoc] at suffix
  have reaches : Form.conditional.Reaches blocks index body.size _ _ :=
    Form.reaches_of_search (by decide) suffix found
  exact reaches

theorem switchExtent_of_lines (shaped : (Part.switch opener cases closer rest).Shaped level)
    (stands : (Part.switch opener cases closer rest).StandsAt blocks index) :
    switchExtent blocks index =
      ⟨index, cases.heads (index + 1), some (index + 1 + cases.size), true⟩ := by
  rcases shaped with ⟨kind, rfl, casesShaped, _, ends, sameLevel, restShaped⟩
  rcases stands with ⟨more, suffix⟩
  have isEnd : Form.switch.closes closer = true := ends
  have found : search .switch opener.level 0 (index + 1)
      (cases.lines ++ closer :: (rest.lines ++ more)) =
      some (cases.heads (index + 1), index + 1 + cases.size) := by
    rw [search_lines (by decide) casesShaped (Int.le_refl _),
      search_marker _ _ (by decide) isEnd (Int.le_of_eq sameLevel.symm)]
    simp [collected, Form.role]
  simp only [Part.lines, List.cons_append, List.append_assoc] at suffix
  have reaches : Form.switch.Reaches blocks index cases.size _ _ :=
    Form.reaches_of_search (by decide) suffix found
  exact reaches

theorem bodyEnd_of_lines (shaped : (Part.loop opener body closer rest).Shaped level)
    (stands : (Part.loop opener body closer rest).StandsAt blocks index) :
    bodyEnd blocks index = index + body.size := by
  rcases shaped with ⟨kind, rfl, bodyShaped, plain, sameLevel, restShaped⟩
  rcases stands with ⟨more, suffix⟩
  simp only [Part.lines, List.cons_append, List.append_assoc] at suffix
  rcases Part.StandsAt.getElem?_of_drop suffix with ⟨found, below⟩
  have inside : ∀ block ∈ body.lines,
      (opener.level < block.level && block.kind != .stop) = true := by
    intro block member
    have deep := bodyShaped.inside block member
    have further := deep.1
    have running := Block.ne_of_structured deep.2 (by decide : Block.Kind.stop ∉ _)
    simp only [Bool.and_eq_true, decide_eq_true_eq, bne_iff_ne]
    exact ⟨by omega, running⟩
  rw [bodyEnd_of_loop found kind, below, Extent.bodyLength, List.takeWhile_append_of_pos inside]
  simp [sameLevel, Part.length_lines]

end

end Structured

end Flowchart
