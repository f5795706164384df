import Flowchart.Proofs.Structured.Gathered

/-!
The missing arms of a structured program are those of its conditionals without further arms, and
each of them comes directly before the end marker of its conditional.
-/

namespace Flowchart.Structured

def missingAt (missing : List (Nat × Block)) (place : Nat) : List (Nat × Block) :=
  missing.filter fun (position, _) => position = place

theorem missingAt_append (first second : List (Nat × Block)) (place : Nat) :
    missingAt (first ++ second) place = missingAt first place ++ missingAt second place :=
  List.filter_append first second

theorem missingAt_gap_of_ne {condition : Prop} [Decidable condition] {stop place : Nat}
    (block : Block) (other : stop ≠ place) :
    missingAt (if condition then [(stop, block)] else []) place = [] := by
  split
  · simp [missingAt, other]
  · rfl

theorem missingAt_gap_self {condition : Prop} [Decidable condition] (place : Nat) (block : Block) :
    missingAt (if condition then [(place, block)] else []) place =
      if condition then [(place, block)] else [] := by
  split
  · simp [missingAt]
  · rfl

theorem before_of_missingAt_nil {missing : List (Nat × Block)} {place : Nat}
    (none : missingAt missing place = []) : ImplicitElse.before missing place = [] := by
  rw [missingAt] at none
  rw [ImplicitElse.before, none]
  simp

theorem before_of_missingAt_single {missing : List (Nat × Block)} {place : Nat} {block : Block}
    (one : missingAt missing place = [(place, block)]) :
    ImplicitElse.before missing place = [block] := by
  rw [missingAt] at one
  rw [ImplicitElse.before, one]
  simp

def missingArm? (blocks : List Block) : Block × Nat → Option (Nat × Block) :=
  fun (opener, start) =>
    if opener.opensConditional then
      let extent := conditionalExtent blocks start
      if extent.branches.isEmpty then
        some (extent.stop.getD blocks.length, ImplicitElse.block opener.level)
      else none
    else none

def lacking (opener : Block) (extent : BranchExtent) : List (Nat × Block) :=
  if extent.branches.isEmpty then
    extent.stop.toList.map fun stop => (stop, ImplicitElse.block opener.level)
  else []

theorem lacking_of_stop (opener : Block) (start stop : Nat) (branches : List Nat)
    (explicit : Bool) :
    lacking opener ⟨start, branches, some stop, explicit⟩ =
      if branches.isEmpty then [(stop, ImplicitElse.block opener.level)] else [] := rfl

theorem finds_missingArm? (blocks : List Block) :
    Part.Finds blocks lacking (missingArm? blocks) where
  conditional block place stop opens ends := by
    simp only [missingArm?, opens, if_true, lacking, ends, Option.getD_some, Option.toList_some]
    split <;> rfl
  switch block place kind some := by
    have alone : (switchExtent blocks place).branches.isEmpty = false := by
      simpa using some
    simp [missingArm?, Block.opensConditional, kind, lacking, alone]
  other block place noOpener _ := by
    simp [missingArm?, noOpener]

namespace Part

abbrev gaps {role : Role} (index : Nat) (part : Part Block role) : List (Nat × Block) :=
  part.gathered lacking index

theorem isEmpty_heads_cases (cases : Part Block .cases) (index : Nat) :
    (cases.heads index).isEmpty = false := by
  cases cases <;> rfl

section

variable {role : Role} {part : Part Block role} {index : Nat}

theorem missingAt_gaps_of_outside {place : Nat}
    (outside : place < index ∨ index + part.size ≤ place) :
    missingAt (part.gaps index) place = [] := by
  refine List.filter_eq_nil_iff.mpr fun gap member => ?_
  have own : ∀ opener extent, ∀ gap ∈ lacking opener extent, ∀ place ∈ [gap.1],
      place ∈ extent.branches ∨ extent.stop = some place := by
    intro opener extent gap member place isPlace
    rw [lacking] at member
    split at member
    · rcases List.mem_map.mp member with ⟨stop, ends, rfl⟩
      rw [List.mem_singleton.mp isPlace]
      exact .inr (Option.mem_toList.mp ends)
    · cases member
  have inside := between_gathered own gap member gap.1 (List.mem_singleton_self gap.1)
  simp only [decide_eq_true_eq]
  omega

theorem lines_orImplicit_completed (arms : Part Block .arms) (level : Int) (index : Nat) :
    (arms.completed.orImplicit level).lines =
      arms.completed.lines ++
        if (arms.heads index).isEmpty then [ImplicitElse.block level] else [] := by
  cases arms with
  | noArm => rfl
  | elseIf header body arms => simp [completed, orImplicit, heads]
  | otherwise header body => simp [completed, orImplicit, heads]

def filled (missing : List (Nat × Block)) (index : Nat) (lines : List Block) : List Block :=
  (lines.zipIdx index).flatMap fun (block, place) => ImplicitElse.before missing place ++ [block]

theorem filled_cons (missing : List (Nat × Block)) (index : Nat) (line : Block)
    (lines : List Block) :
    filled missing index (line :: lines) =
      ImplicitElse.before missing index ++ line :: filled missing (index + 1) lines := by
  simp [filled, List.zipIdx_cons]

theorem filled_append (missing : List (Nat × Block)) (index : Nat) (first second : List Block) :
    filled missing index (first ++ second) =
      filled missing index first ++ filled missing (index + first.length) second := by
  simp [filled, List.zipIdx_append]

/-! ### One construct at a time -/

def GapsInside (missing : List (Nat × Block)) {role : Role} (index : Nat)
    (part : Part Block role) : Prop :=
  ∀ place, index ≤ place → place < index + part.size →
    missingAt missing place = missingAt (part.gaps index) place

section

variable {missing : List (Nat × Block)} {opener closer : Block}
variable {body rest : Part Block .statements} {arms : Part Block .arms}

theorem GapsInside.header {other another : Role} {front : Part Block other}
    (later : Part Block another) (inside : part.GapsInside missing index)
    (isSize : part.size = 1 + front.size + later.size)
    (isGaps : part.gaps index =
      front.gaps (index + 1) ++ later.gaps (index + 1 + front.size)) :
    ImplicitElse.before missing index = [] ∧ front.GapsInside missing (index + 1) ∧
      later.GapsInside missing (index + 1 + front.size) := by
  have found : ∀ place, index ≤ place → place < index + 1 + front.size + later.size →
      missingAt missing place = missingAt (front.gaps (index + 1)) place ++
        missingAt (later.gaps (index + 1 + front.size)) place := by
    intro place above below
    rw [inside place above (by omega), isGaps, missingAt_append]
  refine ⟨before_of_missingAt_nil ?_, fun place above below => ?_, fun place above below => ?_⟩
  · rw [found index (by omega) (by omega)]
    simp (disch := omega) only [missingAt_gaps_of_outside, List.append_nil]
  · rw [found place (by omega) (by omega)]
    simp (disch := omega) only [missingAt_gaps_of_outside, List.append_nil]
  · rw [found place (by omega) (by omega)]
    simp (disch := omega) only [missingAt_gaps_of_outside, List.nil_append]

theorem GapsInside.construct {other : Role} {front : Part Block other}
    (inside : part.GapsInside missing index) (isSize : part.size = 1 + front.size + 1 + rest.size)
    (isGaps : part.gaps index =
      front.gaps (index + 1) ++ rest.gaps (index + 1 + front.size + 1)) :
    ImplicitElse.before missing index = [] ∧ front.GapsInside missing (index + 1) ∧
      ImplicitElse.before missing (index + 1 + front.size) = [] ∧
      rest.GapsInside missing (index + 1 + front.size + 1) := by
  have found : ∀ place, index ≤ place → place < index + 1 + front.size + 1 + rest.size →
      missingAt missing place = missingAt (front.gaps (index + 1)) place ++
        missingAt (rest.gaps (index + 1 + front.size + 1)) place := by
    intro place above below
    rw [inside place above (by omega), isGaps, missingAt_append]
  refine ⟨before_of_missingAt_nil ?_, fun place above below => ?_, before_of_missingAt_nil ?_,
    fun place above below => ?_⟩
  · rw [found index (by omega) (by omega)]
    simp (disch := omega) only [missingAt_gaps_of_outside, List.append_nil]
  · rw [found place (by omega) (by omega)]
    simp (disch := omega) only [missingAt_gaps_of_outside, List.append_nil]
  · rw [found _ (by omega) (by omega)]
    simp (disch := omega) only [missingAt_gaps_of_outside, List.append_nil]
  · rw [found place (by omega) (by omega)]
    simp (disch := omega) only [missingAt_gaps_of_outside, List.nil_append]

theorem GapsInside.conditional
    (inside : (conditional opener body arms closer rest).GapsInside missing index) :
    ImplicitElse.before missing index = [] ∧ body.GapsInside missing (index + 1) ∧
      arms.GapsInside missing (index + 1 + body.size) ∧
      ImplicitElse.before missing (index + 1 + body.size + arms.size) =
        (if (arms.heads (index + 1 + body.size)).isEmpty then [ImplicitElse.block opener.level]
        else []) ∧
      rest.GapsInside missing (index + 1 + body.size + arms.size + 1) := by
  simp only [GapsInside, size, gaps, gathered, lacking_of_stop] at inside
  refine ⟨before_of_missingAt_nil ?_, fun place above below => ?_, fun place above below => ?_, ?_,
    fun place above below => ?_⟩
  · rw [inside index (by omega) (by omega)]
    simp (disch := omega) only [missingAt_append, missingAt_gap_of_ne, missingAt_gaps_of_outside,
      List.append_nil]
  · rw [inside place (by omega) (by omega)]
    simp (disch := omega) only [missingAt_append, missingAt_gap_of_ne, missingAt_gaps_of_outside,
      List.append_nil, List.nil_append]
  · rw [inside place (by omega) (by omega)]
    simp (disch := omega) only [missingAt_append, missingAt_gap_of_ne, missingAt_gaps_of_outside,
      List.append_nil, List.nil_append]
  · have atEnd := inside (index + 1 + body.size + arms.size) (by omega) (by omega)
    simp (disch := omega) only [missingAt_append, missingAt_gap_self, missingAt_gaps_of_outside,
      List.append_nil] at atEnd
    split at atEnd
    · rename_i alone
      rw [before_of_missingAt_single atEnd, if_pos alone]
    · rename_i more
      rw [before_of_missingAt_nil atEnd, if_neg more]
  · rw [inside place (by omega) (by omega)]
    simp (disch := omega) only [missingAt_append, missingAt_gap_of_ne, missingAt_gaps_of_outside,
      List.nil_append]

theorem gaps_switch (cases : Part Block .cases) :
    (switch opener cases closer rest).gaps index =
      cases.gaps (index + 1) ++ rest.gaps (index + 1 + cases.size + 1) := by
  simp only [gaps, gathered, lacking_of_stop, isEmpty_heads_cases, Bool.false_eq_true, if_false,
    List.nil_append]

theorem filled_lines (inside : part.GapsInside missing index) :
    filled missing index part.lines = part.completed.lines := by
  induction part generalizing index with
  | done => rfl
  | simple line rest restInd =>
      rcases inside.header noArm rfl (List.append_nil _).symm with ⟨first, inRest, _⟩
      rw [lines, filled_cons, first, restInd inRest, completed, lines, List.nil_append]
  | conditional opener body arms closer rest bodyInd armsInd restInd =>
      rcases inside.conditional with ⟨first, inBody, inArms, last, inRest⟩
      simp only [lines, completed, filled_cons, filled_append, length_lines, first, last,
        bodyInd inBody, armsInd inArms, restInd inRest,
        lines_orImplicit_completed arms opener.level (index + 1 + body.size), List.nil_append,
        List.append_assoc]
  | loop opener body closer rest bodyInd restInd =>
      rcases inside.construct rfl rfl with ⟨first, inBody, last, inRest⟩
      simp only [lines, completed, filled_cons, filled_append, length_lines, first, last,
        bodyInd inBody, restInd inRest, List.nil_append]
  | switch opener cases closer rest casesInd restInd =>
      rcases inside.construct rfl (gaps_switch cases) with ⟨first, inCases, last, inRest⟩
      simp only [lines, completed, filled_cons, filled_append, length_lines, first, last,
        casesInd inCases, restInd inRest, List.nil_append]
  | noArm => rfl
  | elseIf header body arms bodyInd armsInd =>
      rcases inside.header arms rfl rfl with ⟨first, inBody, inArms⟩
      simp only [lines, completed, filled_cons, filled_append, length_lines, first,
        bodyInd inBody, armsInd inArms, List.nil_append]
  | otherwise header body bodyInd =>
      rcases inside.header noArm rfl (List.append_nil _).symm with ⟨first, inBody, _⟩
      rw [lines, filled_cons, first, bodyInd inBody, completed, lines, List.nil_append]
  | lastCase header body bodyInd =>
      rcases inside.header noArm rfl (List.append_nil _).symm with ⟨first, inBody, _⟩
      rw [lines, filled_cons, first, bodyInd inBody, completed, lines, List.nil_append]
  | case header body cases bodyInd casesInd =>
      rcases inside.header cases rfl rfl with ⟨first, inBody, inCases⟩
      simp only [lines, completed, filled_cons, filled_append, length_lines, first,
        bodyInd inBody, casesInd inCases, List.nil_append]

end

/-! ## The completed program -/

theorem Shaped.completed {level : Int} (shaped : part.Shaped level) :
    part.completed.Shaped level := by
  induction part generalizing level with
  | done => trivial
  | simple line rest restInd => exact ⟨shaped.1, shaped.2.1, restInd shaped.2.2⟩
  | conditional opener body arms closer rest bodyInd armsInd restInd =>
      rcases shaped with ⟨opens, rfl, bodyShaped, armsShaped, ends, other, sameLevel, restShaped⟩
      refine ⟨opens, rfl, bodyInd bodyShaped, ?_, ends, other, sameLevel, restInd restShaped⟩
      have completedShaped := armsInd armsShaped
      cases arms with
      | noArm => exact ⟨.inr ⟨rfl, rfl⟩, rfl, trivial⟩
      | elseIf header body arms => exact completedShaped
      | otherwise header body => exact completedShaped
  | loop opener body closer rest bodyInd restInd =>
      rcases shaped with ⟨kind, sameLevel, bodyShaped, plain, closes, restShaped⟩
      exact ⟨kind, sameLevel, bodyInd bodyShaped, plain, closes, restInd restShaped⟩
  | switch opener cases closer rest casesInd restInd =>
      rcases shaped with ⟨kind, sameLevel, casesShaped, other, ends, closes, restShaped⟩
      exact ⟨kind, sameLevel, casesInd casesShaped, other, ends, closes, restInd restShaped⟩
  | noArm => trivial
  | elseIf header body arms bodyInd armsInd =>
      rcases shaped with ⟨kind, sameLevel, bodyShaped, armsShaped⟩
      exact ⟨kind, sameLevel, bodyInd bodyShaped, armsInd armsShaped⟩
  | otherwise header body bodyInd =>
      rcases shaped with ⟨isElse, sameLevel, bodyShaped⟩
      refine ⟨?_, sameLevel, bodyInd bodyShaped⟩
      rcases isElse with isElse | ⟨kind, rfl⟩
      · exact .inl isElse
      · exact .inr ⟨kind, rfl⟩
  | lastCase header body bodyInd =>
      rcases shaped with ⟨kind, sameLevel, bodyShaped⟩
      exact ⟨kind, sameLevel, bodyInd bodyShaped⟩
  | case header body cases bodyInd casesInd =>
      rcases shaped with ⟨kind, sameLevel, bodyShaped, casesShaped⟩
      exact ⟨kind, sameLevel, bodyInd bodyShaped, casesInd casesShaped⟩

end

end Part

/-- A structured program between a start and an end is completed part by part. -/
theorem completeConditionals_of_shaped {start stop : Block} {body : Part Block .statements}
    {level : Int} (starts : start.kind = .start) (stops : stop.kind = .stop)
    (shaped : body.Shaped level) :
    completeConditionals (start :: body.lines ++ [stop]) =
      start :: body.completed.lines ++ [stop] := by
  have missing : ImplicitElse.missing (start :: body.lines ++ [stop]) = body.gaps 1 :=
    (finds_missingArm? _).filterMap_between starts stops shaped
  have before : ∀ place, place < 1 ∨ 1 + body.size ≤ place →
      ImplicitElse.before (body.gaps 1) place = [] := fun place outside =>
    before_of_missingAt_nil (Part.missingAt_gaps_of_outside outside)
  have filled : Part.filled (body.gaps 1) 0 (start :: body.lines ++ [stop]) =
      start :: body.completed.lines ++ [stop] := by
    have inside : Part.filled (body.gaps 1) 1 body.lines = body.completed.lines :=
      Part.filled_lines fun _ _ _ => rfl
    rw [List.cons_append, Part.filled_cons, Part.filled_append, inside, before 0 (by omega),
      Part.filled_cons, Part.length_lines, before _ (by omega)]
    rfl
  have behind : ImplicitElse.before (body.gaps 1) (start :: body.lines ++ [stop]).length = [] :=
    before _ (.inr (by simp [Part.length_lines]; omega))
  rw [completeConditionals, missing]
  show Part.filled (body.gaps 1) 0 (start :: body.lines ++ [stop]) ++ _ = _
  rw [filled, behind, List.append_nil]

end Flowchart.Structured
