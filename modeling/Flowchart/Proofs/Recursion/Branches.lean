import Flowchart.Proofs.Recursion.Analyzed
import Mathlib.Data.List.TakeWhile

/-!
The branches of a body, told without reading their conditions.

Which lines a branch gathers and where it ends is a matter of markers and indentation alone. So the
search for cases can be taken apart: first come the branches, in the order in which they end, then
their cases. The base cases of a body are the exits of its branches, each with its condition read.
-/

namespace Flowchart.Recursion

open Text

/-! ## Branches -/

namespace Branch

/-- The branches that end with a line, and those that are open behind it, the innermost first. A
statement outside of all branches is a branch of its own, without a condition. -/
def pass (line : BodyLine) (branches : List Branch) : List Branch × List Branch :=
  if isComment line.text then ([], branches)
  else
    let deeper := branches.takeWhile fun branch => line.indent < branch.indent
    let level := branches.dropWhile fun branch => line.indent < branch.indent
    if isIfEndLine line.text then (deeper ++ level.take 1, level.drop 1)
    else if beginsBranch line.text then
      let count := if level.head?.any fun branch => branch.indent = line.indent then 1 else 0
      (deeper ++ level.take count, ⟨line.indent, conditionOf line.text, []⟩ :: level.drop count)
    else
      let beside := level.takeWhile fun branch => line.indent ≤ branch.indent
      match level.dropWhile fun branch => line.indent ≤ branch.indent with
      | [] => (deeper ++ beside ++ [⟨line.indent, [], [line]⟩], [])
      | branch :: outer =>
          (deeper ++ beside, { branch with lines := branch.lines ++ [line] } :: outer)

def endings (branches : List Branch) : List BodyLine → List Branch
  | [] => branches
  | line :: rest => (pass line branches).1 ++ endings (pass line branches).2 rest

section

variable {property : List Char → Prop} (ofNone : property [])
include ofNone

theorem conditions_of_pass {line : BodyLine} {branches : List Branch}
    (ofLine : property (conditionOf line.text))
    (ofOpen : ∀ branch ∈ branches, property branch.condition) :
    ∀ branch ∈ (pass line branches).1 ++ (pass line branches).2, property branch.condition := by
  have ofDeeper : ∀ branch ∈ branches.takeWhile fun branch => line.indent < branch.indent,
      property branch.condition :=
    fun branch member => ofOpen branch ((List.takeWhile_prefix _).subset member)
  have ofLevel : ∀ branch ∈ branches.dropWhile fun branch => line.indent < branch.indent,
      property branch.condition :=
    fun branch member => ofOpen branch ((List.dropWhile_suffix _).subset member)
  unfold pass
  split
  · exact ofOpen
  · dsimp only
    generalize branches.takeWhile (fun branch => line.indent < branch.indent) = deeper at *
    generalize branches.dropWhile (fun branch => line.indent < branch.indent) = level at *
    split
    · rw [List.append_assoc, List.take_append_drop]
      exact List.forall_mem_append.mpr ⟨ofDeeper, ofLevel⟩
    · split
      · refine List.forall_mem_append.mpr ⟨List.forall_mem_append.mpr ⟨ofDeeper, ?_⟩,
          List.forall_mem_cons.mpr ⟨ofLine, ?_⟩⟩
        · exact fun branch member => ofLevel branch (List.mem_of_mem_take member)
        · exact fun branch member => ofLevel branch (List.mem_of_mem_drop member)
      · have ofBeside : ∀ branch ∈ level.takeWhile fun branch => line.indent ≤ branch.indent,
            property branch.condition :=
          fun branch member => ofLevel branch ((List.takeWhile_prefix _).subset member)
        have ofOuter : ∀ branch ∈ level.dropWhile fun branch => line.indent ≤ branch.indent,
            property branch.condition :=
          fun branch member => ofLevel branch ((List.dropWhile_suffix _).subset member)
        have ofEnded := List.forall_mem_append.mpr ⟨ofDeeper, ofBeside⟩
        split
        · rw [List.append_nil]
          exact List.forall_mem_append.mpr ⟨ofEnded, List.forall_mem_singleton.mpr ofNone⟩
        · rename_i branch outer open'
          rw [open', List.forall_mem_cons] at ofOuter
          exact List.forall_mem_append.mpr ⟨ofEnded, List.forall_mem_cons.mpr ofOuter⟩

theorem conditions_of_endings {body : List BodyLine} {branches : List Branch}
    (ofBody : ∀ line ∈ body, property (conditionOf line.text))
    (ofOpen : ∀ branch ∈ branches, property branch.condition) :
    ∀ branch ∈ endings branches body, property branch.condition := by
  induction body generalizing branches with
  | nil => exact ofOpen
  | cons line body induction =>
      rw [List.forall_mem_cons] at ofBody
      rcases List.forall_mem_append.mp (conditions_of_pass ofNone ofBody.1 ofOpen) with
        ⟨ofEnded, ofKept⟩
      exact List.forall_mem_append.mpr ⟨ofEnded, induction ofBody.2 ofKept⟩

end

def exit? (branch : Branch) : Option BodyLine :=
  if branch.lines.any fun line => !line.sites.isEmpty then none
  else branch.lines.find? fun line => isExitLine line.text

end Branch

def exitsOf (body : List BodyLine) : List (List Char × BodyLine) :=
  (Branch.endings [] body).filterMap fun branch => branch.exit?.map (branch.condition, ·)

def IsConditionIn (body : List BodyLine) (condition : List Char) : Prop :=
  condition = [] ∨ ∃ line ∈ body, condition = conditionOf line.text

theorem of_mem_exitsOf {body : List BodyLine} {exit : List Char × BodyLine}
    (member : exit ∈ exitsOf body) :
    isExitLine exit.2.text = true ∧ IsConditionIn body exit.1 := by
  rcases List.mem_filterMap.mp member with ⟨branch, ends, found⟩
  rcases Option.map_eq_some_iff.mp found with ⟨line, exits, rfl⟩
  have isExit : isExitLine line.text = true := by
    unfold Branch.exit? at exits
    split at exits
    · cases exits
    · have holds := List.find?_some exits
      exact holds
  have stands : IsConditionIn body branch.condition :=
    Branch.conditions_of_endings (.inl rfl) (fun line member => .inr ⟨line, member, rfl⟩)
      (List.forall_mem_nil _) branch ends
  exact ⟨isExit, stands⟩

/-! ## The search -/

namespace CaseSearch

def withOpen (branches : List Branch) (search : CaseSearch) : CaseSearch :=
  { search with branches }

section

variable (targets parameters : List String)

def passed (search : CaseSearch) (closed kept : List Branch) : Except NumeralError CaseSearch :=
  (closed.foldlM (addBranch targets parameters) search).map (withOpen kept)

end

variable {targets parameters : List String}

theorem addLine_withOpen (branches : List Branch) (search : CaseSearch) (condition : List Char)
    (line : BodyLine) :
    (search.withOpen branches).addLine targets parameters condition line =
      (search.addLine targets parameters condition line).map (withOpen branches) := by
  unfold addLine
  split
  · cases baseCase condition line <;> rfl
  · rfl

theorem addBranch_withOpen (branches : List Branch) (search : CaseSearch) (branch : Branch) :
    (search.withOpen branches).addBranch targets parameters branch =
      (search.addBranch targets parameters branch).map (withOpen branches) := by
  unfold addBranch
  split
  · exact addLine_withOpen branches search branch.condition _
  · split
    · exact addLine_withOpen branches search branch.condition _
    · rfl

theorem foldlM_addBranch_withOpen (branches closed : List Branch) (search : CaseSearch) :
    closed.foldlM (addBranch targets parameters) (search.withOpen branches) =
      (closed.foldlM (addBranch targets parameters) search).map (withOpen branches) := by
  induction closed generalizing search with
  | nil => rfl
  | cons branch closed induction =>
      rw [List.foldlM_cons, List.foldlM_cons, addBranch_withOpen]
      cases search.addBranch targets parameters branch with
      | error error => rfl
      | ok next => exact induction next

theorem passed_withOpen (branches : List Branch) (search : CaseSearch) (closed kept : List Branch) :
    (search.withOpen branches).passed targets parameters closed kept =
      search.passed targets parameters closed kept := by
  rw [passed, passed, foldlM_addBranch_withOpen]
  cases closed.foldlM (addBranch targets parameters) search <;> rfl

theorem passed_bind {search : CaseSearch} {closed kept closedToo keptToo : List Branch}
    {rest : CaseSearch → Except NumeralError CaseSearch}
    (goesOn : ∀ next : CaseSearch, next.branches = kept →
      rest next = next.passed targets parameters closedToo keptToo) :
    search.passed targets parameters closed kept >>= rest =
      search.passed targets parameters (closed ++ closedToo) keptToo := by
  rw [passed, passed, List.foldlM_append]
  cases closed.foldlM (addBranch targets parameters) search with
  | error error => rfl
  | ok next => exact (goesOn (next.withOpen kept) rfl).trans (passed_withOpen kept next _ _)

theorem passed_bind_withOpen {search : CaseSearch} {closed kept keptToo : List Branch}
    {rest : CaseSearch → Except NumeralError CaseSearch}
    (opens : ∀ next : CaseSearch, next.branches = kept → rest next = .ok (next.withOpen keptToo)) :
    search.passed targets parameters closed kept >>= rest =
      search.passed targets parameters closed keptToo := by
  have joined : search.passed targets parameters closed kept >>= rest =
      search.passed targets parameters (closed ++ []) keptToo :=
    passed_bind fun next isOpen => opens next isOpen
  rwa [List.append_nil] at joined

theorem passed_singleton (search : CaseSearch) (branch : Branch) (kept : List Branch) :
    search.passed targets parameters [branch] kept =
      (search.withOpen kept).addBranch targets parameters branch := by
  rw [addBranch_withOpen, passed, List.foldlM_cons]
  cases search.addBranch targets parameters branch <;> rfl

theorem closeOne_eq (search : CaseSearch) : search.closeOne targets parameters =
    search.passed targets parameters (search.branches.take 1) (search.branches.drop 1) := by
  rcases search with ⟨_ | ⟨branch, branches⟩, baseCases, recursiveCases⟩
  · rfl
  · exact (passed_singleton _ branch branches).symm

theorem closeWhile_eq (property : Branch → Bool) (branches : List Branch) (search : CaseSearch) :
    closeWhile targets parameters property branches search =
      search.passed targets parameters (branches.takeWhile property)
        (branches.dropWhile property) := by
  induction branches generalizing search with
  | nil => rfl
  | cons branch branches induction =>
      rw [closeWhile]
      by_cases holds : property branch = true
      · rw [if_pos holds, List.takeWhile_cons_of_pos holds, List.dropWhile_cons_of_pos holds,
          passed, List.foldlM_cons]
        cases search.addBranch targets parameters branch with
        | error error => rfl
        | ok next => exact induction next
      · rw [if_neg holds, List.takeWhile_cons_of_neg holds, List.dropWhile_cons_of_neg holds]
        rfl

theorem addStatement_nil {search : CaseSearch} (none : search.branches = []) (line : BodyLine) :
    search.addStatement targets parameters line =
      search.passed targets parameters [⟨line.indent, [], [line]⟩] [] := by
  have same : search.withOpen [] = search := by rw [withOpen, ← none]
  rw [passed_singleton, same, addStatement, none, addBranch]
  by_cases calls : line.sites.isEmpty = true
  · by_cases exits : isExitLine line.text = true
    · simp [calls, exits]
    · simp [calls, exits]
  · simp [calls]

theorem openBranch_eq {search : CaseSearch} {level : List Branch} (open_ : search.branches = level)
    (beside : Bool) (branch : Branch) :
    (do
      let search ← if beside then search.closeOne targets parameters else pure search
      return { search with branches := branch :: search.branches }) =
      search.passed targets parameters (level.take (if beside then 1 else 0))
        (branch :: level.drop (if beside then 1 else 0)) := by
  subst open_
  cases beside with
  | false => rfl
  | true =>
      rw [if_pos rfl, if_pos rfl, closeOne_eq]
      exact passed_bind_withOpen fun next isOpen => by rw [← isOpen]; rfl

theorem add_eq (search : CaseSearch) (line : BodyLine) :
    search.add targets parameters line =
      search.passed targets parameters (Branch.pass line search.branches).1
        (Branch.pass line search.branches).2 := by
  unfold add Branch.pass
  split
  · rfl
  · rw [close, closeWhile_eq]
    dsimp only
    split
    · exact passed_bind fun next isOpen => by rw [closeOne_eq, isOpen]
    · split
      · refine passed_bind fun next isOpen => ?_
        rw [← isOpen]
        simpa only [Bool.if_true_left] using openBranch_eq rfl _ _
      · cases outer :
            (search.branches.dropWhile fun branch => line.indent < branch.indent).dropWhile
              fun branch => line.indent ≤ branch.indent with
        | nil =>
            dsimp only
            rw [List.append_assoc]
            refine passed_bind fun next isOpen => ?_
            rw [close, closeWhile_eq, isOpen, outer]
            exact passed_bind fun last none => addStatement_nil none line
        | cons branch branches =>
            refine passed_bind fun next isOpen => ?_
            rw [close, closeWhile_eq, isOpen, outer]
            refine passed_bind_withOpen fun last isOpen => ?_
            rw [addStatement, isOpen]
            rfl

/-- The cases of a body are those of its branches, one after the other. -/
theorem foldlM_add_eq (search : CaseSearch) (body : List BodyLine) :
    (do
      let search ← body.foldlM (add targets parameters) search
      search.close targets parameters fun _ => true) =
      search.passed targets parameters (Branch.endings search.branches body) [] := by
  induction body generalizing search with
  | nil =>
      have all : search.branches.takeWhile (fun _ => true) = search.branches :=
        List.takeWhile_eq_self_iff.mpr fun _ _ => rfl
      have none : search.branches.dropWhile (fun _ => true) = [] :=
        List.dropWhile_eq_nil_iff.mpr fun _ _ => rfl
      exact (closeWhile_eq _ _ search).trans (by rw [all, none, Branch.endings])
  | cons line body induction =>
      rw [List.foldlM_cons, add_eq, Branch.endings, bind_assoc]
      exact passed_bind fun next isOpen => isOpen ▸ induction next

theorem ofBody_eq (targets parameters : List String) (body : List BodyLine) :
    ofBody targets parameters body =
      passed targets parameters {} (Branch.endings [] body) [] :=
  foldlM_add_eq {} body

/-! ## Base cases -/

theorem addBranch_of_exit {branch : Branch} {line : BodyLine} (exits : branch.exit? = some line)
    (search : CaseSearch) :
    search.addBranch targets parameters branch = (baseCase branch.condition line).map fun found =>
      { search with baseCases := search.baseCases ++ [found] } := by
  unfold Branch.exit? at exits
  split at exits
  · cases exits
  · rename_i noCalls
    have noCalls : ∀ other ∈ branch.lines, ¬(!other.sites.isEmpty) = true := by
      simpa using noCalls
    have none : (branch.lines.find? fun line => !line.sites.isEmpty) = none :=
      List.find?_eq_none.mpr noCalls
    have own : line.sites.isEmpty = true := by
      simpa using noCalls line (List.mem_of_find?_eq_some exits)
    rw [addBranch, none]
    dsimp only
    rw [exits]
    dsimp only
    rw [addLine, if_pos own]

theorem addBranch_of_noExit {branch : Branch} (none : branch.exit? = none) (search : CaseSearch) :
    ∃ cases, search.addBranch targets parameters branch =
      .ok { search with recursiveCases := search.recursiveCases ++ cases } := by
  have keeps : .ok search = Except.ok (ε := NumeralError)
      { search with recursiveCases := search.recursiveCases ++ [] } := by
    rw [List.append_nil]
  unfold Branch.exit? at none
  unfold addBranch
  split
  · rename_i line found
    have calls : ¬line.sites.isEmpty = true := by simpa using List.find?_some found
    exact ⟨_, by rw [addLine, if_neg calls]⟩
  · rename_i noCalls
    have noCalls : ¬(branch.lines.any fun line => !line.sites.isEmpty) = true := by
      simpa using noCalls
    rw [if_neg noCalls] at none
    rw [none]
    exact ⟨[], keeps⟩

theorem baseCases_passed (search : CaseSearch) (closed kept : List Branch) :
    (search.passed targets parameters closed kept).map (·.baseCases) =
      ((closed.filterMap fun branch => branch.exit?.map (branch.condition, ·)).mapM
        fun exit => baseCase exit.1 exit.2).map (search.baseCases ++ ·) := by
  induction closed generalizing search with
  | nil => exact congrArg Except.ok (List.append_nil search.baseCases).symm
  | cons branch closed induction =>
      rw [passed, List.foldlM_cons]
      cases exits : branch.exit? with
      | none =>
          rcases addBranch_of_noExit exits search with ⟨cases, added⟩
          rw [added, List.filterMap_cons_none (by rw [exits]; rfl)]
          exact induction _
      | some line =>
          rw [addBranch_of_exit exits, List.filterMap_cons_some (by rw [exits]; rfl),
            List.mapM_cons]
          dsimp only
          cases baseCase branch.condition line with
          | error error => rfl
          | ok found =>
              refine (induction _).trans ?_
              cases (closed.filterMap fun branch => branch.exit?.map (branch.condition, ·)).mapM
                  fun exit => baseCase exit.1 exit.2 with
              | error error => rfl
              | ok others => exact congrArg Except.ok (List.append_assoc _ _ _)

theorem baseCases_ofBody (targets parameters : List String) (body : List BodyLine) :
    (ofBody targets parameters body).map (·.baseCases) =
      (exitsOf body).mapM fun exit => baseCase exit.1 exit.2 := by
  rw [ofBody_eq, baseCases_passed, exitsOf]
  cases (List.filterMap (fun branch => branch.exit?.map (branch.condition, ·))
      (Branch.endings [] body)).mapM fun exit => baseCase exit.1 exit.2 <;> rfl

end CaseSearch

end Flowchart.Recursion
