import Flowchart.Procedure.CallGraph
import Mathlib.Data.String.Basic
import Mathlib.Logic.Relation

/-!
Which functions a search in a call graph reaches, and so the partners of a function.

The search never leaves a function twice. A path to the target that leaves one a second time can be
cut at the last time, so that nothing is missed. The partners are named in order, each once.
-/

namespace Flowchart.CallGraph

variable {graph : CallGraph} {target : String}

def Leads (graph : CallGraph) (caller callee : String) : Prop := callee ∈ graph.callees caller

def LeadsPast (graph : CallGraph) (seen : List String) (caller callee : String) : Prop :=
  caller ∉ seen ∧ graph.Leads caller callee

/-- A path past some functions keeps clear of one more, or else leaves it for the last time. -/
theorem past_or_leaves {seen : List String} (name : String) {source : String}
    (path : Relation.ReflTransGen (graph.LeadsPast seen) source target) :
    Relation.ReflTransGen (graph.LeadsPast (name :: seen)) source target ∨
      ∃ callee, graph.Leads name callee ∧
        Relation.ReflTransGen (graph.LeadsPast (name :: seen)) callee target := by
  induction path using Relation.ReflTransGen.head_induction_on with
  | refl => exact .inl .refl
  | @head caller callee step _ induction =>
      rcases induction with later | leaves
      · by_cases same : caller = name
        · subst same
          exact .inr ⟨callee, step.2, later⟩
        · exact .inl (later.head ⟨by simp [same, step.1], step.2⟩)
      · exact .inr leaves

theorem leadsPast_of_cons {seen : List String} {name : String} (caller callee : String)
    (step : graph.LeadsPast (name :: seen) caller callee) : graph.LeadsPast seen caller callee :=
  ⟨fun isSeen => step.1 (List.mem_cons_of_mem _ isSeen), step.2⟩

/-- The search succeeds from functions from which a path leads to the target, past those that were
seen. -/
theorem reachesFrom_iff (seen todo : List String) :
    graph.reachesFrom target seen todo = true ↔
      ∃ name ∈ todo, Relation.ReflTransGen (graph.LeadsPast seen) name target := by
  induction seen, todo using reachesFrom.induct graph target with
  | case1 seen => simp [reachesFrom]
  | case2 seen rest =>
      rw [reachesFrom, if_pos rfl]
      exact iff_of_true rfl ⟨target, List.mem_cons_self, .refl⟩
  | case3 seen name rest different isSeen induction =>
      have noPath : ¬Relation.ReflTransGen (graph.LeadsPast seen) name target := by
        intro path
        rcases path.cases_head with same | ⟨_, step, _⟩
        · exact different same
        · exact step.1 (by simpa using isSeen)
      rw [reachesFrom, if_neg different, if_pos isSeen, induction]
      simp only [List.mem_cons, exists_eq_or_imp, noPath, false_or]
  | case4 seen name rest different fresh induction =>
      have unseen : name ∉ seen := by simpa using fresh
      rw [reachesFrom, if_neg different, if_neg fresh, induction]
      constructor
      · rintro ⟨source, member, path⟩
        have path := Relation.ReflTransGen.mono leadsPast_of_cons _ _ path
        rcases List.mem_append.mp member with callee | waiting
        · exact ⟨name, List.mem_cons_self, path.head ⟨unseen, callee⟩⟩
        · exact ⟨source, List.mem_cons_of_mem _ waiting, path⟩
      · rintro ⟨source, member, path⟩
        rcases past_or_leaves name path with clear | ⟨callee, leads, later⟩
        · rcases List.mem_cons.mp member with rfl | waiting
          · rcases clear.cases_head with same | ⟨_, step, _⟩
            · exact absurd same different
            · exact absurd List.mem_cons_self step.1
          · exact ⟨source, List.mem_append_right _ waiting, clear⟩
        · exact ⟨callee, List.mem_append_left _ leads, later⟩

theorem reaches_iff {source : String} :
    graph.reaches source target = true ↔ Relation.ReflTransGen graph.Leads source target := by
  have all : graph.LeadsPast [] = graph.Leads := by
    funext caller callee
    simp [LeadsPast]
  rw [reaches, reachesFrom_iff, all]
  simp

theorem mem_mutualPartners_iff {name partner : String} :
    partner ∈ graph.mutualPartners name ↔
      graph.Leads name partner ∧ Relation.ReflTransGen graph.Leads partner name := by
  rw [mutualPartners, sortNames, List.mem_eraseDups, List.mem_mergeSort, List.mem_filter,
    reaches_iff]
  rfl

/-! ## The order of partners -/

theorem pairwise_lt_eraseDups {names : List String} (sorted : names.Pairwise (· ≤ ·)) :
    names.eraseDups.Pairwise (· < ·) := by
  -- What stands behind the first name is filtered, so the induction is on the number of names.
  induction size : names.length using Nat.strongRecOn generalizing names with
  | ind count induction =>
      cases names with
      | nil => simp
      | cons name rest =>
          rcases List.pairwise_cons.mp sorted with ⟨least, later⟩
          have shorter : (rest.filter fun other => !other == name).length < count :=
            size ▸ Nat.lt_succ_of_le (List.length_filter_le _ _)
          rw [List.eraseDups_cons, List.pairwise_cons]
          refine ⟨fun other member => ?_, induction _ shorter (later.filter _) rfl⟩
          rcases List.mem_filter.mp (List.mem_eraseDups.mp member) with ⟨inRest, different⟩
          refine lt_of_le_of_ne (least other inRest) fun same => ?_
          simp [same] at different

theorem pairwise_sortNames (names : List String) : (sortNames names).Pairwise (· < ·) := by
  have transitive (first second third : String) (toSecond : decide (first ≤ second) = true)
      (toThird : decide (second ≤ third) = true) : decide (first ≤ third) = true :=
    decide_eq_true (le_trans (of_decide_eq_true toSecond) (of_decide_eq_true toThird))
  have total (left right : String) : (decide (left ≤ right) || decide (right ≤ left)) = true := by
    simpa using le_total left right
  have sorted := List.pairwise_mergeSort transitive total names
  exact pairwise_lt_eraseDups (sorted.imp of_decide_eq_true)

/-- The partners of a function are the functions that it calls and from which calls lead back to it.
They are named in order, each once, whatever cycles there are and whatever names are missing. -/
theorem mutualPartners_leadBack (graph : CallGraph) (name : String) :
    (graph.mutualPartners name).Pairwise (· < ·) ∧
      ∀ partner, partner ∈ graph.mutualPartners name ↔
        partner ∈ graph.callees name ∧ Relation.ReflTransGen graph.Leads partner name :=
  ⟨pairwise_sortNames _, fun _ => mem_mutualPartners_iff⟩

example : mutualPartners [("a", ["c", "b", "a", "z"]), ("b", ["c", "b"]), ("c", ["b", "a"])] "a" =
    ["a", "b", "c"] := by
  cbv

end Flowchart.CallGraph
