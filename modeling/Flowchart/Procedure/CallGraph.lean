/-!
Which functions call which, by name.
-/

namespace Flowchart

/-- For each function the functions that it calls. A name that is missing calls none. -/
abbrev CallGraph := List (String × List String)

namespace CallGraph

def callees (graph : CallGraph) (name : String) : List String := (graph.lookup name).getD []

def unseenCalls (seen : List String) : CallGraph → Nat
  | [] => 0
  | (name, callees) :: rest =>
      (if seen.contains name then 0 else callees.length) + unseenCalls seen rest

theorem unseenCalls_cons_le (seen : List String) (name : String) (graph : CallGraph) :
    unseenCalls (name :: seen) graph ≤ unseenCalls seen graph := by
  induction graph with
  | nil => exact Nat.le_refl 0
  | cons entry rest induction =>
      obtain ⟨other, names⟩ := entry
      have own : (if (name :: seen).contains other then 0 else names.length) ≤
          if seen.contains other then 0 else names.length := by
        by_cases isSeen : other ∈ seen
        · simp [isSeen]
        · rw [if_neg (by simpa using isSeen : ¬seen.contains other = true)]
          split
          · exact Nat.zero_le _
          · exact Nat.le_refl _
      exact Nat.add_le_add own induction

theorem length_callees_add_unseenCalls_le {seen : List String} {name : String}
    (fresh : name ∉ seen) (graph : CallGraph) :
    (graph.callees name).length + unseenCalls (name :: seen) graph ≤ unseenCalls seen graph := by
  induction graph with
  | nil => exact Nat.le_refl 0
  | cons entry rest induction =>
      obtain ⟨other, names⟩ := entry
      by_cases same : name = other
      · subst same
        have later := unseenCalls_cons_le seen name rest
        have isFresh : seen.contains name = false := by simpa using fresh
        simp only [callees, List.lookup_cons_self, Option.getD_some, unseenCalls,
          List.contains_cons, beq_self_eq_true, Bool.true_or, if_true, isFresh,
          Bool.false_eq_true, if_false]
        omega
      · have different : (name == other) = false := beq_false_of_ne same
        have different' : (other == name) = false := beq_false_of_ne (Ne.symm same)
        simp only [callees, List.lookup_cons, different, unseenCalls, List.contains_cons,
          different', Bool.false_or] at induction ⊢
        omega

def reachesFrom (graph : CallGraph) (target : String) (seen : List String) :
    List String → Bool
  | [] => false
  | name :: rest =>
      if name = target then true
      else if seen.contains name then graph.reachesFrom target seen rest
      else graph.reachesFrom target (name :: seen) (graph.callees name ++ rest)
termination_by todo => unseenCalls seen graph + todo.length
decreasing_by
  · simp
  · rename_i unseenName
    have fresh : name ∉ seen := by simpa using unseenName
    have calls := length_callees_add_unseenCalls_le fresh graph
    simp only [List.length_append, List.length_cons]
    omega

def reaches (graph : CallGraph) (source target : String) : Bool :=
  graph.reachesFrom target [] [source]

def sortNames (names : List String) : List String :=
  (names.mergeSort fun left right => left ≤ right).eraseDups

def mutualPartners (graph : CallGraph) (name : String) : List String :=
  sortNames ((graph.callees name).filter fun callee => graph.reaches callee name)

end CallGraph

end Flowchart
