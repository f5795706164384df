import Flowchart.Proofs.Graph.LoopEdges
import Flowchart.Proofs.Walk.Visit
import Mathlib.Algebra.Order.Group.Nat
import Mathlib.Algebra.Order.Ring.Nat
import Mathlib.Data.Finset.Card

/-!
A rank that falls at every step of a walk.

Every loop has a digit: how often it may still be entered from where the walk stands. Digits of
earlier loops weigh more. Entering a loop lowers its digit, and every other step leaves all digits
as they are or lowers them, while it moves the walk to a place behind the one that it leaves, if a
loop is counted to lie behind its body.
-/

namespace Flowchart.Walk

open Flowchart.Graph

/-! ## Numbers of digits -/

section

variable {base : Nat} {digits lower : Nat → Nat} {loops : List Nat}

def number (base : Nat) (digits : Nat → Nat) : List Nat → Nat
  | [] => 0
  | loop :: rest => digits loop * base ^ rest.length + number base digits rest

theorem number_le (below : ∀ loop ∈ loops, lower loop ≤ digits loop) :
    number base lower loops ≤ number base digits loops := by
  induction loops with
  | nil => exact Nat.le_refl _
  | cons loop rest induction =>
      have later := induction fun other member => below other (List.mem_cons_of_mem _ member)
      have weighed := Nat.mul_le_mul_right (base ^ rest.length) (below loop List.mem_cons_self)
      exact Nat.add_le_add weighed later

theorem number_lt_pow (small : ∀ loop ∈ loops, digits loop < base) :
    number base digits loops < base ^ loops.length := by
  induction loops with
  | nil => exact Nat.one_pos
  | cons loop rest induction =>
      have later := induction fun other member => small other (List.mem_cons_of_mem _ member)
      have digit : digits loop + 1 ≤ base := small loop List.mem_cons_self
      have weighed := Nat.mul_le_mul_right (base ^ rest.length) digit
      rw [Nat.add_mul, Nat.one_mul] at weighed
      rw [number, List.length_cons, Nat.pow_succ, Nat.mul_comm _ base]
      omega

theorem number_lt {loop : Nat} (sorted : loops.Pairwise (· < ·)) (member : loop ∈ loops)
    (earlier : ∀ other ∈ loops, other < loop → lower other ≤ digits other)
    (falls : lower loop < digits loop) (small : ∀ other ∈ loops, lower other < base) :
    number base lower loops < number base digits loops := by
  induction loops with
  | nil => cases member
  | cons head rest induction =>
      rcases List.pairwise_cons.mp sorted with ⟨first, restSorted⟩
      have restSmall : ∀ other ∈ rest, lower other < base := fun other inRest =>
        small other (List.mem_cons_of_mem _ inRest)
      rcases List.mem_cons.mp member with rfl | inRest
      · have later := number_lt_pow restSmall
        have weighed := Nat.mul_le_mul_right (base ^ rest.length) (Nat.succ_le_of_lt falls)
        rw [Nat.succ_mul] at weighed
        rw [number, number]
        omega
      · have later := induction restSorted inRest
          (fun other inRest => earlier other (List.mem_cons_of_mem _ inRest)) restSmall
        have weighed := Nat.mul_le_mul_right (base ^ rest.length)
          (earlier head List.mem_cons_self (first loop inRest))
        rw [number, number]
        omega

end

/-! ## Digits -/

/-- Whether an edge that is not typed as going back goes back to a loop from a place in its body or
from behind that place. Such an edge enters the loop again even after it was left. -/
def Restarts (blocks : List Block) (place loop : Nat) : Prop :=
  ∃ edge ∈ (ofBlocks blocks).edges,
    edge.kind ≠ .loopBack ∧ edge.target = (loop : Int) ∧ (place : Int) ≤ edge.source

instance (blocks : List Block) (place loop : Nat) : Decidable (Restarts blocks place loop) :=
  inferInstanceAs (Decidable (∃ edge ∈ (ofBlocks blocks).edges, _ ∧ _ ∧ _))

theorem Restarts.of_le {blocks : List Block} {place earlier loop : Nat} (before : earlier ≤ place)
    (restarts : Restarts blocks place loop) : Restarts blocks earlier loop := by
  rcases restarts with ⟨edge, member, untyped, isTarget, behind⟩
  exact ⟨edge, member, untyped, isTarget, by omega⟩

/-- What enters an outer loop again from an inner one does so from behind the inner body: from
inside of it, only the inner loop is gone back to. -/
theorem Restarts.behind_body {blocks : List Block} {place inner outer : Nat}
    (order : outer < inner) (around : InBody blocks inner place)
    (restarts : Restarts blocks inner outer) : Restarts blocks place outer := by
  rcases restarts with ⟨edge, member, untyped, isTarget, behind⟩
  refine ⟨edge, member, untyped, isTarget, ?_⟩
  rcases onward_or_back member (plain_of_mem member) with
    ⟨source, target, isSource, same, bound, _⟩
  cases Int.natCast_inj.mp (isTarget.symm.trans same)
  by_contra earlier
  rcases Nat.eq_or_lt_of_le (show inner ≤ source by omega) with rfl | inside
  · have later := later_of_loop around.isLoop member untyped isSource isTarget
    omega
  · have insideBody : InBody blocks inner source :=
      .of_le_bodyEnd inside (Nat.le_trans (by omega) around.within)
    have least := le_of_untyped member untyped isSource isTarget (by omega) insideBody
    omega

section

variable (blocks : List Block) (iterations : Int) (counters : Counters)

def leftInside (place loop : Nat) : Nat :=
  match counters.lookup (loop : Int) with
  | some count => (iterations - count).toNat
  | none => if Restarts blocks place loop then iterations.toNat else 0

def digit (own : Nat) (place loop : Nat) : Nat :=
  if loop = place then own
  else if loop < place then
    if place ≤ bodyEnd blocks loop then leftInside blocks iterations counters place loop else 0
  else if loop ≤ bodyEnd blocks place then 0 else iterations.toNat

def digitAt (place : Nat) : Nat → Nat :=
  digit blocks iterations counters (iterations - counters.countOf place).toNat place

def digitFresh (place : Nat) : Nat → Nat :=
  digit blocks iterations counters iterations.toNat place

variable {blocks iterations counters}

theorem leftInside_le (sound : counters.Sound) (place loop : Nat) :
    leftInside blocks iterations counters place loop ≤ iterations.toNat := by
  unfold leftInside
  cases found : counters.lookup (loop : Int) with
  | some count =>
      have positive := sound loop count found
      simp only
      omega
  | none =>
      simp only
      split <;> omega

theorem digit_le (sound : counters.Sound) {own : Nat} (small : own ≤ iterations.toNat)
    (place loop : Nat) : digit blocks iterations counters own place loop ≤ iterations.toNat := by
  have inside : leftInside blocks iterations counters place loop ≤ iterations.toNat :=
    leftInside_le sound place loop
  unfold digit
  split
  · exact small
  split
  · split <;> omega
  · split <;> omega

theorem digitAt_le (sound : counters.Sound) (place loop : Nat) :
    digitAt blocks iterations counters place loop ≤ iterations.toNat := by
  have positive := sound.countOf place
  exact digit_le sound (by omega) place loop

theorem digitFresh_le (sound : counters.Sound) (place loop : Nat) :
    digitFresh blocks iterations counters place loop ≤ iterations.toNat :=
  digit_le sound (Nat.le_refl _) place loop

theorem digitAt_le_digitFresh (sound : counters.Sound) (place loop : Nat) :
    digitAt blocks iterations counters place loop ≤
      digitFresh blocks iterations counters place loop := by
  have positive := sound.countOf place
  unfold digitAt digitFresh digit
  split
  · omega
  · exact Nat.le_refl _

theorem leftInside_le_of_restarts {later : Counters} {place target loop : Nat}
    (same : later.lookup (loop : Int) = counters.lookup (loop : Int))
    (fewer : Restarts blocks target loop → Restarts blocks place loop) :
    leftInside blocks iterations later target loop ≤
      leftInside blocks iterations counters place loop := by
  rw [leftInside, leftInside, same]
  cases counters.lookup (loop : Int) with
  | some count => exact Nat.le_refl _
  | none =>
      by_cases restarts : Restarts blocks target loop
      · simp [restarts, fewer restarts]
      · simp [restarts]

end

/-! ## Steps that change no counter but those of the body that is left -/

section

variable {blocks : List Block} {iterations : Int} {counters later : Counters} {place target : Nat}

/-- A walk goes on behind the body at a place, or back to a loop around it that is still counted or
that is entered again anyway. -/
inductive Advance (blocks : List Block) (counters : Counters) (place target : Nat) : Prop
  | onward (behind : bodyEnd blocks place < target)
  | back (around : InBody blocks target place)
      (again : (counters.lookup (target : Int)).isSome ∨ Restarts blocks place target)

/-- Behind a body, no digit is higher than it was at the body, and nothing was entered yet. -/
theorem digitFresh_le_of_onward (sound : later.Sound)
    (agree : ∀ loop : Nat, loop < place →
      later.lookup (loop : Int) = counters.lookup (loop : Int))
    (behind : bodyEnd blocks place < target) (loop : Nat) :
    digitFresh blocks iterations later target loop ≤
      digitAt blocks iterations counters place loop := by
  have reach := le_bodyEnd blocks place
  rcases Nat.lt_trichotomy loop place with before | rfl | after
  · -- Inside the loop the counter is the same, behind it nothing is left.
    have body := le_bodyEnd blocks loop
    simp only [digitFresh, digitAt, digit, if_neg (Nat.ne_of_lt before), if_pos before,
      if_neg (show loop ≠ target by omega), if_pos (show loop < target by omega)]
    by_cases inside : target ≤ bodyEnd blocks loop
    · rw [if_pos inside, if_pos (by omega)]
      exact leftInside_le_of_restarts (agree loop before) (.of_le (by omega))
    · rw [if_neg inside]
      exact Nat.zero_le _
  · have left : ¬target ≤ bodyEnd blocks loop := by omega
    simp only [digitFresh, digit, if_neg (show loop ≠ target by omega),
      if_pos (show loop < target by omega), if_neg left]
    exact Nat.zero_le _
  · by_cases nested : loop ≤ bodyEnd blocks place
    · have ends := (InBody.of_le_bodyEnd after nested).bodyEnd_le
      have left : ¬target ≤ bodyEnd blocks loop := by omega
      simp only [digitFresh, digit, if_neg (show loop ≠ target by omega),
        if_pos (show loop < target by omega), if_neg left]
      exact Nat.zero_le _
    · have ahead : digitAt blocks iterations counters place loop = iterations.toNat := by
        simp only [digitAt, digit, if_neg (show loop ≠ place by omega),
          if_neg (show ¬loop < place by omega), if_neg nested]
      rw [ahead]
      exact digitFresh_le sound target loop

/-- Back at a loop, no digit is higher than it was in the body. -/
theorem digitAt_le_of_back (sound : later.Sound)
    (agree : ∀ loop : Nat, loop < place →
      later.lookup (loop : Int) = counters.lookup (loop : Int))
    (around : InBody blocks target place)
    (again : (later.lookup (target : Int)).isSome ∨ Restarts blocks place target) (loop : Nat) :
    digitAt blocks iterations later target loop ≤
      digitAt blocks iterations counters place loop := by
  have reach := le_bodyEnd blocks place
  have before := around.after
  have ends := around.bodyEnd_le
  rcases Nat.lt_trichotomy loop target with outer | rfl | inner
  · -- A loop further out holds the place and the target, or neither of them.
    simp only [digitAt, digit, if_neg (Nat.ne_of_lt outer), if_pos outer,
      if_neg (show loop ≠ place by omega), if_pos (show loop < place by omega)]
    by_cases inside : place ≤ bodyEnd blocks loop
    · rw [if_pos inside, if_pos (by omega)]
      exact leftInside_le_of_restarts (agree loop (by omega)) (.behind_body outer around)
    · have outside : ¬target ≤ bodyEnd blocks loop := fun within =>
        have nested := (InBody.of_le_bodyEnd outer within).bodyEnd_le
        absurd nested (by omega)
      rw [if_neg outside]
      exact Nat.zero_le _
  · -- The loop itself may be entered as often as in its body.
    simp only [digitAt, digit, if_true, if_neg (Nat.ne_of_lt before), if_pos before,
      if_pos around.within, leftInside, ← agree loop before, Counters.countOf]
    cases live : later.lookup (loop : Int) with
    | some count => exact Nat.le_refl _
    | none =>
        rw [live] at again
        simp only [Option.isSome_none, Bool.false_eq_true, false_or] at again
        simp [again]
  · by_cases nested : loop ≤ bodyEnd blocks target
    · simp only [digitAt, digit, if_neg (show loop ≠ target by omega),
        if_neg (show ¬loop < target by omega), if_pos nested]
      exact Nat.zero_le _
    · have ahead : digitAt blocks iterations counters place loop = iterations.toNat := by
        simp only [digitAt, digit, if_neg (show loop ≠ place by omega),
          if_neg (show ¬loop < place by omega), if_neg (show ¬loop ≤ bodyEnd blocks place by omega)]
      rw [ahead]
      exact digitAt_le sound target loop

theorem digitAt_le_of_advance (sound : later.Sound)
    (agree : ∀ loop : Nat, loop < place →
      later.lookup (loop : Int) = counters.lookup (loop : Int))
    (advance : Advance blocks later place target) (loop : Nat) :
    digitAt blocks iterations later target loop ≤
      digitAt blocks iterations counters place loop := by
  cases advance with
  | onward behind =>
      exact Nat.le_trans (digitAt_le_digitFresh sound target loop)
        (digitFresh_le_of_onward sound agree behind loop)
  | back around again => exact digitAt_le_of_back sound agree around again loop

end

/-! ## The rank -/

section

variable (blocks : List Block)

def Behind (first second : Nat) : Prop :=
  bodyEnd blocks first < bodyEnd blocks second ∨
    bodyEnd blocks first = bodyEnd blocks second ∧ second < first

instance (first second : Nat) : Decidable (Behind blocks first second) :=
  inferInstanceAs (Decidable (_ ∨ _))

def placesBehind (place : Nat) : Nat :=
  ((Finset.range blocks.length).filter (Behind blocks place)).card

def loopsOf : List Nat := (List.range blocks.length).filter fun index => IsLoop blocks index

def rankOf (base : Nat) (digits : Nat → Nat) (place : Nat) : Nat :=
  number base digits (loopsOf blocks) * blocks.length + placesBehind blocks place

variable {blocks} {place target : Nat}

theorem placesBehind_lt_length (bound : place < blocks.length) :
    placesBehind blocks place < blocks.length := by
  have proper : (Finset.range blocks.length).filter (Behind blocks place) ⊂
      Finset.range blocks.length := by
    refine Finset.filter_ssubset.mpr ⟨place, Finset.mem_range.mpr bound, ?_⟩
    simp [Behind]
  simpa [placesBehind] using Finset.card_lt_card proper

theorem placesBehind_lt (bound : target < blocks.length) (behind : Behind blocks place target) :
    placesBehind blocks target < placesBehind blocks place := by
  refine Finset.card_lt_card (Finset.ssubset_iff_of_subset ?_ |>.mpr ⟨target, ?_, ?_⟩)
  · intro other member
    rw [Finset.mem_filter] at member ⊢
    refine ⟨member.1, ?_⟩
    have further := member.2
    unfold Behind at behind further ⊢
    omega
  · exact Finset.mem_filter.mpr ⟨Finset.mem_range.mpr bound, behind⟩
  · simp [Behind]

theorem behind_of_advance {counters : Counters} (advance : Advance blocks counters place target) :
    Behind blocks place target := by
  cases advance with
  | onward behind => exact .inl (Nat.lt_of_lt_of_le behind (le_bodyEnd blocks target))
  | back around _ =>
      rcases Nat.lt_or_eq_of_le around.bodyEnd_le with shorter | same
      · exact .inl shorter
      · exact .inr ⟨same, around.after⟩

theorem mem_loopsOf {loop : Nat} : loop ∈ loopsOf blocks ↔ IsLoop blocks loop := by
  rw [loopsOf, List.mem_filter, List.mem_range, decide_eq_true_eq]
  constructor
  · exact fun both => both.2
  · intro isLoop
    rcases isLoop_iff.mp isLoop with ⟨opener, found, _⟩
    exact ⟨(List.getElem?_eq_some_iff.mp found).1, isLoop⟩

theorem loopsOf_sorted : (loopsOf blocks).Pairwise (· < ·) :=
  List.pairwise_lt_range.filter _

theorem length_loopsOf (blocks : List Block) :
    (loopsOf blocks).length = blocks.countP fun block => block.kind = .loop := by
  rw [loopsOf, ← List.countP_eq_length_filter]
  induction blocks with
  | nil => rfl
  | cons block rest induction =>
      rw [List.length_cons, List.range_succ_eq_map, List.countP_cons, List.countP_map,
        List.countP_cons]
      have later : (List.range rest.length).countP
          ((fun index => decide (IsLoop (block :: rest) index)) ∘ Nat.succ) =
            rest.countP fun block => block.kind = .loop := induction
      rw [later]
      simp [IsLoop]

variable {base : Nat} {digits lower : Nat → Nat}

theorem rankOf_lt (bound : place < blocks.length)
    (small : ∀ loop, digits loop < base) :
    rankOf blocks base digits place <
      blocks.length * base ^ blocks.countP fun block => block.kind = .loop := by
  have few : number base digits (loopsOf blocks) < base ^ (loopsOf blocks).length :=
    number_lt_pow fun loop _ => small loop
  rw [length_loopsOf] at few
  have weighed := Nat.mul_le_mul_right blocks.length (Nat.succ_le_of_lt few)
  have near := placesBehind_lt_length bound
  rw [Nat.succ_mul] at weighed
  rw [rankOf, Nat.mul_comm blocks.length]
  omega

theorem rankOf_lt_of_behind (bound : target < blocks.length) (behind : Behind blocks place target)
    (below : ∀ loop, lower loop ≤ digits loop) :
    rankOf blocks base lower target < rankOf blocks base digits place := by
  have fewer : number base lower (loopsOf blocks) ≤ number base digits (loopsOf blocks) :=
    number_le fun loop _ => below loop
  have weighed := Nat.mul_le_mul_right blocks.length fewer
  have nearer := placesBehind_lt bound behind
  rw [rankOf, rankOf]
  omega

theorem rankOf_lt_of_digit {loop : Nat} (bound : target < blocks.length)
    (isLoop : IsLoop blocks loop) (earlier : ∀ other < loop, lower other ≤ digits other)
    (falls : lower loop < digits loop) (small : ∀ other, lower other < base) :
    rankOf blocks base lower target < rankOf blocks base digits place := by
  have fewer := number_lt loopsOf_sorted (mem_loopsOf.mpr isLoop)
    (fun other _ before => earlier other before) falls fun other _ => small other
  have weighed := Nat.mul_le_mul_right blocks.length (Nat.succ_le_of_lt fewer)
  have near := placesBehind_lt_length bound
  rw [Nat.succ_mul] at weighed
  rw [rankOf, rankOf]
  omega

end

end Flowchart.Walk
