import Flowchart.Document.Schema
import Flowchart.Proofs.Number.Rounding
import Flowchart.Recursion.Pattern

/-!
How sure a pattern is told.

The score of a pattern is a part of a whole. Rounding a quotient to a float, and rounding a float to
some places, keep it between zero and one.
-/

namespace Flowchart

namespace Binary64

/-! ## Parts of one -/

def IsPart (value : Binary64) : Prop := ∃ units : Nat, value = .finite units ∧ units ≤ one

theorem roundHalfEven_le_of_le_mul {numerator denominator most : Nat}
    (positive : 0 < denominator) (le : numerator ≤ most * denominator) :
    roundHalfEven numerator denominator ≤ most := by
  rcases Nat.lt_or_eq_of_le le with less | rfl
  · have quotient : numerator / denominator < most := (Nat.div_lt_iff_lt_mul positive).mpr less
    exact (roundHalfEven_le _ _).trans quotient
  · have whole : roundHalfEven (most * denominator) denominator = most := by
      simp [roundHalfEven, positive]
    exact Nat.le_of_eq whole

theorem lastBit_le_of_le {units more : Nat} (le : units ≤ more) : lastBit units ≤ more.log2 := by
  by_cases zero : units = 0
  · rw [zero]
    exact Nat.zero_le _
  · have less : units < 2 ^ (more.log2 + 1) := Nat.lt_of_le_of_lt le Nat.lt_log2_self
    exact (Nat.sub_le _ _).trans (Nat.le_of_lt_succ ((Nat.log2_lt zero).mpr less))

theorem two_pow_log2_one : Nat.pow 2 one.log2 = one := by decide +kernel

theorem nearestUnits_le_one {numerator denominator : Nat} (positive : 0 < denominator)
    (le : numerator ≤ one * denominator) : nearestUnits numerator denominator ≤ one := by
  have quotient : numerator / denominator ≤ one := Nat.div_le_of_le_mul (Nat.mul_comm _ _ ▸ le)
  have bit := lastBit_le_of_le quotient
  rw [nearestUnits]
  generalize lastBit (numerator / denominator) = last at bit
  have grid : Nat.pow 2 (one.log2 - last) * Nat.pow 2 last = one := by
    calc _ = Nat.pow 2 (one.log2 - last + last) := (Nat.pow_add 2 _ _).symm
      _ = Nat.pow 2 one.log2 := congrArg _ (Nat.sub_add_cancel bit)
      _ = one := two_pow_log2_one
  have some : 0 < Nat.pow 2 last := Nat.two_pow_pos last
  generalize Nat.pow 2 (one.log2 - last) = most at grid
  generalize Nat.pow 2 last = step at grid some
  have rounded : roundHalfEven numerator (denominator * step) ≤ most := by
    refine roundHalfEven_le_of_le_mul (Nat.mul_pos positive some) ?_
    rw [Nat.mul_left_comm, Nat.mul_comm denominator, grid]
    exact le
  calc _ ≤ most * step := Nat.mul_le_mul_right step rounded
    _ = one := grid

theorem one_lt_limit : one < limit := by decide +kernel

theorem isPart_ofRatio {numerator denominator : Nat} (positive : 0 < denominator)
    (le : numerator ≤ denominator) : (ofRatio numerator denominator).IsPart := by
  have nonneg : ¬((numerator * one : Nat) : Int) < 0 := Int.not_lt.mpr (Int.natCast_nonneg _)
  have rounded : nearestUnits (numerator * one) denominator ≤ one := by
    refine nearestUnits_le_one positive ?_
    rw [Nat.mul_comm]
    exact Nat.mul_le_mul_left one le
  have inside : ¬limit ≤ nearestUnits (numerator * one) denominator :=
    Nat.not_le.mpr (Nat.lt_of_le_of_lt rounded one_lt_limit)
  have same : ofRatio numerator denominator =
      .finite (nearestUnits (numerator * one) denominator) := by
    rw [ofRatio, ← Int.natCast_mul]
    generalize numerator * one = units at nonneg inside
    rw [ofUnits, Int.natAbs_natCast, if_neg inside, if_neg nonneg]
  exact ⟨_, same, rounded⟩

theorem IsPart.roundPlaces {value : Binary64} (part : value.IsPart) (places : Nat) :
    (value.roundPlaces places).IsPart := by
  rcases part with ⟨units, rfl, most⟩
  have scaled : units * Nat.pow 10 places ≤ Nat.pow 10 places * one := by
    rw [Nat.mul_comm]
    exact Nat.mul_le_mul_left _ most
  rw [Binary64.roundPlaces, if_neg (Int.not_lt.mpr (Int.natCast_nonneg units)),
    Int.natAbs_natCast]
  exact isPart_ofRatio (Nat.pow_pos (by decide)) (roundHalfEven_le_of_le_mul one_pos scaled)

theorem IsPart.isFraction {value : Binary64} (part : value.IsPart) :
    Document.Shape.isFraction (.float value) = true := by
  rcases part with ⟨units, rfl, most⟩
  have isNegative : (Number.float (.finite units)).isNegative = decide ((units : Int) < 0) := by
    rw [Number.isNegative, Number.less, Number.compare?, Number.compareIntFloat?]
    · generalize (one : Int) = unit
      simp [units?, Int.compare_eq_gt]
    · intro finite
      cases finite
    · intro negative finite
      cases finite
  have greater : (Number.int 1).less (.float (.finite units)) =
      decide ((1 : Int) * one < units) := by
    rw [Number.less, Number.compare?, Number.compareIntFloat?]
    · generalize (one : Int) = unit
      simp [units?, Int.compare_eq_lt]
    · intro finite
      cases finite
    · intro negative finite
      cases finite
  rw [Document.Shape.isFraction, isNegative, greater, Int.one_mul,
    decide_eq_false (Int.not_lt.mpr (Int.natCast_nonneg units)),
    decide_eq_false (Int.not_lt.mpr (Int.ofNat_le.mpr most))]
  rfl

end Binary64

/-! ## Patterns -/

namespace Recursion.Pattern

variable {vocabulary : Vocabulary}

theorem isPart_score {cues : List Cue} (some : cues ≠ []) (text : List Char) :
    (score cues text).IsPart :=
  Binary64.isPart_ofRatio (List.length_pos_iff.mpr some) List.countP_le_length

def IsTold (vocabulary : Vocabulary) (told : String × Binary64) : Prop :=
  told.1 ∈ vocabulary.map Prod.fst ++ ["generic"] ∧ told.2.IsPart

theorem isTold_best (vocabulary : Vocabulary) (text : List Char) :
    IsTold vocabulary (best vocabulary text) := by
  have isPart : (Binary64.finite (0 : Nat)).IsPart := ⟨0, rfl, Nat.zero_le _⟩
  refine List.foldlRecOn vocabulary _ (motive := IsTold vocabulary)
    ⟨List.mem_append_right _ (List.mem_singleton_self _), isPart⟩ ?_
  rintro ⟨name, highest⟩ told ⟨pattern, cues⟩ member
  dsimp only
  split
  · rename_i higher
    have some : cues ≠ [] := by
      rintro rfl
      simp at higher
    have isPart := isPart_score some text
    generalize score cues text = value at isPart
    exact ⟨List.mem_append_left _ (List.mem_map_of_mem member), isPart⟩
  · exact told

theorem of_ofText (vocabulary : Vocabulary) (threshold : Number) (text : List Char) :
    (ofText vocabulary threshold text).name ∈ vocabulary.map Prod.fst ++ ["generic"] ∧
      Document.Shape.isFraction (ofText vocabulary threshold text).confidence = true := by
  have told := isTold_best vocabulary (Text.lower text)
  rw [ofText]
  generalize best vocabulary (Text.lower text) = pair at told
  rcases pair with ⟨name, highest⟩
  rcases told with ⟨known, isPart⟩
  dsimp only
  split
  · have half : (Binary64.ofRatio 1 2).IsPart :=
      Binary64.isPart_ofRatio (by decide) (by decide)
    unfold generic
    generalize Binary64.ofRatio 1 2 = value at half
    exact ⟨List.mem_append_right _ (List.mem_singleton_self _), half.isFraction⟩
  · exact ⟨known, (isPart.roundPlaces 3).isFraction⟩

end Recursion.Pattern

end Flowchart
