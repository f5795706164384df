import Flowchart.Timeline
import Flowchart.Walk
import Mathlib.Algebra.Order.Ring.Int

/-!
Speeds within their limits.

Whatever number is asked for, the speed lies between the limits of the options. So a clock that
counts in numbers can wait for the next step at every speed, unless the limits are negative or
beyond what a float can show.
-/

namespace Flowchart

/-! ## Numbers cut to whole ones -/

theorem Binary64.one_pos : 0 < one := by decide +kernel

namespace Number

theorem compareIntFloat?_of_units {value : Binary64} {units : Int}
    (isFinite : value.units? = some units) (left : Int) :
    compareIntFloat? left value = some (compare (left * Binary64.one) units) := by
  cases value with
  | finite | negativeZero =>
      cases isFinite
      rfl
  | infinite | notANumber => cases isFinite

theorem int_less_int_iff {left right : Int} :
    (int left).less (.int right) = true ↔ left < right := by
  rw [less, decide_eq_true_iff, compare?, Option.some.injEq, Int.compare_eq_lt]

theorem truncate_mem {number : Number} {low high : Int} (above : (int low).less number = true)
    (below : number.less (.int high) = true) :
    low ≤ number.truncate ∧ number.truncate ≤ high := by
  rw [less, decide_eq_true_iff] at above below
  cases number with
  | int value =>
      rw [compare?, Option.some.injEq, Int.compare_eq_lt] at above below
      exact ⟨Int.le_of_lt above, Int.le_of_lt below⟩
  | float value =>
      change compareIntFloat? low value = some .lt at above
      change (compareIntFloat? high value).map Ordering.swap = some .lt at below
      cases isFinite : value.units? with
      | none =>
          -- No float beyond all others lies between whole numbers.
          cases value with
          | finite | negativeZero => cases isFinite
          | infinite negative => cases negative <;> simp_all [compareIntFloat?]
          | notANumber => cases above
      | some units =>
          rw [compareIntFloat?_of_units isFinite] at above below
          rw [Option.some.injEq, Int.compare_eq_lt] at above
          rw [Option.map_some, Option.some.injEq, Ordering.swap_eq_lt, Int.compare_eq_gt] at below
          have positive : (0 : Int) < Binary64.one := Int.natCast_pos.mpr Binary64.one_pos
          have cut := Int.ne_of_gt positive
          rw [truncate, Binary64.truncate, isFinite, Option.getD_some]
          constructor
          · rw [← Int.mul_tdiv_cancel low cut]
            exact Int.tdiv_le_tdiv positive (Int.le_of_lt above)
          · rw [← Int.mul_tdiv_cancel high cut]
            exact Int.tdiv_le_tdiv positive (Int.le_of_lt below)

end Number

/-! ## Limits -/

namespace Walk

theorem Options.clamp_mem (options : Options) (value : Number) :
    options.leastSpeed ≤ options.clamp value ∧
      options.clamp value ≤ max options.leastSpeed options.greatestSpeed := by
  rw [clamp, Number.greatest]
  by_cases below : value.less (.int options.greatestSpeed) = true
  · rw [Number.least, if_pos below]
    split
    · rename_i above
      have between := Number.truncate_mem above below
      omega
    · simp only [Number.truncate]
      omega
  · rw [Number.least, if_neg below]
    split
    · rename_i above
      rw [Number.int_less_int_iff] at above
      simp only [Number.truncate]
      omega
    · simp only [Number.truncate]
      omega

def Options.Awaitable (τ : Type) [Zero τ] [ClockTime τ] [LT τ] [IntCast τ]
    (options : Options) : Prop :=
  ∀ (value : Number) (clock : τ), ¬(options.clamp value : τ) < 0 ∧
    (ClockTime.after? clock (options.clamp value : τ)).isSome

end Walk

/-! ## Whole numbers as floats -/

namespace Binary64

theorem roundHalfEven_mul_le (numerator denominator : Nat) :
    roundHalfEven numerator denominator * denominator ≤ numerator + denominator := by
  have least : numerator / denominator * denominator ≤ numerator := Nat.div_mul_le_self _ _
  rw [roundHalfEven]
  split
  · omega
  · rw [Nat.succ_mul]
    omega

theorem nearestUnits_le (units : Nat) : nearestUnits units 1 ≤ 2 * units + 1 := by
  have last : Nat.pow 2 (lastBit units) ≤ units + 1 := by
    cases units with
    | zero => decide
    | succ units =>
        have power : Nat.pow 2 (lastBit (units + 1)) ≤ 2 ^ (units + 1).log2 :=
          Nat.pow_le_pow_right (by decide) (Nat.sub_le _ _)
        exact Nat.le_succ_of_le (Nat.le_trans power (Nat.log2_self_le (Nat.succ_ne_zero units)))
  have rounded := roundHalfEven_mul_le units (Nat.pow 2 (lastBit units))
  rw [nearestUnits, Nat.div_one, Nat.one_mul]
  omega

theorem ofInt_ne_infinite {value : Int} (small : value.natAbs < 2 ^ 53) (negative : Bool) :
    ofInt value ≠ .infinite negative := by
  have fits : nearestUnits (value * one).natAbs 1 < limit := by
    have most := nearestUnits_le (value * one).natAbs
    rw [Int.natAbs_mul, Int.natAbs_natCast] at most ⊢
    have inside := Nat.mul_le_mul_right one (Nat.succ_le_of_lt small)
    have some := one_pos
    have room : 4 * (2 ^ 53 * one) < limit := by decide +kernel
    rw [Nat.succ_mul] at inside
    omega
  unfold ofInt ofRatio ofUnits
  dsimp only
  rw [if_neg (Nat.not_le.mpr fits)]
  split
  · split <;> nofun
  · nofun

end Binary64

theorem Number.exists_toBinary64? {value : Int} (small : value.natAbs < 2 ^ 53) :
    ∃ float, (int value).toBinary64? = some float := by
  unfold toBinary64?
  split
  · rename_i isInfinite
    exact absurd isInfinite (Binary64.ofInt_ne_infinite small _)
  · exact ⟨_, rfl⟩

theorem Walk.Options.awaitable_number {options : Options} (positive : 0 ≤ options.leastSpeed)
    (least : options.leastSpeed < 2 ^ 53) (greatest : options.greatestSpeed < 2 ^ 53) :
    options.Awaitable Number := by
  intro value clock
  rcases options.clamp_mem value with ⟨above, below⟩
  generalize options.clamp value = speed at above below ⊢
  constructor
  · intro negative
    change some (compare (speed * Binary64.one) 0) = some Ordering.lt at negative
    rw [Option.some.injEq, Int.compare_eq_lt] at negative
    have product := Int.mul_nonneg (Int.le_trans positive above) (Int.natCast_nonneg Binary64.one)
    exact Int.not_lt.mpr product negative
  · cases clock with
    | int clock => rfl
    | float clock =>
        have small : speed.natAbs < 2 ^ 53 := by omega
        rcases Number.exists_toBinary64? small with ⟨float, isFloat⟩
        change (do
          return Number.float
            ((← (Number.float clock).toBinary64?) + (← (Number.int speed).toBinary64?)) :
            Option Number).isSome
        rw [isFloat]
        rfl

end Flowchart
