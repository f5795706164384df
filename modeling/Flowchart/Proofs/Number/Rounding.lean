import Flowchart.Proofs.Walk.Speeds
import Mathlib

/-!
Sums of floats, and the order of numbers.

A float that is added to one that is not negative gives one that is no less: the first is on every
grid to which a greater sum can be rounded, so that rounding does not pass it.
-/

namespace Flowchart

namespace Binary64

/-! ## Rounding -/

def IsExact (units : Nat) : Prop := 2 ^ lastBit units ∣ units

theorem nearestUnits_one (units : Nat) :
    nearestUnits units 1 =
      roundHalfEven units (2 ^ lastBit units) * 2 ^ lastBit units := by
  rw [nearestUnits, Nat.div_one, Nat.one_mul]
  rfl

theorem div_le_roundHalfEven (numerator denominator : Nat) :
    numerator / denominator ≤ roundHalfEven numerator denominator := by
  rw [roundHalfEven]
  split <;> omega

theorem roundHalfEven_le (numerator denominator : Nat) :
    roundHalfEven numerator denominator ≤ numerator / denominator + 1 := by
  rw [roundHalfEven]
  split <;> omega

theorem le_nearestUnits {units onGrid : Nat} (grid : 2 ^ lastBit units ∣ onGrid)
    (le : onGrid ≤ units) : onGrid ≤ nearestUnits units 1 := by
  rw [nearestUnits_one]
  calc onGrid = onGrid / 2 ^ lastBit units * 2 ^ lastBit units := (Nat.div_mul_cancel grid).symm
    _ ≤ units / 2 ^ lastBit units * 2 ^ lastBit units :=
        Nat.mul_le_mul_right _ (Nat.div_le_div_right le)
    _ ≤ _ := Nat.mul_le_mul_right _ (div_le_roundHalfEven _ _)

theorem le_nearestUnits_of_isExact {units more : Nat} (exact' : IsExact units)
    (le : units ≤ more) : units ≤ nearestUnits more 1 := by
  by_cases fine : lastBit more ≤ lastBit units
  · exact le_nearestUnits ((Nat.pow_dvd_pow 2 fine).trans exact') le
  · -- The grid is coarser, so that a power of two lies between.
    have less : units.log2 + 1 ≤ more.log2 := by
      unfold lastBit at fine
      omega
    have positive : more ≠ 0 := by
      rintro rfl
      simp at less
    have power : 2 ^ more.log2 ≤ nearestUnits more 1 :=
      le_nearestUnits (Nat.pow_dvd_pow 2 (Nat.sub_le _ _)) (Nat.log2_self_le positive)
    calc units ≤ 2 ^ (units.log2 + 1) := Nat.le_of_lt Nat.lt_log2_self
      _ ≤ 2 ^ more.log2 := Nat.pow_le_pow_right (by decide) less
      _ ≤ _ := power

theorem isExact_nearestUnits (units : Nat) : IsExact (nearestUnits units 1) := by
  have grid : 2 ^ lastBit units ∣ nearestUnits units 1 := by
    rw [nearestUnits_one]
    exact Nat.dvd_mul_left _ _
  have most : nearestUnits units 1 ≤ 2 ^ (units.log2 + 1) := by
    have whole : 2 ^ lastBit units ∣ 2 ^ (units.log2 + 1) := Nat.pow_dvd_pow 2 (by
      unfold lastBit
      omega)
    have less : units / 2 ^ lastBit units < 2 ^ (units.log2 + 1) / 2 ^ lastBit units :=
      Nat.div_lt_div_of_lt_of_dvd whole Nat.lt_log2_self
    rw [nearestUnits_one]
    calc _ ≤ 2 ^ (units.log2 + 1) / 2 ^ lastBit units * 2 ^ lastBit units :=
          Nat.mul_le_mul_right _ ((roundHalfEven_le _ _).trans less)
      _ = _ := Nat.div_mul_cancel whole
  generalize nearestUnits units 1 = rounded at grid most
  rcases Nat.lt_or_eq_of_le most with less | same
  · refine (Nat.pow_dvd_pow 2 ?_).trans grid
    by_cases zero : rounded = 0
    · rw [zero]
      exact Nat.zero_le _
    · have log := (Nat.log2_lt zero).mpr less
      unfold lastBit
      omega
  · rw [same, IsExact, lastBit, Nat.log2_two_pow]
    exact Nat.pow_dvd_pow 2 (Nat.sub_le _ _)

/-! ## The order of numbers -/

def extended? : Binary64 → Option (WithBot (WithTop Int))
  | .finite units => some ((units : WithTop Int) : WithBot (WithTop Int))
  | .negativeZero => some (((0 : Int) : WithTop Int) : WithBot (WithTop Int))
  | .infinite true => some ⊥
  | .infinite false => some ⊤
  | .notANumber => none

end Binary64

namespace Number

def extended? : Number → Option (WithBot (WithTop Int))
  | .int value => some ((value * Binary64.one : Int) : WithTop Int)
  | .float value => value.extended?

theorem compare?_eq_some_iff {left right : Number} {order : Ordering} :
    compare? left right = some order ↔ ∃ low high, left.extended? = some low ∧
      right.extended? = some high ∧ order.Compares low high := by
  have positive : (0 : Int) < Binary64.one := Int.natCast_pos.mpr Binary64.one_pos
  have falseLess : compare true false = .gt := rfl
  have trueLess : compare false true = .lt := rfl
  have finite (value : Int) : ((value : WithTop Int) : WithBot (WithTop Int)) < ⊤ :=
    WithBot.coe_lt_coe.mpr (WithTop.coe_lt_top value)
  -- Values in units are named, so that neither the unit nor a cast of zero is evaluated.
  rcases left with left | left <;> rcases right with right | right
  · have scaled : compare left right = compare (left * Binary64.one) (right * Binary64.one) := by
      simp only [compare, compareOfLessAndEq, Int.mul_lt_mul_right positive,
        Int.mul_eq_mul_right_iff positive.ne']
    simp only [compare?, extended?, scaled]
    generalize left * (Binary64.one : Int) = low
    generalize right * (Binary64.one : Int) = high
    cases order <;> simp [Ordering.Compares, Int.compare_eq_lt, Int.compare_eq_gt]
  · rcases right with right | _ | (_ | _) | _ <;>
      simp only [compare?, compareIntFloat?, extended?, Binary64.extended?, Binary64.units?] <;>
      generalize left * (Binary64.one : Int) = low, (0 : Int) = zero <;>
      cases order <;> simp [Ordering.Compares, Int.compare_eq_lt, Int.compare_eq_gt, finite]
  · rcases left with left | _ | (_ | _) | _ <;>
      simp only [compare?, compareIntFloat?, extended?, Binary64.extended?, Binary64.units?] <;>
      generalize right * (Binary64.one : Int) = high, (0 : Int) = zero <;>
      cases order <;>
      simp [Ordering.Compares, Int.compare_eq_lt, Int.compare_eq_gt, Int.compare_swap, finite]
  · rcases left with left | _ | (_ | _) | _ <;> rcases right with right | _ | (_ | _) | _ <;>
      simp only [compare?, Binary64.compare?, extended?, Binary64.extended?, Binary64.units?] <;>
      generalize (0 : Int) = zero <;>
      cases order <;>
      simp [Ordering.Compares, Int.compare_eq_lt, Int.compare_eq_gt, falseLess, trueLess, finite]

theorem le_iff {left right : Number} :
    left ≤ right ↔ ∃ low high, left.extended? = some low ∧ right.extended? = some high ∧
      low ≤ high := by
  have unfolded : left ≤ right ↔ ∃ order, compare? left right = some order ∧ order ≠ .gt := by
    change (compare? left right).any (· ≠ .gt) = true ↔ _
    cases compare? left right <;> simp
  simp only [unfolded, compare?_eq_some_iff]
  constructor
  · rintro ⟨order, ⟨low, high, isLow, isHigh, compares⟩, notGreater⟩
    exact ⟨low, high, isLow, isHigh, compares.ne_gt.mp notGreater⟩
  · rintro ⟨low, high, isLow, isHigh, le⟩
    have compares := cmp_compares low high
    exact ⟨_, ⟨low, high, isLow, isHigh, compares⟩, compares.ne_gt.mpr le⟩

/-- Whether one may show a time after the other: it is no less, or no time at all. -/
def NotBefore (first second : Number) : Prop := first ≤ second ∨ ¬second ≤ second

theorem NotBefore.refl (number : Number) : NotBefore number number := Classical.em _

theorem NotBefore.trans {first second third : Number} (left : NotBefore first second)
    (right : NotBefore second third) : NotBefore first third := by
  rcases right with right | noTime
  · rcases le_iff.mp right with ⟨middle, high, isMiddle, isHigh, upper⟩
    rcases left with left | noTime
    · rcases le_iff.mp left with ⟨low, middle', isLow, isMiddle', lower⟩
      cases isMiddle.symm.trans isMiddle'
      exact .inl (le_iff.mpr ⟨low, high, isLow, isHigh, lower.trans upper⟩)
    · exact absurd (le_iff.mpr ⟨middle, middle, isMiddle, isMiddle, le_rfl⟩) noTime
  · exact .inr noTime

theorem notBefore_of_lt {first second : Number} (less : first < second) :
    NotBefore first second := by
  have compared : compare? first second = some .lt := less
  refine .inl ?_
  change (compare? first second).any (· ≠ .gt) = true
  rw [compared]
  rfl

theorem notBefore_of_not_lt {first second third : Number} (less : first < second)
    (notGreater : ¬third < second) : NotBefore second third := by
  by_cases isTime : third ≤ third
  · rcases compare?_eq_some_iff.mp less with ⟨_, middle, _, isMiddle, _⟩
    rcases le_iff.mp isTime with ⟨high, _, isHigh, _, _⟩
    refine .inl (le_iff.mpr ⟨middle, high, isMiddle, isHigh, le_of_not_gt fun greater => ?_⟩)
    exact notGreater (compare?_eq_some_iff.mpr ⟨high, middle, isHigh, isMiddle, greater⟩)
  · exact .inr isTime

end Number

/-! ## Times on a clock -/

namespace Binary64

def IsShown : Binary64 → Prop
  | .finite units => 0 ≤ units ∧ IsExact units.toNat
  | .negativeZero => False
  | .infinite negative => negative = false
  | .notANumber => True

def IsNotNegative : Binary64 → Prop
  | .finite units => 0 ≤ units
  | .infinite negative => negative = false
  | _ => True

theorem ofUnits_of_nonneg {units : Int} (nonneg : 0 ≤ units) :
    ofUnits units 1 = .infinite false ∨ ofUnits units 1 = .finite (nearestUnits units.toNat 1) := by
  have same : units.natAbs = units.toNat := by omega
  unfold ofUnits
  dsimp only
  rw [same, if_neg (Int.not_lt.mpr nonneg), decide_eq_false (Int.not_lt.mpr nonneg)]
  split
  · exact .inl rfl
  · exact .inr rfl

theorem notBefore_ofUnits {units total : Int} (shown : (finite units).IsShown)
    (le : units ≤ total) :
    (ofUnits total 1).IsShown ∧
      Number.NotBefore (.float (.finite units)) (.float (ofUnits total 1)) := by
  rcases shown with ⟨nonneg, isExact⟩
  rcases ofUnits_of_nonneg (nonneg.trans le) with same | same
  · rw [same]
    exact ⟨rfl, .inl (Number.le_iff.mpr ⟨_, _, rfl, rfl, le_top⟩)⟩
  · rw [same]
    refine ⟨⟨Int.natCast_nonneg _, isExact_nearestUnits _⟩, .inl ?_⟩
    have rounded := le_nearestUnits_of_isExact isExact (Int.toNat_le_toNat le)
    refine Number.le_iff.mpr ⟨_, _, rfl, rfl, ?_⟩
    rw [WithBot.coe_le_coe, WithTop.coe_le_coe]
    omega

theorem finite_add_finite (left right : Int) :
    finite left + finite right = ofUnits (left + right) 1 := by
  change add (finite left) (finite right) = _
  unfold add
  dsimp only [units?, Option.getD_some]

theorem finite_add_negativeZero (units : Int) :
    finite units + negativeZero = ofUnits (units + 0) 1 := by
  change add (finite units) negativeZero = _
  unfold add
  dsimp only [units?, Option.getD_some]

/-- A sum with what is not negative rounds an exact sum, or is beyond all others, or is none. -/
theorem add_cases {value more : Binary64} (shown : value.IsShown)
    (notNegative : more.IsNotNegative) :
    (∃ units total, value = .finite units ∧ units ≤ total ∧ value + more = ofUnits total 1) ∨
      (∃ low, value.extended? = some low) ∧ value + more = .infinite false ∨
      value + more = .notANumber := by
  rcases value with units | _ | negative | _
  case finite =>
    rcases more with more | _ | negative | _
    case finite =>
      exact .inl ⟨_, _, rfl, Int.le_add_of_nonneg_right notNegative, finite_add_finite units more⟩
    case negativeZero =>
      exact .inl ⟨_, _, rfl, Int.le_add_of_nonneg_right (Int.le_refl 0),
        finite_add_negativeZero units⟩
    case infinite =>
      cases notNegative
      exact .inr (.inl ⟨⟨_, rfl⟩, rfl⟩)
    case notANumber => exact .inr (.inr rfl)
  case negativeZero => exact shown.elim
  case infinite =>
    cases shown
    rcases more with more | _ | negative | _
    case finite | negativeZero => exact .inr (.inl ⟨⟨_, rfl⟩, rfl⟩)
    case infinite =>
      cases notNegative
      exact .inr (.inl ⟨⟨_, rfl⟩, rfl⟩)
    case notANumber => exact .inr (.inr rfl)
  case notANumber => exact .inr (.inr rfl)

theorem notBefore_add {value more : Binary64} (shown : value.IsShown)
    (notNegative : more.IsNotNegative) :
    (value + more).IsShown ∧ Number.NotBefore (.float value) (.float (value + more)) := by
  rcases add_cases shown notNegative with
    ⟨units, total, rfl, le, same⟩ | ⟨⟨low, isTime⟩, same⟩ | same
  · rw [same]
    exact notBefore_ofUnits shown le
  · rw [same]
    exact ⟨rfl, .inl (Number.le_iff.mpr ⟨low, ⊤, isTime, rfl, le_top⟩)⟩
  · rw [same]
    exact ⟨trivial, .inr (by decide)⟩

end Binary64

namespace Number

def IsShown (number : Number) : Prop := ∃ value : Binary64, number = .float value ∧ value.IsShown

theorem isShown_zero : IsShown 0 := ⟨0, rfl, Int.le_refl 0, Nat.dvd_zero _⟩

theorem toBinary64?_float (value : Binary64) : (float value).toBinary64? = some value := by
  unfold toBinary64?
  rfl

theorem isNotNegative_of_toBinary64? {number : Number} (notNegative : ¬number < 0)
    {value : Binary64} (isFloat : number.toBinary64? = some value) : value.IsNotNegative := by
  have unfolded : number < 0 ↔ compare? number (.float (.finite 0)) = some .lt := Iff.rfl
  rw [unfolded] at notNegative
  cases number with
  | int whole =>
      have nonneg : 0 ≤ whole * (Binary64.one : Int) := by
        change ¬some (compare (whole * (Binary64.one : Int)) 0) = some Ordering.lt at notNegative
        rw [Option.some.injEq, Int.compare_eq_lt] at notNegative
        exact Int.not_lt.mp notNegative
      have rounded := Binary64.ofUnits_of_nonneg nonneg
      change (int whole).toBinary64 = _ ∨ (int whole).toBinary64 = _ at rounded
      unfold toBinary64? at isFloat
      rcases rounded with same | same <;> rw [same] at isFloat <;> cases isFloat
      exact Int.natCast_nonneg _
  | float given =>
      cases (toBinary64?_float given).symm.trans isFloat
      rcases value with units | _ | negative | _
      case finite =>
        change ¬some (compare units 0) = some Ordering.lt at notNegative
        rw [Option.some.injEq, Int.compare_eq_lt] at notNegative
        exact Int.not_lt.mp notNegative
      case negativeZero | notANumber => trivial
      case infinite =>
        cases negative
        · rfl
        · exact absurd rfl notNegative

theorem after?_float (value : Binary64) (duration : Number) :
    ClockTime.after? (.float value) duration =
      duration.toBinary64?.map fun more => .float (value + more) := by
  change add? (.float value) duration = _
  rw [add?, toBinary64?_float]
  · cases duration.toBinary64? <;> rfl
  · nofun

theorem notBefore_after? {clock duration target : Number} (shown : clock.IsShown)
    (notNegative : ¬duration < 0) (later : ClockTime.after? clock duration = some target) :
    target.IsShown ∧ clock.NotBefore target := by
  rcases shown with ⟨value, rfl, shown⟩
  rw [after?_float] at later
  rcases Option.map_eq_some_iff.mp later with ⟨more, isFloat, same⟩
  cases same
  rcases Binary64.notBefore_add shown (isNotNegative_of_toBinary64? notNegative isFloat) with
    ⟨shownThen, notBefore⟩
  exact ⟨⟨_, rfl, shownThen⟩, notBefore⟩

end Number

end Flowchart
