import Flowchart.Number.Numeral
import Flowchart.Proofs.Text.Digit

/-!
Whole numbers that are written in decimal digits and read back.
-/

namespace Flowchart

open Text

namespace Text

theorem digitValue?_of_isDigit {c : Char} (digit : c.isDigit = true) :
    digitValue? c = some (c.toNat - '0'.toNat) := by
  have code := code_of_isDigit digit
  have first : (0x30 ≤ c.toNat && c.toNat < 0x30 + 10) = true := by
    simp only [Bool.and_eq_true, decide_eq_true_eq]
    omega
  have zeros : digitZeros = 0x30 :: digitZeros.tail := rfl
  have found : (digitZeros.find? fun start => start ≤ c.toNat && c.toNat < start + 10) =
      some 0x30 := by
    rw [zeros]
    exact List.find?_cons_of_pos first
  rw [digitValue?, found]
  rfl

theorem digitsValue_of_isDigit {digits : List Char} (areDigits : ∀ c ∈ digits, c.isDigit = true) :
    digitsValue digits = Nat.ofDigitChars 10 digits 0 := by
  rw [digitsValue, Nat.ofDigitChars_eq_foldl]
  refine List.foldl_ext _ _ _ fun value c member => ?_
  rw [digitValue?_of_isDigit (areDigits c member), Option.getD_some]

theorem digitsValue_toDigits (value : Nat) : digitsValue (Nat.toDigits 10 value) = value := by
  have areDigits : ∀ c ∈ Nat.toDigits 10 value, c.isDigit = true := fun _ member =>
    Nat.isDigit_of_mem_toDigits (by decide) (by decide) member
  rw [digitsValue_of_isDigit areDigits, Nat.ofDigitChars_ten_toDigits]

theorem digitValue_lt (c : Char) : (digitValue? c).getD 0 < 10 := by
  rw [digitValue?]
  cases found : digitZeros.find? fun start => start ≤ c.toNat && c.toNat < start + 10 with
  | none => exact Nat.succ_pos 9
  | some start =>
      have inRow := List.find?_some found
      simp only [Bool.and_eq_true, decide_eq_true_eq] at inRow
      simp only [Option.map_some, Option.getD_some]
      omega

theorem digitsValue_lt (digits : List Char) : digitsValue digits < 10 ^ digits.length := by
  induction digits using List.reverseRecOn with
  | nil => decide
  | append_singleton digits c induction =>
      have last := digitValue_lt c
      have value : digitsValue (digits ++ [c]) =
          10 * digitsValue digits + (digitValue? c).getD 0 := by
        simp [digitsValue]
      rw [value, List.length_append, List.length_singleton, pow_succ]
      omega

end Text

namespace Numeral

theorem toList_toString (value : Int) :
    (toString value).toList =
      (if value < 0 then ['-'] else []) ++ Nat.toDigits 10 value.natAbs := by
  cases value with
  | ofNat size =>
      have written : (toString (Int.ofNat size)).toList = (Nat.repr size).toList := rfl
      rw [written, if_neg (by simp), Nat.toList_repr]
      rfl
  | negSucc size =>
      have written : (toString (Int.negSucc size)).toList =
          ("-" ++ Nat.repr (size + 1)).toList := rfl
      rw [written, if_pos (Int.negSucc_lt_zero size), String.toList_append, Nat.toList_repr]
      rfl

theorem isDigit_of_mem_toDigits {value : Nat} {c : Char} (member : c ∈ Nat.toDigits 10 value) :
    c.isDigit = true :=
  Nat.isDigit_of_mem_toDigits (by decide) (by decide) member

theorem isDigit_or_minus {value : Int} {c : Char} (member : c ∈ (toString value).toList) :
    c.isDigit = true ∨ c = '-' := by
  rw [toList_toString] at member
  rcases List.mem_append.mp member with sign | digit
  · split at sign
    · exact .inr (List.mem_singleton.mp sign)
    · cases sign
  · exact .inl (isDigit_of_mem_toDigits digit)

theorem not_isBlank_of_mem_toString {value : Int} {c : Char}
    (member : c ∈ (toString value).toList) : isBlank c = false := by
  rcases isDigit_or_minus member with digit | rfl
  · exact isBlank_of_isDigit digit
  · rfl

theorem ungroup?_of_isDigit {digits : List Char} (areDigits : ∀ c ∈ digits, c.isDigit = true)
    (inside : Bool) : ungroup? inside digits = some digits := by
  induction digits generalizing inside with
  | nil => rfl
  | cons c digits induction =>
      have others : ∀ other ∈ digits, other.isDigit = true :=
        fun other member => areDigits other (List.mem_cons_of_mem _ member)
      have later := induction others true
      have digit := areDigits c List.mem_cons_self
      rw [ungroup?, if_pos (isDecimalDigit_of_isDigit digit), later, Option.map_some]
      rintro other rest rfl
      cases digit

theorem unpad_of_not_isPadding {text : List Char} (free : ∀ c ∈ text, isPadding c = false) :
    unpad text = text := by
  have kept (front : List Char) (free : ∀ c ∈ front, isPadding c = false) :
      front.dropWhile isPadding = front := by
    cases front with
    | nil => rfl
    | cons c rest => exact List.dropWhile_cons_of_neg (by simp [free c List.mem_cons_self])
  rw [unpad, kept text free, kept text.reverse fun c member => free c (List.mem_reverse.mp member),
    List.reverse_reverse]

theorem splitSign_signed {digits : List Char} (areDigits : ∀ c ∈ digits, c.isDigit = true)
    (negative : Bool) :
    splitSign ((if negative then ['-'] else []) ++ digits) = (negative, digits) := by
  cases negative with
  | true => rfl
  | false =>
      rw [if_neg (by decide), List.nil_append, splitSign]
      · rintro rest rfl
        cases areDigits '-' List.mem_cons_self
      · rintro rest rfl
        cases areDigits '+' List.mem_cons_self

theorem signed_natAbs (value : Int) : signed (decide (value < 0)) value.natAbs = value := by
  unfold signed
  split
  · rename_i negative
    have negative := of_decide_eq_true negative
    omega
  · rename_i positive
    have positive := of_decide_eq_false (Bool.eq_false_iff.mpr positive)
    omega

theorem readInt_toString {value : Int} (short : (Nat.toDigits 10 value.natAbs).length ≤ maxDigits) :
    readInt (toString value).toList = .ok value := by
  have areDigits : ∀ c ∈ Nat.toDigits 10 value.natAbs, c.isDigit = true :=
    fun _ => isDigit_of_mem_toDigits
  have free : ∀ c ∈ (toString value).toList, isPadding c = false := by
    intro c member
    rw [isPadding, not_isBlank_of_mem_toString member, Bool.false_and]
  have split : splitSign (unpad (toString value).toList) =
      (decide (value < 0), Nat.toDigits 10 value.natAbs) := by
    rw [unpad_of_not_isPadding free, toList_toString, ← splitSign_signed areDigits]
    simp only [decide_eq_true_eq]
  have whole : wholeOfDigits (Nat.toDigits 10 value.natAbs) = .ok value.natAbs := by
    rw [wholeOfDigits, if_neg (Nat.not_lt.mpr short), digitsValue_toDigits]
  simp only [readInt, split, ungroup?_of_isDigit areDigits]
  split
  · rename_i none
    cases none
  · rename_i empty
    exact absurd (Option.some.inj empty) Nat.toDigits_ne_nil
  · rename_i digits _ some
    rw [← Option.some.inj some, whole, Except.map, signed_natAbs]

end Numeral

end Flowchart
