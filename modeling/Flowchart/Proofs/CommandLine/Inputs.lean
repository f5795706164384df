import Flowchart.CommandLine.Inputs
import Flowchart.Proofs.Number.Written
import Flowchart.Proofs.Text.Lines
import Flowchart.Proofs.Text.Margin
import Mathlib.Data.List.TFAE
import Mathlib.Tactic.TFAE

/-!
Variables that are written as inputs, one item for each, and read back.

Truth values, whole numbers and texts between quotes come back as they were written. But an item is
cut at its commas before its quotes are seen, so that no text with a comma comes back.
-/

namespace Flowchart.CommandLine

open Text

/-! ## Inputs as they are written -/

def writeValue : Value → List Char
  | .text value => '\'' :: (value.toList ++ ['\''])
  | .bool value => if value then "true".toList else "false".toList
  | .number value => value.text.toList
  | .null => []

def writeInput (entry : String × Value) : String :=
  String.ofList (entry.1.toList ++ '=' :: writeValue entry.2)

structure IsInputName (name : String) : Prop where
  filled : name ≠ ""
  noEquals : '=' ∉ name.toList
  noComma : ',' ∉ name.toList
  trimmed : Trimmed name.toList

def IsInputValue : Value → Prop
  | .text _ => True
  | .bool _ => True
  | .number (.int value) => (Nat.toDigits 10 value.natAbs).length ≤ Numeral.maxDigits
  | _ => False

structure AreInputs (bindings : Bindings) : Prop where
  distinct : (bindings.map Prod.fst).Nodup
  names : ∀ entry ∈ bindings, IsInputName entry.1
  values : ∀ entry ∈ bindings, IsInputValue entry.2

/-! ## Values -/

theorem exists_first_of_toString (value : Int) :
    ∃ c rest, (toString value).toList = c :: rest ∧ (c.isDigit = true ∨ c = '-') := by
  have some : (toString value).toList ≠ [] := by
    rw [Numeral.toList_toString]
    exact fun none => Nat.toDigits_ne_nil (List.append_eq_nil_iff.mp none).2
  rcases List.exists_cons_of_ne_nil some with ⟨c, rest, written⟩
  exact ⟨c, rest, written, Numeral.isDigit_or_minus (written ▸ List.mem_cons_self)⟩

theorem trimmed_toString (value : Int) : Trimmed (toString value).toList where
  first := by
    cases first : (toString value).toList.head? with
    | none => rfl
    | some c => exact Numeral.not_isBlank_of_mem_toString (List.mem_of_head? first)
  last := by
    cases last : (toString value).toList.getLast? with
    | none => rfl
    | some c => exact Numeral.not_isBlank_of_mem_toString (List.mem_of_getLast? last)

theorem unquote?_toString (value : Int) : unquote? (toString value).toList = none := by
  rcases exists_first_of_toString value with ⟨c, rest, written, digit | rfl⟩
  · have noQuote : ¬((c = '"' ∨ c = '\'') ∧ rest.getLast? = some c) := by
      rintro ⟨rfl | rfl, _⟩ <;> cases digit
    rw [written, unquote?, if_neg noQuote]
  · rw [written, unquote?, if_neg (by simp)]

theorem lower_toString_ne {word : String} (isTruth : word ∈ ["true", "false"]) (value : Int) :
    lower (toString value).toList ≠ word.toList := by
  rcases exists_first_of_toString value with ⟨c, rest, written, first⟩
  have small : c.toNat < 128 ∧ lowerChar c = c := by
    rcases first with digit | rfl
    · have code := code_of_isDigit digit
      exact ⟨by omega, lowerChar_of_isDigit digit⟩
    · decide
  rw [written, lower, lowerAfter, if_neg (by omega), if_neg (by omega), small.2]
  intro same
  have head : word.toList.head? = some c := by rw [← same]; rfl
  simp only [List.mem_cons, List.not_mem_nil, or_false] at isTruth
  rcases isTruth with rfl | rfl <;> cases head <;> rcases first with digit | minus
  · cases digit
  · cases minus
  · cases digit
  · cases minus

theorem unquote?_quoted (inside : List Char) :
    unquote? ('\'' :: (inside ++ ['\''])) = some inside := by
  rw [unquote?, if_pos ⟨.inr rfl, List.getLast?_concat⟩, List.dropLast_concat]

theorem trimmed_writeValue {value : Value} (isInput : IsInputValue value) :
    Trimmed (writeValue value) := by
  cases value with
  | null => cases isInput
  | bool value => cases value <;> exact ⟨rfl, rfl⟩
  | text value =>
      refine ⟨rfl, ?_⟩
      rw [writeValue, List.getLast?_cons_of_ne_nil (by simp), List.getLast?_concat]
      rfl
  | number value =>
      cases value with
      | float value => cases isInput
      | int value => exact trimmed_toString value

theorem inputValue_writeValue {value : Value} (isInput : IsInputValue value) :
    inputValue (writeValue value) = value := by
  cases value with
  | null => cases isInput
  | bool value => cases value <;> decide +kernel
  | text value =>
      simp only [writeValue, inputValue, unquote?_quoted]
      rw [String.ofList_toList]
  | number value =>
      cases value with
      | float value => cases isInput
      | int value =>
          have written : writeValue (.number (.int value)) = (toString value).toList := rfl
          have read : number? (toString value).toList = some (.int value) := by
            rw [number?, Numeral.readInt_toString isInput]
          rw [written, inputValue, unquote?_toString]
          dsimp only
          rw [if_neg (lower_toString_ne (by simp) value),
            if_neg (lower_toString_ne (by simp) value), read]

theorem comma_mem_writeValue_iff {value : Value} (isInput : IsInputValue value) :
    ',' ∈ writeValue value ↔ ∃ text, value = .text text ∧ ',' ∈ text.toList := by
  cases value with
  | null => cases isInput
  | bool value => cases value <;> simp [writeValue]
  | text value => simp [writeValue]
  | number value =>
      cases value with
      | float value => cases isInput
      | int value =>
          refine iff_of_false (fun comma => ?_) (by simp)
          rcases Numeral.isDigit_or_minus comma with digit | minus
          · cases digit
          · cases minus

/-! ## Items -/

section

variable {bindings : Bindings} {entry : String × Value}

theorem input?_written (isName : IsInputName entry.1) (isValue : IsInputValue entry.2) :
    input? (writeInput entry).toList = some entry := by
  have cut : (entry.1.toList ++ '=' :: writeValue entry.2).span (· ≠ '=') =
      (entry.1.toList, '=' :: writeValue entry.2) := by
    have before : ∀ c ∈ entry.1.toList, decide (c ≠ '=') = true := fun c member =>
      decide_eq_true fun same => isName.noEquals (same ▸ member)
    rw [List.span_eq_takeWhile_dropWhile, List.takeWhile_append_of_pos before,
      List.dropWhile_append_of_pos before]
    simp
  rw [writeInput, String.toList_ofList, input?, cut]
  dsimp only
  rw [isName.trimmed.trim_eq, String.ofList_toList, (trimmed_writeValue isValue).trim_eq,
    inputValue_writeValue isValue]

theorem pieces_written (isName : IsInputName entry.1) (noComma : ',' ∉ writeValue entry.2) :
    pieces ',' (writeInput entry).toList = [(writeInput entry).toList] := by
  refine pieces_of_not_mem fun comma => ?_
  rw [writeInput, String.toList_ofList, List.mem_append, List.mem_cons] at comma
  rcases comma with inName | same | inValue
  · exact isName.noComma inName
  · cases same
  · exact noComma inValue

theorem filterMap_written (names : ∀ entry ∈ bindings, IsInputName entry.1)
    (values : ∀ entry ∈ bindings, IsInputValue entry.2)
    (noComma : ∀ entry ∈ bindings, ',' ∉ writeValue entry.2) :
    ((bindings.map writeInput).flatMap fun item => pieces ',' item.toList).filterMap input? =
      bindings := by
  induction bindings with
  | nil => rfl
  | cons entry bindings induction =>
      have isName := names entry List.mem_cons_self
      rw [List.map_cons, List.flatMap_cons,
        pieces_written isName (noComma entry List.mem_cons_self), List.singleton_append,
        List.filterMap_cons, input?_written isName (values entry List.mem_cons_self)]
      dsimp only
      rw [induction (fun other member => names other (List.mem_cons_of_mem _ member))
        (fun other member => values other (List.mem_cons_of_mem _ member))
        fun other member => noComma other (List.mem_cons_of_mem _ member)]

/-! ## Bindings -/

theorem putField_of_not_mem {name : String} {value : Value} (fresh : name ∉ bindings.map Prod.fst) :
    putField name value bindings = bindings ++ [(name, value)] := by
  induction bindings with
  | nil => rfl
  | cons other bindings induction =>
      rw [List.map_cons, List.mem_cons, not_or] at fresh
      rw [putField, if_neg (Ne.symm fresh.1), induction fresh.2, List.cons_append]

theorem foldl_putField_of_distinct (before : Bindings)
    (distinct : ((before ++ bindings).map Prod.fst).Nodup) :
    bindings.foldl (fun bindings (name, value) => putField name value bindings) before =
      before ++ bindings := by
  induction bindings generalizing before with
  | nil => rw [List.foldl_nil, List.append_nil]
  | cons entry bindings induction =>
      rcases entry with ⟨name, value⟩
      have fresh : name ∉ before.map Prod.fst := by
        rw [List.map_append, List.map_cons, List.nodup_append] at distinct
        exact fun member => distinct.2.2 _ member _ List.mem_cons_self rfl
      rw [List.foldl_cons]
      dsimp only
      rw [putField_of_not_mem fresh, induction _ (by simpa using distinct), List.append_assoc,
        List.singleton_append]

theorem forall_mem_putField {property : String × Value → Prop} {name : String} {value : Value}
    (own : property (name, value)) (others : ∀ entry ∈ bindings, property entry) :
    ∀ entry ∈ putField name value bindings, property entry := by
  induction bindings with
  | nil => simpa [putField] using own
  | cons other bindings induction =>
      rw [List.forall_mem_cons] at others
      rw [putField]
      split
      · exact List.forall_mem_cons.mpr ⟨own, others.2⟩
      · exact List.forall_mem_cons.mpr ⟨others.1, induction others.2⟩

theorem forall_mem_foldl_putField {property : String × Value → Prop} {entries : Bindings}
    (each : ∀ entry ∈ entries, property entry) (before : ∀ entry ∈ bindings, property entry) :
    ∀ entry ∈ entries.foldl (fun bindings (name, value) => putField name value bindings) bindings,
      property entry := by
  induction entries generalizing bindings with
  | nil => exact before
  | cons entry entries induction =>
      rw [List.forall_mem_cons] at each
      exact induction each.2 (forall_mem_putField each.1 before)

end

/-! ## Commas -/

theorem not_mem_of_mem_pieces {separator : Char} {text piece : List Char}
    (member : piece ∈ pieces separator text) : separator ∉ piece := by
  induction text generalizing piece with
  | nil => simp_all [pieces]
  | cons c text induction =>
      rw [pieces] at member
      split at member
      · rcases List.mem_cons.mp member with rfl | later
        · exact List.not_mem_nil
        · exact induction later
      · rename_i other
        split at member
        · rw [List.mem_singleton.mp member]
          simpa using Ne.symm other
        · rename_i first others cut
          rw [cut] at induction
          rcases List.mem_cons.mp member with rfl | later
          · rw [List.mem_cons, not_or]
            exact ⟨Ne.symm other, induction List.mem_cons_self⟩
          · exact induction (List.mem_cons_of_mem _ later)

theorem subset_of_unquote? {text inside : List Char} (unquoted : unquote? text = some inside) :
    inside ⊆ text := by
  cases text with
  | nil => cases unquoted
  | cons mark rest =>
      rw [unquote?] at unquoted
      split at unquoted
      · rw [← Option.some.inj unquoted]
        exact fun c member => List.mem_cons_of_mem _ (List.mem_of_mem_dropLast member)
      · cases unquoted

theorem subset_of_inputValue {text : List Char} {value : String}
    (read : inputValue text = .text value) : value.toList ⊆ text := by
  rw [inputValue] at read
  split at read
  · rename_i inside unquoted
    rw [← Value.text.inj read, String.toList_ofList]
    exact subset_of_unquote? unquoted
  · split at read
    · cases read
    · split at read
      · cases read
      · split at read
        · cases read
        · rw [← Value.text.inj read, String.toList_ofList]
          exact List.Subset.refl _

theorem comma_not_mem_of_input? {piece : List Char} {name text : String} (noComma : ',' ∉ piece)
    (read : input? piece = some (name, .text text)) : ',' ∉ text.toList := by
  rw [input?, List.span_eq_takeWhile_dropWhile] at read
  split at read
  · cases read
  · rename_i front equals value cut
    have behind : value ⊆ piece := by
      have same : piece.dropWhile (fun c => decide (c ≠ '=')) = equals :: value :=
        congrArg Prod.snd cut
      intro c member
      have inRest : c ∈ equals :: value := List.mem_cons_of_mem _ member
      rw [← same] at inRest
      exact (List.dropWhile_suffix _).subset inRest
    have isText : inputValue (trim value) = .text text := congrArg Prod.snd (Option.some.inj read)
    intro comma
    rcases exists_trim value with ⟨before, after, split, _, _⟩
    have inValue : ',' ∈ before ++ (trim value ++ after) :=
      List.mem_append_right _ (List.mem_append_left _ (subset_of_inputValue isText comma))
    exact noComma (behind (split ▸ inValue))

theorem comma_not_mem_of_inputs {items : List String} {name text : String}
    (member : (name, Value.text text) ∈ inputs items) : ',' ∉ text.toList := by
  have each : ∀ entry ∈ (items.flatMap fun item => pieces ',' item.toList).filterMap input?,
      ∀ text, entry.2 = .text text → ',' ∉ text.toList := by
    rintro ⟨name, value⟩ entry text rfl
    rcases List.mem_filterMap.mp entry with ⟨piece, among, read⟩
    rcases List.mem_flatMap.mp among with ⟨item, _, inItem⟩
    exact comma_not_mem_of_input? (not_mem_of_mem_pieces inItem) read
  exact forall_mem_foldl_putField each (List.forall_mem_nil _) _ member text rfl

/-! ## Reading back -/

theorem mem_of_lookup {bindings : Bindings} {name : String} {value : Value}
    (found : bindings.lookup name = some value) : (name, value) ∈ bindings := by
  rcases List.lookup_eq_some_iff.mp found with ⟨before, after, rfl, _⟩
  simp

theorem lookup_of_mem {bindings : Bindings} (distinct : (bindings.map Prod.fst).Nodup)
    {name : String} {value : Value} (member : (name, value) ∈ bindings) :
    bindings.lookup name = some value := by
  rcases List.append_of_mem member with ⟨before, after, rfl⟩
  refine List.lookup_eq_some_iff.mpr ⟨before, after, rfl, fun other inBefore => ?_⟩
  rw [List.map_append, List.map_cons, List.nodup_append] at distinct
  have apart := distinct.2.2 _ (List.mem_map_of_mem inBefore) _ List.mem_cons_self
  simpa using Ne.symm apart

/-- Variables that are written as inputs are read back, in their order, just if no text among them
has a comma; and if one has, they are not even read back in another order. -/
theorem inputs_written_tfae {bindings : Bindings} (areInputs : AreInputs bindings) :
    List.TFAE [
      inputs (bindings.map writeInput) = bindings,
      ∀ name, (inputs (bindings.map writeInput)).lookup name = bindings.lookup name,
      ∀ name text, (name, Value.text text) ∈ bindings → ',' ∉ text.toList] := by
  tfae_have 1 → 2 := fun same name => by rw [same]
  tfae_have 2 → 3 := by
    intro same name text member
    have found := lookup_of_mem areInputs.distinct member
    rw [← same name] at found
    exact comma_not_mem_of_inputs (mem_of_lookup found)
  tfae_have 3 → 1 := by
    intro noComma
    have written : ∀ entry ∈ bindings, ',' ∉ writeValue entry.2 := by
      rintro ⟨name, value⟩ member comma
      rcases (comma_mem_writeValue_iff (areInputs.values _ member)).mp comma with
        ⟨text, rfl, inText⟩
      exact noComma name text member inText
    have distinct : (([] ++ bindings).map Prod.fst).Nodup := areInputs.distinct
    have kept := foldl_putField_of_distinct [] distinct
    rw [inputs, filterMap_written areInputs.names areInputs.values written, kept, List.nil_append]
  tfae_finish

def mixedInputs : Bindings :=
  [("n", .number (.int (-40))), ("ok", .bool true), ("a b", .text "007"), ("it's", .text " n=5 "),
    ("quote", .text "'"), ("none", .text "")]

theorem areInputs_mixedInputs : AreInputs mixedInputs where
  distinct := by decide
  names := by
    intro entry member
    simp only [mixedInputs, List.mem_cons, List.not_mem_nil, or_false] at member
    rcases member with rfl | rfl | rfl | rfl | rfl | rfl <;>
      exact ⟨by decide, by decide, by decide, by decide, by decide⟩
  values := by
    intro entry member
    simp only [mixedInputs, List.mem_cons, List.not_mem_nil, or_false] at member
    rcases member with rfl | rfl | rfl | rfl | rfl | rfl
    · exact (by decide : (Nat.toDigits 10 40).length ≤ Numeral.maxDigits)
    all_goals trivial

theorem inputs_written_mixedInputs :
    AreInputs mixedInputs ∧ inputs (mixedInputs.map writeInput) = mixedInputs := by
  have noComma : ∀ name text, (name, Value.text text) ∈ mixedInputs → ',' ∉ text.toList := by
    intro name text member
    simp only [mixedInputs, List.mem_cons, List.not_mem_nil, or_false, Prod.mk.injEq] at member
    rcases member with ⟨_, none⟩ | ⟨_, none⟩ | ⟨_, same⟩ | ⟨_, same⟩ | ⟨_, same⟩ | ⟨_, same⟩
    · cases none
    · cases none
    all_goals
      rw [Value.text.inj same]
      decide
  exact ⟨areInputs_mixedInputs, ((inputs_written_tfae areInputs_mixedInputs).out 0 2).mpr noComma⟩

/-- Of a text in quotes only what stands before its first comma is read, the quote included. -/
theorem exists_input_cut_at_comma :
    ¬∀ bindings : Bindings, AreInputs bindings →
      ∀ name, (inputs (bindings.map writeInput)).lookup name = bindings.lookup name := by
  intro always
  have areInputs : AreInputs [("name", .text "a,b")] := by
    refine ⟨by decide, fun entry member => ?_, fun entry member => ?_⟩
    · rw [List.mem_singleton.mp member]
      exact ⟨by decide, by decide, by decide, by decide, by decide⟩
    · rw [List.mem_singleton.mp member]
      trivial
  have cut : (inputs ([("name", .text "a,b")].map writeInput)).lookup "name" =
      some (.text "'a") := by
    decide +kernel
  have same := cut.symm.trans (always _ areInputs "name")
  exact absurd same (by decide)

end Flowchart.CommandLine
