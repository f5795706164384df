import Flowchart.Proofs.Comparison.Statement

/-!
Comparisons with a text between quotes.

The quotes are gone once a comparison is read, so a text in quotes stands for a variable of that
name where there is one. It is compared as a text just where no such variable has another say.
-/

namespace Flowchart.Comparison

open Text

def literal (inside : List Char) : List Char := '\'' :: (inside ++ ['\''])

theorem same_text_iff {value : Value} {name : String} :
    value.same (.text name) = true ↔ value = .text name := by
  cases value with
  | text other => simp [Value.same]
  | null => simp [Value.same, Value.numeric?]
  | bool other => simp [Value.same, Value.numeric?]
  | number other => simp [Value.same, Value.numeric?]

section

variable {left name : String} {value : Value} {bindings : Bindings}

theorem evaluate_text (bound : bindings.lookup left = some value) :
    (⟨left, .equal, .text name⟩ : Comparison).evaluate bindings =
      some (value.same ((bindings.lookup name).getD (.text name))) := by
  simp [evaluate, bound, resolve, Relation.holds?]

theorem evaluate_text_iff (bound : bindings.lookup left = some value) :
    ((⟨left, .equal, .text name⟩ : Comparison).evaluate bindings = some true ↔
        value = .text name) ↔
      ∀ other, bindings.lookup name = some other →
        (value.same other = true ↔ value = .text name) := by
  rw [evaluate_text bound, Option.some.injEq]
  cases bindings.lookup name with
  | none => simp [same_text_iff]
  | some other => simp

theorem evaluate_text_congr {others : Bindings}
    (sameLeft : bindings.lookup left = others.lookup left)
    (sameName : bindings.lookup name = others.lookup name) :
    (⟨left, .equal, .text name⟩ : Comparison).evaluate bindings =
      (⟨left, .equal, .text name⟩ : Comparison).evaluate others := by
  simp [evaluate, resolve, sameLeft, sameName]

/-- No text is safe: some variables decide a comparison with it otherwise than the text does. -/
theorem exists_bindings_deciding (left name : String) : ∃ (bindings : Bindings) (value : Value),
    bindings.lookup left = some value ∧
      ¬((⟨left, .equal, .text name⟩ : Comparison).evaluate bindings = some true ↔
        value = .text name) := by
  by_cases own : left = name
  · subst own
    have bound : List.lookup left [(left, Value.null)] = some .null := by simp
    refine ⟨[(left, .null)], .null, bound, ?_⟩
    rw [evaluate_text bound, bound]
    simp [Value.same]
  · have bound : List.lookup left [(left, Value.text name), (name, .null)] =
        some (.text name) := by simp
    have shadow : List.lookup name [(left, Value.text name), (name, .null)] = some .null := by
      simp [List.lookup_cons, beq_false_of_ne (Ne.symm own)]
    refine ⟨[(left, .text name), (name, .null)], .text name, bound, ?_⟩
    rw [evaluate_text bound, shadow]
    simp [Value.same, Value.numeric?]

end

/-- A name is found equal to a text in quotes just when its value is that text, unless a variable
that goes by the text decides otherwise. Only these two variables count. -/
theorem evaluate_literal_iff {left inside : List Char} (isVariable : IsVariable left)
    (unquoted : '\'' ∉ inside) :
    ∃ comparison, read? (statement left .equal (literal inside)) = .ok (some comparison) ∧
      (∀ (bindings : Bindings) (value : Value),
        bindings.lookup (String.ofList left) = some value →
          ((comparison.evaluate bindings = some true ↔ value = .text (String.ofList inside)) ↔
            ∀ other, bindings.lookup (String.ofList inside) = some other →
              (value.same other = true ↔ value = .text (String.ofList inside)))) ∧
      ∀ bindings others : Bindings,
        bindings.lookup (String.ofList left) = others.lookup (String.ofList left) →
          bindings.lookup (String.ofList inside) = others.lookup (String.ofList inside) →
            comparison.evaluate bindings = comparison.evaluate others := by
  have whole : IsWhole (literal inside) := isWhole_of_quoted (.inl rfl) unquoted
  have value : operandValue (literal inside) = .ok (.text (String.ofList inside)) :=
    (Denotes.quoted (.inl rfl) unquoted).operandValue_eq
  have known : Relation.equal ∈ Relation.known := by decide
  refine ⟨⟨String.ofList left, .equal, .text (String.ofList inside)⟩, ?_, ?_, ?_⟩
  · rw [read?_of_isWhole isVariable known whole, value]
    rfl
  · exact fun bindings value bound => evaluate_text_iff bound
  · exact fun bindings others sameLeft sameName => evaluate_text_congr sameLeft sameName

theorem evaluate_literal_unbound : ∃ comparison,
    read? "x == 'a'".toList = .ok (some comparison) ∧
      comparison.evaluate [("x", .text "a"), ("b", .text "c")] = some true ∧
      comparison.evaluate [("x", .text "a")] =
        comparison.evaluate [("x", .text "a"), ("b", .text "c")] := by
  have isVariable : IsVariable "x".toList := by decide
  have unquoted : '\'' ∉ "a".toList := by decide
  rcases evaluate_literal_iff isVariable unquoted with ⟨comparison, read, compares, depends⟩
  refine ⟨comparison, read, ?_, depends _ _ rfl rfl⟩
  exact ((compares [("x", .text "a"), ("b", .text "c")] (.text "a") rfl).mpr
    (fun other bound => by cases bound)).mpr rfl

/-- Of two environments with the same value on the left, one gives the text in quotes another
meaning. -/
theorem exists_literal_resolved : ∃ comparison,
    read? "x == 'a'".toList = .ok (some comparison) ∧
      comparison.evaluate [("x", .text "a")] = some true ∧
      comparison.evaluate [("x", .text "a"), ("a", .text "b")] = some false :=
  ⟨⟨"x", .equal, .text "a"⟩, by decide +kernel, by decide, by decide⟩

end Flowchart.Comparison
