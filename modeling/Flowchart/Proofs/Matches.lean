import Mathlib.Data.List.Forall2

/-!
Computations that go together: both fail in the same way, or their results are related.
-/

namespace Flowchart

/-- Two computations that fail in the same way, or give results that are related. -/
inductive Matches {ε α β : Type} (related : α → β → Prop) : Except ε α → Except ε β → Prop
  | error (error : ε) : Matches related (.error error) (.error error)
  | ok {value : α} {other : β} (same : related value other) :
      Matches related (.ok value) (.ok other)

section

variable {ε α β γ δ : Type} {related : α → β → Prop} {relatedThen : γ → δ → Prop}

theorem Matches.bind {first : Except ε α} {second : Except ε β} {next : α → Except ε γ}
    {nextToo : β → Except ε δ} (both : Matches related first second)
    (later : ∀ {value other}, related value other →
      Matches relatedThen (next value) (nextToo other)) :
    Matches relatedThen (first >>= next) (second >>= nextToo) := by
  cases both with
  | error error => exact .error error
  | ok same => exact later same

theorem Matches.mapM {step : α → Except ε γ} {stepToo : β → Except ε δ} {values : List α}
    {others : List β} (pairs : List.Forall₂ related values others)
    (each : ∀ {value other}, related value other →
      Matches relatedThen (step value) (stepToo other)) :
    Matches (List.Forall₂ relatedThen) (values.mapM step) (others.mapM stepToo) := by
  induction pairs with
  | nil => exact .ok .nil
  | @cons value other values others same pairs induction =>
      rw [List.mapM_cons, List.mapM_cons]
      apply (each same).bind
      intro result resultToo sameResult
      apply induction.bind
      intro results resultsToo sameResults
      exact .ok (.cons sameResult sameResults)

theorem Matches.imp {relatedToo : α → β → Prop} {first : Except ε α} {second : Except ε β}
    (both : Matches related first second)
    (same : ∀ {value other}, related value other → relatedToo value other) :
    Matches relatedToo first second := by
  cases both with
  | error error => exact .error error
  | ok pair => exact .ok (same pair)

theorem Matches.of_map_eq {first : Except ε α} {second : Except ε β} {view : α → γ}
    {viewToo : β → γ} (same : second.map viewToo = first.map view) :
    Matches (fun value other => viewToo other = view value) first second := by
  cases first with
  | error error =>
      cases second with
      | error other =>
          cases same
          exact .error error
      | ok value => cases same
  | ok value =>
      cases second with
      | error error => cases same
      | ok other => exact .ok (Except.ok.inj same)

theorem Matches.map {first : Except ε α} {second : Except ε β} {next : α → γ} {nextToo : β → δ}
    (both : Matches related first second)
    (same : ∀ {value other}, first = .ok value → second = .ok other → related value other →
      relatedThen (next value) (nextToo other)) :
    Matches relatedThen (first.map next) (second.map nextToo) := by
  cases both with
  | error error => exact .error error
  | ok pair => exact .ok (same rfl rfl pair)

theorem Matches.map_map_eq {ρ : Type} {first : Except ε α} {second : Except ε β} {next : α → γ}
    {nextToo : β → δ} {view : γ → ρ} {viewToo : δ → ρ} (both : Matches related first second)
    (same : ∀ {value other}, related value other → viewToo (nextToo other) = view (next value)) :
    (second.map nextToo).map viewToo = (first.map next).map view := by
  cases both with
  | error error => rfl
  | ok pair => exact congrArg Except.ok (same pair)

theorem Matches.bind_map_eq {ρ : Type} {first : Except ε α} {second : Except ε β}
    {next : α → Except ε γ} {nextToo : β → Except ε δ} {view : γ → ρ} {viewToo : δ → ρ}
    (both : Matches related first second)
    (same : ∀ {value other}, related value other →
      (nextToo other).map viewToo = (next value).map view) :
    (second >>= nextToo).map viewToo = (first >>= next).map view := by
  cases both with
  | error error => rfl
  | ok pair => exact same pair

end

theorem bind_eq_map_bind {ε α β γ δ : Type} {first : Except ε α} {firstThen : Except ε γ}
    {next : α → Except ε β} {nextThen : γ → Except ε δ} {one : α → γ} {other : β → δ}
    (firstSame : firstThen = first.map one)
    (nextSame : ∀ value, nextThen (one value) = (next value).map other) :
    firstThen >>= nextThen = (first >>= next).map other := by
  subst firstSame
  cases first with
  | error error => rfl
  | ok value => exact nextSame value

end Flowchart
