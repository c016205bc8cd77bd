import Mathlib.Logic.Basic

namespace Lu

variable {ε α β : Type}

/-- A sequence succeeds just if both of its parts do. -/
theorem bind_eq_ok {first : Except ε α} {next : α → Except ε β} {b : β} :
    (first >>= next) = .ok b ↔ ∃ a, first = .ok a ∧ next a = .ok b := by
  cases first <;> simp [bind, Except.bind]

theorem pure_eq_ok {a b : α} : (pure a : Except ε α) = .ok b ↔ a = b := by
  simp [pure, Except.pure]

theorem map_eq_ok {result : Except ε α} {f : α → β} {b : β} :
    result.map f = .ok b ↔ ∃ a, result = .ok a ∧ f a = b := by
  cases result <;> simp [Except.map]

theorem mapError_ok {ε' : Type} (change : ε → ε') (a : α) :
    (.ok a : Except ε α).mapError change = .ok a := rfl

/-- What an attempt gives, known by a test that it passes. -/
theorem ok_of_any {result : Except ε α} {test : α → Bool}
    (any : result.toOption.any test = true) : ∃ value, result = .ok value ∧ test value = true := by
  cases result with
  | ok value => exact ⟨value, rfl, any⟩
  | error e => cases any

end Lu
