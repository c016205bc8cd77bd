import Lu.Check.Error

namespace Lu

/-!
Two attempts of the checker that succeed together, with results that are related, or fail together.
-/

namespace Check

variable {α α' β β' γ γ' : Type} {r : α → α' → Prop} {s : β → β' → Prop}

/-- Both attempts succeed and their results are related, or both fail, for whatever reason. -/
inductive Together (related : α → α' → Prop) : Check α → Check α' → Prop
  | ok {a a'} : related a a' → Together related (.ok a) (.ok a')
  | error {e e'} : Together related (.error e) (.error e')

namespace Together

/-- An attempt goes together with itself. -/
theorem same {x x' : Check α} (eq : x' = x) : Together Eq x x' := by
  rw [eq]
  cases x with
  | ok a => exact .ok rfl
  | error e => exact .error

theorem of_ok {x : Check α} {x' : Check α'} (forth : ∀ a, x = .ok a → ∃ a', x' = .ok a' ∧ r a a')
    (back : ∀ a', x' = .ok a' → ∃ a, x = .ok a) : Together r x x' := by
  cases x with
  | ok a =>
    obtain ⟨a', rfl, related⟩ := forth a rfl
    exact .ok related
  | error e =>
    cases x' with
    | ok a' =>
      obtain ⟨a, same⟩ := back a' rfl
      cases same
    | error e' => exact .error

theorem bind {first : Check α} {first' : Check α'} {next : α → Check β} {next' : α' → Check β'}
    (atFirst : Together r first first')
    (atNext : ∀ a a', r a a' → Together s (next a) (next' a')) :
    Together s (first >>= next) (first' >>= next') := by
  cases atFirst with
  | ok related => exact atNext _ _ related
  | error => exact .error

/-- After an attempt that is the same on both sides. -/
theorem bind_same {first first' : Check α} {next : α → Check β} {next' : α → Check β'}
    (eq : first' = first) (atNext : ∀ a, Together s (next a) (next' a)) :
    Together s (first >>= next) (first' >>= next') := by
  refine (same eq).bind fun a a' equal => ?_
  subst equal
  exact atNext a

/-- Two attempts that do not depend on each other can be made in either order. -/
theorem swapped {first : Check α} {first' : Check α'} {second : Check β} {second' : Check β'}
    {next : α → β → Check γ} {next' : α' → β' → Check γ'} {t : γ → γ' → Prop}
    (atFirst : Together r first first') (atSecond : Together s second second')
    (atNext : ∀ a a' b b', r a a' → s b b' → Together t (next a b) (next' a' b')) :
    Together t (first >>= fun a => second >>= fun b => next a b)
      (second' >>= fun b => first' >>= fun a => next' a b) := by
  cases atFirst with
  | error =>
    cases atSecond with
    | error => exact .error
    | ok => exact .error
  | ok one =>
    cases atSecond with
    | error => exact .error
    | ok other => exact atNext _ _ _ _ one other

theorem forth {x : Check α} {x' : Check α'} {a : α} (together : Together r x x')
    (success : x = .ok a) : ∃ a', x' = .ok a' ∧ r a a' := by
  subst success
  cases together with
  | ok related => exact ⟨_, rfl, related⟩

theorem back {x : Check α} {x' : Check α'} {a' : α'} (together : Together r x x')
    (success : x' = .ok a') : ∃ a, x = .ok a ∧ r a a' := by
  subst success
  cases together with
  | ok related => exact ⟨_, rfl, related⟩

end Together

end Check

end Lu
