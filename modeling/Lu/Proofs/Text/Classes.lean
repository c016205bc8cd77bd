import Mathlib.Data.List.TakeWhile

namespace Lu

/-!
The characters of one class that a text begins with, and what is behind them.
-/

section Classes

variable {whole rest front tail : List Char} {p : Char → Bool}

/-- What holds of the characters of a text and not of the one behind it holds of just that text. -/
theorem takeWhile_before (all : ∀ c ∈ front, p c = true) (stops : ∀ c ∈ rest.head?, p c = false) :
    (front ++ rest).takeWhile p = front ∧ (front ++ rest).dropWhile p = rest := by
  rw [List.takeWhile_append_of_pos all, List.dropWhile_append_of_pos all]
  cases rest with
  | nil => simp
  | cons c rest => simp [stops c rfl]

/-- What does not hold of a class is left behind it. -/
theorem head?_dropWhile (p : Char → Bool) (chars : List Char) :
    ∀ c ∈ (chars.dropWhile p).head?, p c = false := by
  intro c first
  have := List.head?_dropWhile_not p chars
  rw [Option.mem_def] at first
  rw [first] at this
  exact this

/-- A text of one class does not reach behind where the class ends. -/
theorem prefix_of_class (all : ∀ c ∈ front, p c = true) (stops : ∀ c ∈ rest.head?, p c = false)
    (begins : front <+: whole ++ rest) : front <+: whole := by
  rcases List.prefix_or_prefix_of_prefix begins (List.prefix_append whole rest) with within | ⟨more, rfl⟩
  · exact within
  · cases more with
    | nil => simp
    | cons c more =>
      obtain ⟨back, same⟩ := begins
      simp only [List.append_assoc, List.append_cancel_left_eq, List.cons_append] at same
      have not := stops c (by rw [← same]; rfl)
      rw [all c (by simp)] at not
      cases not

/-- A text of one class with something else behind it is all there is of the class. -/
theorem class_ends {c : Char} (all : ∀ d ∈ whole, p d = true) (stops : ∀ d ∈ rest.head?, p d = false)
    (within : ∀ d ∈ front, p d = true) (other : p c = false)
    (begins : front ++ c :: tail <+: whole ++ rest) : front = whole ∧ c :: tail <+: rest := by
  obtain ⟨more, rfl⟩ := prefix_of_class within stops ((List.prefix_append ..).trans begins)
  rw [List.append_assoc, List.prefix_append_right_inj] at begins
  cases more with
  | nil => exact ⟨(List.append_nil _).symm, begins⟩
  | cons d more =>
    obtain ⟨back, same⟩ := begins
    obtain rfl := (List.cons.inj same).1
    rw [all c (by simp)] at other
    cases other

end Classes

end Lu
