import Mathlib.Data.List.DropRight
import Lu.Proofs.Text.Classes
import Lu.Text.Blank

namespace Lu

/-!
What is left of a text without the white space around it.
-/

/-- All of the text is white space. -/
def AllBlank (text : List Char) : Prop := ∀ c ∈ text, isBlank c = true

instance (text : List Char) : Decidable (AllBlank text) :=
  decidable_of_iff (text.all isBlank = true) List.all_eq_true

/-- The core is the text without the white space at its ends: what is around it is blank, and it
neither begins nor ends with a blank. -/
structure Stripped (text core : List Char) : Prop where
  around : ∃ before after, AllBlank before ∧ AllBlank after ∧ text = before ++ core ++ after
  first : ∀ c ∈ core.head?, isBlank c = false
  last : ∀ c ∈ core.getLast?, isBlank c = false

section Stripped

variable {text core before after : List Char}

/-- An empty core is a case of its own: the white space behind it is then dropped from the left. -/
theorem trimBlanks_of_ends (first : ∀ c ∈ core.head?, isBlank c = false)
    (last : ∀ c ∈ core.getLast?, isBlank c = false) (blank : AllBlank after) :
    trimBlanks (core ++ after) = core := by
  have reversed : ∀ c ∈ after.reverse, isBlank c = true := fun c member =>
    blank c (List.mem_reverse.mp member)
  have stops : ∀ c ∈ core.reverse.head?, isBlank c = false := by rwa [List.head?_reverse]
  have dropped := (takeWhile_before reversed stops).2
  cases core with
  | nil =>
    rw [trimBlanks, List.nil_append, List.dropWhile_eq_nil_iff.mpr blank]
    rfl
  | cons c core =>
    have stays : ¬ isBlank c = true := by simpa using first c rfl
    rw [trimBlanks, List.cons_append, List.dropWhile_cons_of_neg stays, ← List.cons_append,
      List.reverse_append, dropped, List.reverse_reverse]

theorem Stripped.trimmed (stripped : Stripped text core) : trimBlanks text = core := by
  obtain ⟨⟨before, after, blankBefore, blankAfter, rfl⟩, first, last⟩ := stripped
  rw [trimBlanks, List.append_assoc, List.dropWhile_append_of_pos blankBefore]
  exact trimBlanks_of_ends first last blankAfter

theorem stripped_trimBlanks (text : List Char) : Stripped text (trimBlanks text) := by
  have front : text.takeWhile isBlank ++ text.dropWhile isBlank = text :=
    List.takeWhile_append_dropWhile
  have back : trimBlanks text ++ (text.dropWhile isBlank).rtakeWhile isBlank =
      text.dropWhile isBlank := List.rdropWhile_append_rtakeWhile
  refine ⟨⟨text.takeWhile isBlank, (text.dropWhile isBlank).rtakeWhile isBlank,
    fun _ => List.mem_takeWhile_imp, fun _ => List.mem_rtakeWhile_imp, ?_⟩, ?_, ?_⟩
  · rw [List.append_assoc, back, front]
  · intro c first
    have same : c ∈ (text.dropWhile isBlank).head? := by
      rw [← back, List.head?_append, Option.mem_def.mp first]
      rfl
    exact head?_dropWhile isBlank text c same
  · intro c last
    rw [trimBlanks, List.getLast?_reverse] at last
    exact head?_dropWhile isBlank _ c last

/-- A text has one core, and trimming finds it. -/
theorem stripped_iff : Stripped text core ↔ trimBlanks text = core := by
  constructor
  · exact Stripped.trimmed
  · rintro rfl
    exact stripped_trimBlanks text

theorem stripped_around (blankBefore : AllBlank before) (blankAfter : AllBlank after)
    (none : ∀ c ∈ core, isBlank c = false) : Stripped (before ++ core ++ after) core where
  around := ⟨before, after, blankBefore, blankAfter, rfl⟩
  first c first := none c (List.mem_of_mem_head? first)
  last c last := none c (List.mem_of_mem_getLast? last)

end Stripped

end Lu
