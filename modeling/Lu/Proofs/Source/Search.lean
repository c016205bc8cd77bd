import Mathlib.Data.List.Basic
import Lu.Source.Search

namespace Lu

/-!
Halving an ascending array ends at the last entry that is not above the number looked for.
-/

/-- Where the last entry that is not above the number can be: the entries behind the part that is left
are above it, and those before the part are not. -/
structure Narrowed (entries : Array Nat) (number base size : Nat) : Prop where
  left : 0 < size
  within : base + size ≤ entries.size
  reached : base = 0 ∨ entries.getD base 0 ≤ number
  above : ∀ index, base + size ≤ index → index < entries.size → number < entries.getD index 0

section Search

variable {entries : Array Nat} {number base size last : Nat}

theorem getD_le_getD (ascending : entries.toList.Pairwise (· ≤ ·)) {index later : Nat}
    (le : index ≤ later) (within : later < entries.size) :
    entries.getD index 0 ≤ entries.getD later 0 := by
  have before : index < entries.size := by omega
  simp only [Array.getD, dif_pos before, dif_pos within]
  rcases Nat.lt_or_eq_of_le le with lt | rfl
  · exact List.pairwise_iff_getElem.mp ascending index later before within lt
  · exact Nat.le_refl _

theorem Narrowed.half (ascending : entries.toList.Pairwise (· ≤ ·))
    (narrowed : Narrowed entries number base size) (more : ¬ size ≤ 1) :
    Narrowed entries number
      (if number < entries.getD (base + size / 2) 0 then base else base + size / 2)
      (size - size / 2) := by
  obtain ⟨left, within, reached, above⟩ := narrowed
  split
  · rename_i tooLarge
    refine ⟨by omega, by omega, reached, fun index from_middle bound => ?_⟩
    have order := getD_le_getD ascending (show base + size / 2 ≤ index by omega) bound
    omega
  · rename_i notAbove
    refine ⟨by omega, by omega, .inr (by omega), fun index behind bound => ?_⟩
    exact above index (by omega) bound

theorem Narrowed.narrow (ascending : entries.toList.Pairwise (· ≤ ·))
    (narrowed : Narrowed entries number base size) :
    Narrowed entries number (narrow entries number base size) 1 := by
  fun_induction Lu.narrow entries number base size with
  | case1 base size single =>
    have left := narrowed.left
    obtain rfl : size = 1 := by omega
    exact narrowed
  | case2 base size more middle ih => exact ih (narrowed.half ascending more)

/-- Of the entries just those up to the one found are not above the number, if there is such one. -/
theorem Narrowed.countP_eq (ascending : entries.toList.Pairwise (· ≤ ·))
    (narrowed : Narrowed entries number last 1) (notAbove : entries.getD last 0 ≤ number) :
    entries.toList.countP (· ≤ number) = last + 1 := by
  obtain ⟨-, within, -, above⟩ := narrowed
  have entry {index : Nat} (bound : index < entries.toList.length) :
      entries.getD index 0 = entries.toList[index] := by
    rw [Array.length_toList] at bound
    simp [Array.getD, bound]
  have front : (entries.toList.take (last + 1)).countP (· ≤ number) = last + 1 := by
    have length : (entries.toList.take (last + 1)).length = last + 1 := by
      rw [List.length_take, Array.length_toList]
      omega
    refine Eq.trans (List.countP_eq_length.mpr fun found member => ?_) length
    obtain ⟨index, bound, rfl⟩ := List.mem_take_iff_getElem.mp member
    have order := getD_le_getD ascending (show index ≤ last by omega) (by omega)
    rw [entry (by omega)] at order
    exact decide_eq_true (by omega)
  have back : (entries.toList.drop (last + 1)).countP (· ≤ number) = 0 := by
    rw [List.countP_eq_zero]
    intro found member
    obtain ⟨index, bound, rfl⟩ := List.mem_drop_iff_getElem.mp member
    have size := entries.length_toList
    have later := above (last + 1 + index) (by omega) (by omega)
    rw [entry (by omega)] at later
    simp only [decide_eq_true_eq, Nat.not_le]
    exact later
  rw [← List.take_append_drop (last + 1) entries.toList, List.countP_append, front, back]

/-- The search ends at the last entry that is not above the number if that is the number itself, else
behind it; and before all of them if there is none. -/
theorem search_narrowed (number : Nat) (ascending : entries.toList.Pairwise (· ≤ ·))
    (nonempty : 0 < entries.size) : ∃ last, Narrowed entries number last 1 ∧
      (search entries number = .exact last ∨ search entries number = .insertion (last + 1) ∨
        search entries number = .insertion 0 ∧ last = 0) := by
  have start : Narrowed entries number 0 entries.size :=
    ⟨nonempty, by omega, .inl rfl, fun index behind bound => by omega⟩
  have found := start.narrow ascending
  refine ⟨_, found, ?_⟩
  simp only [search, if_neg (Nat.ne_of_gt nonempty)]
  split
  · exact .inl rfl
  · rename_i other
    split
    · exact .inr (.inl rfl)
    · rename_i notBelow
      -- only the first entry can be above the number
      rcases found.reached with first | notAbove
      · exact .inr (.inr ⟨by rw [first], first⟩)
      · omega

end Search

end Lu
